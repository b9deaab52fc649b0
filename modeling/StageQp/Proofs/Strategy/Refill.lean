import StageQp.Proofs.Qp.Times
import StageQp.Proofs.Strategy.Moves

/-!
# StageQp.Proofs.Strategy.Refill

Condensing into a record that a program was condensed into before.  Whatever the map
of stages says, condensing comes to the same end over records that differ in fields
only (`Identity.alike_condense_over`), and when it comes through there is nothing left
of what was in the fields (`Identity.condense_forgets`).
-/

namespace StageQp

open Procedure

namespace StageData

variable {Φ : Type} [StageFields Φ] [LawfulStageFields Φ] {d e other : StageData Φ} {k : Nat}

/-! ## Copies from one record to another -/

omit [LawfulStageFields Φ] in
/-- Valid records that differ in fields only. -/
structure Refills (d e : StageData Φ) : Prop extends OnlyFields d e where
  valid : d.Valid

namespace Refills

omit [LawfulStageFields Φ] in
/-- The refilled record is valid, too. -/
theorem other_valid (h : Refills d e) : e.Valid := h.toOnlyFields.valid h.valid

/-- Such records take the same entries. -/
theorem set? (h : Refills d e) (k : Nat) (field : Φ)
    (entries : Array (StageFields.EntryOf field)) :
    Option.Rel Refills (d.set? k field entries) (e.set? k field entries) := by
  have hkeeps {d r : StageData Φ} (hv : d.Valid) (hr : d.set? k field entries = some r) :
      OnlyFields d r := (writeKeeps_onlyFields hv).set? (.refl d) hr
  have hsome {d e r : StageData Φ} (h : OnlyFields d e)
      (hr : d.set? k field entries = some r) : ∃ s, e.set? k field entries = some s := by
    obtain ⟨b, hb, hs, -⟩ := set?_eq_some hr
    rw [← block?_congr h.layout_eq h.halves.size_eq] at hb
    exact ⟨{ e with words := b.setRecords e.words entries }, by simp [StageData.set?, hb, hs]⟩
  cases hd : d.set? k field entries with
  | some r =>
      obtain ⟨s, he⟩ := hsome h.toOnlyFields hd
      have hr := hkeeps h.valid hd
      rw [he]
      exact .some ⟨(hr.symm.trans h.toOnlyFields).trans (hkeeps h.other_valid he),
        hr.valid h.valid⟩
  | none =>
      cases he : e.set? k field entries with
      | none => exact .none
      | some s =>
          obtain ⟨r, hr⟩ := hsome h.toOnlyFields.symm he
          rw [hd] at hr
          cases hr

/-- Copying the same field to both leaves refilled records. -/
theorem copyField? (h : Refills d e) (k source : Nat) (field : Φ) :
    Option.Rel Refills (d.copyField? k other source field)
      (e.copyField? k other source field) := by
  rw [StageData.copyField?, StageData.copyField?]
  cases other.get? source field with
  | none => exact .none
  | some entries => exact h.set? k field entries

end Refills

/-- Fields that are copied one by one to a stage are those of the source. -/
theorem get?_of_copyFields? {r : StageData Φ} (hv : r.Valid) {source : Nat} {fields : List Φ}
    (h : fields.foldlM (fun r field => r.copyField? k other source field) r = some e) :
    (∀ field ∈ fields, e.get? k field = other.get? source field) ∧
      ∀ j field, (j ≠ k ∨ field ∉ fields) → e.get? j field = r.get? j field := by
  induction fields generalizing r with
  | nil =>
      cases h
      exact ⟨by simp, fun _ _ _ => rfl⟩
  | cons f fs ih =>
      rw [List.foldlM_cons] at h
      obtain ⟨s, hs, h⟩ := Option.bind_eq_some_iff.1 h
      obtain ⟨entries, hentries, hset⟩ := Option.bind_eq_some_iff.1 hs
      have hrewrites := hv.rewrites_of_set? hset
      obtain ⟨hcopied, hkept⟩ := ih ((hv.sameFrame_set? hset).valid hv) h
      refine ⟨fun g hg => ?_, fun j g hj => ?_⟩
      · by_cases hgs : g ∈ fs
        · exact hcopied g hgs
        · obtain rfl : g = f := (List.mem_cons.1 hg).resolve_right hgs
          rw [hkept k g (.inr hgs), hrewrites.self, hentries]
      · rw [hkept j g (hj.imp_right fun hg hgs => hg (List.mem_cons_of_mem _ hgs)),
          hrewrites.other j g (hj.imp_right fun hg hgf => hg (hgf ▸ List.mem_cons_self ..))]

end StageData

/-- Two desks with one region, and with records that differ in fields only. -/
structure Desk.Refills (d e : Desk QpInput) : Prop where
  region_eq : e.region = d.region
  record : d.record.Refills e.record

namespace Identity

variable {qp r e : QpInput}

/-- Copying the same stage to both leaves refilled records. -/
theorem rel_copyStage? (h : r.Refills e) (source k : Nat) :
    Option.Rel StageData.Refills (copyStage? qp r source k) (copyStage? qp e source k) :=
  rel_foldlM (fun _ _ field hr => hr.copyField? k source field) h _

/-- Condensing into either record comes to the same end. -/
theorem alike_condense_over (qp : QpInput) (m : IdentityMemory) :
    Alike Desk.Refills (condense qp m) (condense qp m) := by
  refine .fetch_bind fun d e h => ?_
  rw [h.record.shape_eq, h.region_eq]
  exact .bind (.check _) fun _ => .bind (.check _) fun stages => .need_bind
    (rel_foldlM (R := StageData.Refills) (fun _ _ i hr => rel_copyStage? hr i.1 i.2) h.record _)
    fun _ _ hr => .store ⟨rfl, hr⟩

/-- A stage that is copied is that of the program, and no other stage changes. -/
theorem get?_of_copyStage? (hv : r.Valid) {source k : Nat}
    (h : copyStage? qp r source k = some e) :
    e.Valid ∧ (∀ field, e.get? k field = qp.get? source field) ∧
      ∀ j field, j ≠ k → e.get? j field = r.get? j field := by
  obtain ⟨hcopied, hkept⟩ := StageData.get?_of_copyFields? hv h
  have honly := keeps_copyStage? (StageData.writeKeeps_onlyFields hv) (.refl r) h
  exact ⟨honly.valid hv, fun field => hcopied field (LawfulStageFields.mem_all field),
    fun j field hj => hkept j field (.inl hj)⟩

/-- Stages that are copied one by one, from number `n` on, are those that were named. -/
theorem get?_of_copyStages? (hv : r.Valid) {stages : List Nat} {n : Nat}
    (h : (stages.zipIdx n).foldlM (fun r (source, k) => copyStage? qp r source k) r = some e) :
    (∀ i source, stages[i]? = some source →
      ∀ field, e.get? (n + i) field = qp.get? source field) ∧
      ∀ j < n, ∀ field, e.get? j field = r.get? j field := by
  -- later stages leave the earlier ones alone: the second part carries the first
  induction stages generalizing r n with
  | nil =>
      cases h
      exact ⟨by simp, fun _ _ _ => rfl⟩
  | cons s ss ih =>
      rw [List.zipIdx_cons, List.foldlM_cons] at h
      obtain ⟨t, ht, h⟩ := Option.bind_eq_some_iff.1 h
      obtain ⟨htv, hcopied, hsame⟩ := get?_of_copyStage? hv ht
      obtain ⟨hrest, hkept⟩ := ih htv h
      refine ⟨fun i source hi field => ?_, fun j hj field => ?_⟩
      · cases i with
        | zero =>
            obtain rfl : s = source := by simpa using hi
            rw [Nat.add_zero, hkept n (Nat.lt_succ_self n), hcopied]
        | succ i =>
            rw [← hrest i source (by simpa using hi), Nat.add_assoc, Nat.add_comm 1]
      · rw [hkept j (Nat.lt_succ_of_lt hj), hsame j field (Nat.ne_of_lt hj)]

/-- When condensing comes through, every stage holds what the program has at the stage
that the map names for it. -/
theorem get?_of_condense {m : IdentityMemory} {desk : Desk QpInput} (hv : desk.record.Valid)
    {stages : List Nat} (hm : m.stages desk.region = .ok stages) {j : Journal}
    {t : Noted (Desk QpInput)} (h : outcome (condense qp m) desk j = (.ok (), t)) {k source : Nat}
    (hk : stages[k]? = some source) (field : InputField) :
    t.value.record.get? k field = qp.get? source field := by
  obtain ⟨d, t₁, hfetch, h⟩ := of_outcome_bind h
  cases hfetch
  obtain ⟨⟨⟩, t₂, hcheck, h⟩ := of_outcome_bind h
  obtain ⟨-, rfl⟩ := of_outcome_check hcheck
  obtain ⟨numbers, t₃, hcheck, h⟩ := of_outcome_bind h
  obtain ⟨hnumbers, rfl⟩ := of_outcome_check hcheck
  obtain rfl : stages = numbers := Except.ok.inj (hm.symm.trans hnumbers)
  obtain ⟨record, t₄, hneed, h⟩ := of_outcome_bind h
  obtain ⟨hfold, rfl⟩ := of_outcome_need hneed
  cases h
  have hcopied := (get?_of_copyStages? hv hfold).1 k source hk field
  rwa [Nat.zero_add] at hcopied

/-- When condensing comes through, the fields that were there before are forgotten. -/
theorem condense_forgets {m : IdentityMemory} {d e : Desk QpInput} (h : d.Refills e)
    {stages : List Nat} (hm : m.stages d.region = .ok stages)
    (hlen : stages.length = d.record.shape.horizon + 1) {j k : Journal}
    {s t : Noted (Desk QpInput)} (hd : outcome (condense qp m) d j = (.ok (), s))
    (he : outcome (condense qp m) e k = (.ok (), t)) : t.value.record = s.value.record := by
  obtain ⟨-, hafter⟩ := alike_condense_over qp m d e j k h
  rw [hd, he] at hafter
  have hshape : s.value.record.shape = d.record.shape :=
    (condense_onlyFields h.record.valid hd).1.shape_eq
  refine hafter.record.eq_of_getD hafter.record.valid fun i field => ?_
  rcases Nat.lt_or_ge d.record.shape.horizon i with hi | hi
  · rw [← hshape] at hi
    rw [StageData.getD_of_horizon_lt hi,
      StageData.getD_of_horizon_lt (by rwa [hafter.record.shape_eq])]
  · obtain ⟨source, hsource⟩ : ∃ source, stages[i]? = some source :=
      ⟨_, List.getElem?_eq_getElem (by omega)⟩
    rw [StageData.getD, StageData.getD, get?_of_condense h.record.valid hm hd hsource,
      get?_of_condense h.record.other_valid (by rwa [h.region_eq]) he hsource]

end Identity

end StageQp
