import StageQp.Proofs.Qp.Copy
import StageQp.Proofs.Strategy.Identity

/-!
# StageQp.Proofs.Strategy.Moves

The strategy that keeps every stage moves data exactly (`moves_exact`).  Condensing
makes a record what a copy at once would make it, but for the half words behind odd
numbers of indices; expanding hands the condensed solution on, with the multipliers
zero unless asked for, and leaves the account of the solution as it was.  Records of
another shape are refused.
-/

namespace StageQp

open Procedure

namespace Identity

/-- The record was made that of the program field by field; a copy at once makes it the
same, but for half words behind odd numbers of indices. -/
structure CopiesProgram (qp before after : QpInput) : Prop where
  fields (k : Nat) (field : InputField) : after.get? k field = qp.get? k field
  only_fields : before.OnlyFields after
  bulk : ∃ c, before.copyFrom qp = .ok c ∧ c.layout = after.layout ∧
    (∀ k field, c.get? k field = qp.get? k field) ∧
    Words.ChangesOnly after.layout.PadsIndices c.words after.words

/-- The solution was made the condensed one, with the multipliers only if asked for; its
account is as before. -/
structure HandsOn (duals : Bool) (condensed before after : QpOutput) : Prop where
  ux (k : Nat) : after.get? k .ux = condensed.get? k .ux
  t (k : Nat) : after.get? k .t = condensed.get? k .t
  pi (k : Nat) (hk : k ≤ condensed.shape.horizon) : after.get? k .pi =
    if duals then condensed.get? k .pi
    else some (.replicate (OutputField.count condensed.shape k .pi) (⟨0⟩ : Binary64))
  lam (k : Nat) (hk : k ≤ condensed.shape.horizon) : after.get? k .lam =
    if duals then condensed.get? k .lam
    else some (.replicate (OutputField.count condensed.shape k .lam) (⟨0⟩ : Binary64))
  info_eq : after.info = before.info
  only_fields : before.OnlyFields after

/-- Over a region, records of the shape are condensed and expanded, and nothing but the
record is changed. -/
structure MovesExactly (m : IdentityMemory) (region : Words) (shape : Shape) : Prop where
  condense (qp record : QpInput) (hq : qp.Valid) (hr : record.Valid) (hqs : qp.shape = shape)
    (hrs : record.shape = shape) (o : IdentityOptions) (work : Words) (j : Journal) :
    ∃ r, outcome (identity.condense qp o m) ⟨record, region, work⟩ j =
        (.ok (), ⟨⟨r, region, work⟩, j⟩) ∧
      CopiesProgram qp record r
  expand (condensed record : QpOutput) (hc : condensed.Valid) (hr : record.Valid)
    (hcs : condensed.shape = shape) (hrs : record.shape = shape) (o : IdentityOptions)
    (work : Words) (j : Journal) :
    ∃ r, outcome (identity.expand condensed o m) ⟨record, region, work⟩ j =
        (.ok (), ⟨⟨r, region, work⟩, j⟩) ∧
      HandsOn (o.expandDuals != 0) condensed record r

/-- Records of different shapes are refused, and the desk is left as it was. -/
structure RefusesOthers (m : IdentityMemory) : Prop where
  condense (qp : QpInput) (desk : Desk QpInput) (h : qp.shape ≠ desk.record.shape)
    (o : IdentityOptions) (j : Journal) : outcome (identity.condense qp o m) desk j =
      (.error (.fault (.invalidDimension (.shapesDiffer .condense qp.shape desk.record.shape))),
        ⟨desk, j⟩)
  expand (condensed : QpOutput) (desk : Desk QpOutput) (h : condensed.shape ≠ desk.record.shape)
    (o : IdentityOptions) (j : Journal) : outcome (identity.expand condensed o m) desk j =
      (.error (.fault (.invalidDimension
        (.shapesDiffer .expand condensed.shape desk.record.shape))), ⟨desk, j⟩)
  copyFrom (qp record : QpInput) (h : qp.shape ≠ record.shape) :
    record.copyFrom qp = .error (.invalidDimension .recordsDiffer)

/-! ## Condensing -/

/-- A record with the fields of a program, changed in fields only, is a copy of it. -/
theorem copiesProgram_of_getD {qp before after : QpInput} (hq : qp.Valid) (hb : before.Valid)
    (hs : qp.shape = before.shape) (ha : before.OnlyFields after)
    (h : ∀ k field, after.getD k field = qp.getD k field) : CopiesProgram qp before after where
  fields k field := hq.get?_congr (ha.valid hb) (ha.shape_eq.trans hs.symm) (h k field)
  only_fields := ha
  bulk := by
    obtain ⟨c, hcopy, hc⟩ := StageData.copyFrom_overwrites hb hq hs
    refine ⟨c, hcopy, hc.layout_eq.trans ha.layout_eq.symm, fun k field => ?_, ?_⟩
    · exact hq.get?_congr (hc.valid hb) (hc.shape_eq.trans hs.symm) (hc.getD_eq hb hq hs k field)
    · rw [ha.layout_eq]
      exact StageData.changesOnly_copyFrom hb hq hs hc ha h

/-- However condensing ends, it wrote fields of the record and nothing else. -/
theorem condense_onlyFields {qp : QpInput} {m : IdentityMemory} {desk : Desk QpInput}
    (hv : desk.record.Valid) {j : Journal} {run : Except Stop Unit × Noted (Desk QpInput)}
    (h : outcome (condense qp m) desk j = run) : desk.record.OnlyFields run.2.value.record ∧
      run.2.value = { desk with record := run.2.value.record } := by
  obtain ⟨r, hr, hdesk⟩ := keeps_condense_of (StageData.writeKeeps_onlyFields hv) qp m desk desk j
    ⟨desk.record, .refl _, rfl⟩
  subst h
  rw [hdesk]
  exact ⟨hr, rfl⟩

variable {m : IdentityMemory} {region : Words} {shape : Shape}

/-- Over a map that names every stage, condensing copies the program. -/
theorem condense_copies (hm : m.stages region = .ok (List.range (shape.horizon + 1)))
    {qp record : QpInput} (hq : qp.Valid) (hr : record.Valid) (hqs : qp.shape = shape)
    (hrs : record.shape = shape) (work : Words) (j : Journal) :
    ∃ r, outcome (condense qp m) ⟨record, region, work⟩ j = (.ok (), ⟨⟨r, region, work⟩, j⟩) ∧
      CopiesProgram qp record r := by
  subst hqs
  obtain ⟨r, hrun, -, hfields⟩ := outcome_condense ⟨record, region, work⟩ hq hr hrs.symm hm j
  have hkept : record.OnlyFields r := (condense_onlyFields hr hrun).1
  exact ⟨r, hrun, copiesProgram_of_getD hq hr hrs.symm hkept hfields⟩

/-! ## Expanding -/

/-- A record with the fields that are handed on, changed in fields only, was handed them. -/
theorem handsOn_of_getD {duals : Bool} {condensed before after : QpOutput}
    (hc : condensed.Valid) (hb : before.Valid) (hs : condensed.shape = before.shape)
    (ha : before.OnlyFields after) (hinfo : after.info = before.info)
    (h : ∀ k field, k ≤ condensed.shape.horizon →
      after.getD k field = expanded duals condensed k field) :
    HandsOn duals condensed before after := by
  have hav := ha.valid hb
  have has : after.shape = condensed.shape := ha.shape_eq.trans hs.symm
  have hget (k : Nat) (field : OutputField) (hk : k ≤ condensed.shape.horizon) :
      after.get? k field = some (expanded duals condensed k field) := by
    rw [hav.get?_eq (by rwa [has]), h k field hk]
  have hcopied (k : Nat) (field : OutputField)
      (he : k ≤ condensed.shape.horizon →
        expanded duals condensed k field = condensed.getD k field) :
      after.get? k field = condensed.get? k field := by
    rcases Nat.lt_or_ge condensed.shape.horizon k with hk | hk
    · rw [StageData.get?_of_horizon_lt hk, StageData.get?_of_horizon_lt (by rwa [has])]
    · rw [hget k field hk, he hk, hc.get?_eq hk]
  refine
    { ux := fun k => hcopied k .ux fun _ => rfl
      t := fun k => hcopied k .t fun _ => rfl
      pi := fun k hk => ?_
      lam := fun k hk => ?_
      info_eq := hinfo
      only_fields := ha }
  · rw [hget k .pi hk, hc.get?_eq hk]
    cases duals <;> rfl
  · rw [hget k .lam hk, hc.get?_eq hk]
    cases duals <;> rfl

/-- However expanding ends, it wrote fields of the record and nothing else. -/
theorem expand_onlyFields {condensed : QpOutput} {o : IdentityOptions} {m : IdentityMemory}
    {desk : Desk QpOutput} (hv : desk.record.Valid) {j : Journal}
    {run : Except Stop Unit × Noted (Desk QpOutput)}
    (h : outcome (expand condensed o m) desk j = run) :
    desk.record.OnlyFields run.2.value.record ∧
      run.2.value = { desk with record := run.2.value.record } := by
  obtain ⟨r, hr, hdesk⟩ := keeps_expand_of (StageData.writeKeeps_onlyFields hv) condensed o m desk
    desk j ⟨desk.record, .refl _, rfl⟩
  subst h
  rw [hdesk]
  exact ⟨hr, rfl⟩

/-- Over a map that names every stage, expanding hands the solution on. -/
theorem expand_handsOn (hm : m.stages region = .ok (List.range (shape.horizon + 1)))
    {condensed record : QpOutput} (hc : condensed.Valid) (hr : record.Valid)
    (hcs : condensed.shape = shape) (hrs : record.shape = shape) (o : IdentityOptions)
    (work : Words) (j : Journal) :
    ∃ r, outcome (expand condensed o m) ⟨record, region, work⟩ j =
        (.ok (), ⟨⟨r, region, work⟩, j⟩) ∧
      HandsOn (o.expandDuals != 0) condensed record r := by
  subst hcs
  obtain ⟨r, hrun, hframe, hfields⟩ :=
    outcome_expand (o := o) ⟨record, region, work⟩ hc hr hrs.symm hm j
  have hkept : record.OnlyFields r := (expand_onlyFields hr hrun).1
  exact ⟨r, hrun, handsOn_of_getD hc hr hrs.symm hkept hframe.info_eq hfields⟩

/-! ## Other shapes -/

/-- Records of another shape are refused. -/
theorem refusesOthers (m : IdentityMemory) : RefusesOthers m where
  condense qp desk h _ j := by
    have hs : sameShape qp.shape desk.record.shape .condense = .error _ := if_pos h
    show outcome (condense qp m) desk j = _
    simp only [condense, outcome_bind, outcome_fetch, hs, outcome_check_error]
  expand condensed desk h o j := by
    have hs : sameShape condensed.shape desk.record.shape .expand = .error _ := if_pos h
    show outcome (expand condensed o m) desk j = _
    simp only [expand, outcome_bind, outcome_fetch, hs, outcome_check_error]
  copyFrom _ _ h := StageData.copyFrom_of_ne h

end Identity

/-- With memory laid out for a shape, condensing and expanding move every field of that
shape as it is and change nothing else, and records of different shapes are refused.
The map of stages holds their numbers in 32 bits, so it names them all up to a horizon
that fits. -/
theorem moves_exact {shapes : ShapePair} {so : IdentityOptions} {before : Words} {j : Journal}
    {m : IdentityMemory} {t : Noted Words}
    (h : outcome (identity.memoryAssign shapes so) before j = (.ok m, t)) :
    (m.stages t.value = .ok (List.range (shapes.condensed.horizon + 1)) ↔
      shapes.condensed.horizon < 2 ^ 32) ∧
    (shapes.condensed.horizon < 2 ^ 32 →
      Identity.MovesExactly m t.value shapes.condensed) ∧
    Identity.RefusesOthers m := by
  have hstages := Identity.stages_of_memoryAssign h
  have hiff : m.stages t.value = .ok (List.range (shapes.condensed.horizon + 1)) ↔
      shapes.condensed.horizon < 2 ^ 32 := by
    rw [hstages, Except.ok.injEq]
    exact Identity.map_toNat_ofNat_iff _
  refine ⟨hiff, fun hn => ?_, Identity.refusesOthers m⟩
  exact
    { condense := fun _ _ hq hr hqs hrs _ work j =>
        Identity.condense_copies (hiff.2 hn) hq hr hqs hrs work j
      expand := fun _ _ hc hr hcs hrs o work j =>
        Identity.expand_handsOn (hiff.2 hn) hc hr hcs hrs o work j }

/-- Over an empty stage and one with a state, on a region that was zero. -/
theorem moves_exact_lateState :
    ∃ (m : IdentityMemory) (t : Noted Words) (r : QpInput) (e : QpOutput),
      outcome (identity.memoryAssign ⟨.lateState, .lateState⟩ ⟨1, 1⟩)
        (.zeroed (Identity.memorySize ⟨.lateState, .lateState⟩)) {} = (.ok m, t) ∧
      m.stages t.value = .ok [0, 1] ∧
      outcome (identity.condense (.blank InputField .lateState) ⟨1, 1⟩ m)
        ⟨.blank InputField .lateState, t.value, #[]⟩ {} = (.ok (), ⟨⟨r, t.value, #[]⟩, {}⟩) ∧
      Identity.CopiesProgram (.blank InputField .lateState) (.blank InputField .lateState) r ∧
      outcome (identity.expand (.blank OutputField .lateState) ⟨1, 1⟩ m)
        ⟨.blank OutputField .lateState, t.value, #[]⟩ {} = (.ok (), ⟨⟨e, t.value, #[]⟩, {}⟩) ∧
      Identity.HandsOn true (.blank OutputField .lateState) (.blank OutputField .lateState) e := by
  have hsize : Words.byteSize (.zeroed (Identity.memorySize ⟨.lateState, .lateState⟩)) =
      Identity.memorySize ⟨.lateState, .lateState⟩ :=
    (Words.byteSize_zeroed _).trans (alignUp_alignUp _)
  obtain ⟨v, hv, -⟩ := Identity.outcome_memoryAssign hsize {}
  replace hv : outcome (identity.memoryAssign ⟨.lateState, .lateState⟩ ⟨1, 1⟩) _ _ = _ := hv
  obtain ⟨hstages, hmoves, -⟩ := moves_exact hv
  have hn : Shape.lateState.horizon < 2 ^ 32 := by decide
  have hq := StageData.valid_blank (Φ := InputField) .lateState
  have hs := StageData.valid_blank (Φ := OutputField) .lateState
  obtain ⟨r, hr, hcopies⟩ := (hmoves hn).condense _ _ hq hq rfl rfl ⟨1, 1⟩ #[] {}
  obtain ⟨e, he, hhands⟩ := (hmoves hn).expand _ _ hs hs rfl rfl ⟨1, 1⟩ #[] {}
  exact ⟨_, _, r, e, hv, hstages.2 hn, hr, hcopies, he, hhands⟩

end StageQp
