import StageQp.Proofs.Qp.Layout

/-!
# StageQp.Proofs.Qp.StageData

Reading and writing the fields of a record.  A valid record has the layout of its
shape and words enough for it; on it a field is read at every stage, and a write
of as many entries as the field has replaces just that field (`set?_replaces`).
Procedures that write the fields of a stage one by one are taken together by
`foldlM_fields`, and those that go through the stages by `foldlM_stages`.
-/

namespace StageQp

open StageFields (EntryOf)

namespace StageData

variable {Φ : Type}

/-- The records differ in the entries of fields only. -/
structure SameFrame (d e : StageData Φ) : Prop where
  layout : e.layout = d.layout
  size : e.words.size = d.words.size
  lead : d.layout.lead.part e.words = d.layout.lead.part d.words

namespace SameFrame

theorem refl (d : StageData Φ) : SameFrame d d := ⟨rfl, rfl, rfl⟩

theorem trans {d e f : StageData Φ} (h : SameFrame d e) (g : SameFrame e f) : SameFrame d f where
  layout := g.layout.trans h.layout
  size := g.size.trans h.size
  lead := by rw [← h.lead, ← h.layout, g.lead]

theorem shape {d e : StageData Φ} (h : SameFrame d e) : e.shape = d.shape := by
  rw [StageData.shape, h.layout, StageData.shape]

end SameFrame

variable [StageFields Φ]

/-- The layout is the one of the shape, and the words are enough for it. -/
structure Valid (d : StageData Φ) : Prop where
  layout_eq : d.layout = .ofShape Φ d.shape
  total_le : d.layout.total ≤ Words.byteSize d.words

/-- A valid record passes for one of its layout. -/
theorem Valid.ofWords_eq {d : StageData Φ} (h : d.Valid) : ofWords d.layout d.words = .ok d := by
  have hcheck : d.layout.check d.words = .ok () := if_neg (Nat.not_lt.2 h.total_le)
  rw [ofWords, hcheck]
  rfl

/-- The second record is the first with one field of one stage replaced. -/
structure Replaces (d : StageData Φ) (k : Nat) (field : Φ) (entries : Array (EntryOf field))
    (e : StageData Φ) : Prop extends SameFrame d e where
  self : e.getD k field = entries
  other (j : Nat) (g : Φ) (h : j ≠ k ∨ g ≠ field) : e.getD j g = d.getD j g

/-- A record is valid if its layout and its number of words are those of a valid one. -/
theorem SameFrame.valid {d e : StageData Φ} (h : SameFrame d e) (hv : d.Valid) : e.Valid where
  layout_eq := by rw [h.shape, h.layout, ← hv.layout_eq]
  total_le := by
    rw [h.layout, Words.byteSize, h.size]
    exact hv.total_le

/-- A block is found in the words that reach to its end. -/
theorem block?_eq_some_iff {d : StageData Φ} {k : Nat} {field : Φ} {b : Block} :
    d.block? k field = some b ↔
      d.layout.block? k field = some b ∧ b.pastWord ≤ d.words.size := by
  rw [block?, Option.filter_eq_some_iff, decide_eq_true_iff]

/-- Which blocks are found depends on how many words there are, not on what they hold. -/
theorem block?_congr {d e : StageData Φ} (hl : e.layout = d.layout)
    (hs : e.words.size = d.words.size) (k : Nat) (field : Φ) :
    e.block? k field = d.block? k field := by
  rw [block?, block?, hl, hs]

/-- Past the horizon there is no field. -/
theorem get?_of_horizon_lt {d : StageData Φ} {k : Nat} (h : d.shape.horizon < k) (field : Φ) :
    d.get? k field = none := by
  have hk : ¬k ≤ d.layout.shape.horizon := Nat.not_le.2 h
  simp [get?, block?, Layout.block?, hk]

/-- Past the last stage no field has entries. -/
theorem getD_of_horizon_lt {d : StageData Φ} {k : Nat} (h : d.shape.horizon < k) (field : Φ) :
    d.getD k field = #[] := by
  rw [getD, get?_of_horizon_lt h, Option.getD_none]

/-- A write that succeeds wrote as many entries as the block has. -/
theorem set?_eq_some {d e : StageData Φ} {k : Nat} {field : Φ} {entries : Array (EntryOf field)}
    (h : d.set? k field entries = some e) : ∃ b, d.block? k field = some b ∧
      entries.size = b.count (EntryOf field) ∧
      e = { d with words := b.setRecords d.words entries } := by
  obtain ⟨b, hb, h⟩ := Option.bind_eq_some_iff.1 h
  split at h
  · cases h
  · next hs =>
      cases h
      exact ⟨b, hb, Decidable.not_not.1 hs, rfl⟩

/-- A write changes no number of words. -/
theorem size_set? {d e : StageData Φ} {k : Nat} {field : Φ} {entries : Array (EntryOf field)}
    (h : d.set? k field entries = some e) : e.words.size = d.words.size := by
  obtain ⟨b, -, -, rfl⟩ := set?_eq_some h
  exact Block.size_setRecords ..

/-- A copy of a field is a write. -/
theorem set?_of_copyField? {d e other : StageData Φ} {k source : Nat} {field : Φ}
    (h : d.copyField? k other source field = some e) :
    ∃ entries, d.set? k field entries = some e := by
  obtain ⟨entries, -, h⟩ := Option.bind_eq_some_iff.1 h
  exact ⟨entries, h⟩

/-- Filling a field is a write. -/
theorem set?_of_fill? {d e : StageData Φ} {k : Nat} {field : Φ} {entry : EntryOf field}
    (h : d.fill? k field entry = some e) : ∃ entries, d.set? k field entries = some e := by
  obtain ⟨b, hb, h⟩ := Option.bind_eq_some_iff.1 h
  refine ⟨.replicate (b.count (EntryOf field)) entry, ?_⟩
  cases h
  simp [set?, hb]

/-! ## What no write breaks -/

/-- A property that a record still has after any write of a field. -/
structure WriteKeeps (P : StageData Φ → Prop) : Prop where
  set? {d e : StageData Φ} {k : Nat} {field : Φ} {entries : Array (EntryOf field)} (hd : P d)
    (h : d.set? k field entries = some e) : P e

omit [StageFields Φ] in
/-- What no step breaks, a run of steps does not. -/
theorem keeps_foldlM {P : StageData Φ → Prop} {α : Type}
    {f : StageData Φ → α → Option (StageData Φ)} (hf : ∀ r a e, P r → f r a = some e → P e)
    {as : List α} {d e : StageData Φ} (hd : P d) (h : as.foldlM f d = some e) : P e := by
  induction as generalizing d with
  | nil =>
      cases h
      exact hd
  | cons a as ih =>
      rw [List.foldlM_cons] at h
      obtain ⟨r, hr, h⟩ := Option.bind_eq_some_iff.1 h
      exact ih (hf d a r hd hr) h

namespace WriteKeeps

variable {P : StageData Φ → Prop} {d e other : StageData Φ} {k source : Nat} {field : Φ}

theorem copyField? (hP : WriteKeeps P) (hd : P d)
    (h : d.copyField? k other source field = some e) : P e := by
  obtain ⟨entries, h⟩ := set?_of_copyField? h
  exact hP.set? hd h

theorem fill? (hP : WriteKeeps P) {entry : EntryOf field} (hd : P d)
    (h : d.fill? k field entry = some e) : P e := by
  obtain ⟨entries, h⟩ := set?_of_fill? h
  exact hP.set? hd h

end WriteKeeps

theorem writeKeeps_size (size : Nat) : WriteKeeps fun d : StageData Φ => d.words.size = size :=
  ⟨fun hd h => (size_set? h).trans hd⟩

/-! ## Valid records -/

namespace Valid

variable {d : StageData Φ} {k : Nat}

/-- The lead fits in front of the stages. -/
theorem lead_fits (hv : d.Valid) : d.layout.lead.Fits d.words := by
  have ht := (Layout.tiles_ofShape (Φ := Φ) d.shape).spaced
  rw [← hv.layout_eq] at ht
  exact ⟨ht.2.1, Nat.le_trans ht.2.2.le hv.total_le⟩

/-- No field shares bytes with the lead. -/
theorem lead_apart (hv : d.Valid) {field : Φ} {b : Block}
    (hb : d.layout.block? k field = some b) : d.layout.lead.Apart b := by
  rw [hv.layout_eq] at hb ⊢
  exact .inl (Layout.bounds_of_block? hb).1

variable [LawfulStageFields Φ]

/-- The block of a field fits, and is of the bytes that the field asks for. -/
theorem of_block? (hv : d.Valid) {field : Φ} {b : Block}
    (hb : d.layout.block? k field = some b) :
    b.Fits d.words ∧ b.len = StageFields.bytes d.shape k field := by
  have hk : k ≤ d.shape.horizon := (Layout.block?_eq_some hb).1
  obtain ⟨c, hc, hlen⟩ := Layout.block?_ofShape (Φ := Φ) d.shape hk field
  rw [← hv.layout_eq, hb] at hc
  obtain rfl := Option.some.inj hc
  rw [hv.layout_eq] at hb
  have hin := Layout.bounds_of_block? hb
  rw [← hv.layout_eq] at hin
  exact ⟨⟨hin.2.1, Nat.le_trans hin.2.2 hv.total_le⟩, hlen⟩

/-- On a valid record every block of the layout is found. -/
theorem block?_eq (hv : d.Valid) (k : Nat) (field : Φ) :
    d.block? k field = d.layout.block? k field := by
  refine Option.ext fun b => ?_
  rw [block?_eq_some_iff, and_iff_left_iff_imp]
  intro hb
  obtain ⟨hf, -⟩ := hv.of_block? hb
  rw [Block.pastWord_eq hf.1]
  exact hf.words_le

/-- A field is what its block holds. -/
theorem getD_eq_of_block? (hv : d.Valid) {field : Φ} {b : Block}
    (h : d.layout.block? k field = some b) :
    d.getD k field = b.records (EntryOf field) d.words := by
  rw [← hv.block?_eq] at h
  simp [getD, get?, h]

/-- The block of a field at a stage. -/
theorem block (hv : d.Valid) (hk : k ≤ d.shape.horizon) (field : Φ) :
    ∃ b, d.layout.block? k field = some b ∧ b.Fits d.words ∧
      b.count (EntryOf field) = StageFields.count d.shape k field := by
  obtain ⟨b, hb, -⟩ := Layout.block?_ofShape (Φ := Φ) d.shape hk field
  rw [← hv.layout_eq] at hb
  obtain ⟨hf, hlen⟩ := hv.of_block? hb
  refine ⟨b, hb, hf, ?_⟩
  rw [Block.count, hlen, StageFields.bytes]
  exact Nat.mul_div_cancel _ (EntryKind.bytes_pos _)

/-- A field is there at every stage, with the entries it is said to have. -/
theorem get?_eq (hv : d.Valid) (hk : k ≤ d.shape.horizon) (field : Φ) :
    d.get? k field = some (d.getD k field) := by
  obtain ⟨b, hb, -⟩ := hv.block hk field
  rw [hv.getD_eq_of_block? hb, get?, hv.block?_eq, hb, Option.map_some]

/-- A field has as many entries as its count. -/
theorem size_getD (hv : d.Valid) (hk : k ≤ d.shape.horizon) (field : Φ) :
    (d.getD k field).size = StageFields.count d.shape k field := by
  obtain ⟨b, hb, -, hc⟩ := hv.block hk field
  rw [hv.getD_eq_of_block? hb, Block.size_records, hc]

end Valid

variable [LawfulStageFields Φ]

/-- The record of a shape with all words zero. -/
def blank (Φ : Type) [StageFields Φ] (shape : Shape) : StageData Φ :=
  ⟨.ofShape Φ shape, .zeroed (StageFields.size Φ shape)⟩

theorem valid_blank (shape : Shape) : (blank Φ shape).Valid where
  layout_eq := rfl
  total_le := by
    show (Layout.ofShape Φ shape).total ≤ _
    rw [Layout.total_eq_size]
    exact Nat.le_trans (le_alignUp _) (Nat.le_of_eq (Words.byteSize_zeroed _).symm)

omit [LawfulStageFields Φ] in
/-- Entries of zeroed words are zero. -/
theorem get_zeroed (kind : EntryKind) (bytes i : Nat) :
    (Record.get (.zeroed bytes) i : kind.Entry) = kind.zero := by
  have hword (k : Nat) : (Words.zeroed bytes).getD k 0 = 0 := by
    simp only [Words.zeroed, Words.filled, Array.getD_eq_getD_getElem?, Array.getElem?_replicate]
    split <;> rfl
  cases kind with
  | double => exact congrArg Binary64.mk (hword i)
  | index =>
      show (if i % 2 = 0 then Record.lowHalf ((Words.zeroed bytes).getD (i / 2) 0)
        else Record.highHalf ((Words.zeroed bytes).getD (i / 2) 0)) = 0
      rw [hword]
      split <;> rfl

/-- In zero words every entry of every field is zero. -/
theorem getD_zeroed {d : StageData Φ} (hv : d.Valid) {bytes : Nat} (hw : d.words = .zeroed bytes)
    {k : Nat} (hk : k ≤ d.shape.horizon) (field : Φ) : d.getD k field =
      .replicate (StageFields.count d.shape k field) (StageFields.kind field).zero := by
  obtain ⟨b, hb, hf, hc⟩ := hv.block hk field
  rw [hw] at hf
  rw [hv.getD_eq_of_block? hb, Block.records, hc, hw, Block.part_zeroed hf]
  apply Array.ext
  · simp [Record.getAll]
  · intro i h1 h2
    simp [Record.getAll, get_zeroed]

/-! ## Writing one field -/

/-- Whatever was written to a field, the frame is as before. -/
theorem Valid.sameFrame_set? {d e : StageData Φ} (hv : d.Valid) {k : Nat} {field : Φ}
    {entries : Array (EntryOf field)} (h : d.set? k field entries = some e) : d.SameFrame e := by
  obtain ⟨b, hb, -, rfl⟩ := set?_eq_some h
  rw [hv.block?_eq] at hb
  exact ⟨rfl, Block.size_setRecords .., Block.part_setRecords_of_apart (hv.of_block? hb).1
    hv.lead_fits (hv.lead_apart hb).symm entries⟩

/-- Writing as many entries as a field has replaces this field and nothing else. -/
theorem set?_replaces {d : StageData Φ} (hv : d.Valid) {k : Nat} (hk : k ≤ d.shape.horizon)
    {field : Φ} (entries : Array (EntryOf field))
    (hs : entries.size = StageFields.count d.shape k field) :
    ∃ e, d.set? k field entries = some e ∧ d.Replaces k field entries e := by
  obtain ⟨b, hb, hf, hc⟩ := hv.block hk field
  rw [← hc] at hs
  let e : StageData Φ := ⟨d.layout, b.setRecords d.words entries⟩
  have he : d.set? k field entries = some e := by simp [set?, hv.block?_eq, hb, hs, e]
  have hev : e.Valid := (hv.sameFrame_set? he).valid hv
  refine ⟨e, he, { hv.sameFrame_set? he with self := ?_, other := ?_ }⟩
  · rw [hev.getD_eq_of_block? hb, Block.records_setRecords hf hs]
  · intro j g hne
    rcases Nat.lt_or_ge d.shape.horizon j with hj | hj
    · rw [getD_of_horizon_lt hj, getD_of_horizon_lt (d := e) hj]
    · obtain ⟨c, hcb, hcf, -⟩ := hv.block hj g
      have hap : b.Apart c := by
        rw [hv.layout_eq] at hb hcb
        exact Layout.apart_of_block? hb hcb (hne.imp Ne.symm Ne.symm)
      rw [hev.getD_eq_of_block? hcb, hv.getD_eq_of_block? hcb, Block.records, Block.records,
        Block.part_setRecords_of_apart hf hcf hap]

/-- A write that succeeds has replaced its field and nothing else. -/
theorem Valid.replaces_of_set? {d e : StageData Φ} (hv : d.Valid) {k : Nat} {field : Φ}
    {entries : Array (EntryOf field)} (h : d.set? k field entries = some e) :
    d.Replaces k field entries e := by
  obtain ⟨b, hb, hs, -⟩ := set?_eq_some h
  rw [hv.block?_eq] at hb
  have hk := (Layout.block?_eq_some hb).1
  obtain ⟨c, hc, -, hcount⟩ := hv.block hk field
  obtain rfl := Option.some.inj (hb.symm.trans hc)
  obtain ⟨r, hr, hrep⟩ := set?_replaces hv hk entries (hs.trans hcount)
  obtain rfl := Option.some.inj (h.symm.trans hr)
  exact hrep

/-- Filling a field is writing as many times the one entry. -/
theorem fill?_eq_set? {d : StageData Φ} (hv : d.Valid) {k : Nat} (hk : k ≤ d.shape.horizon)
    (field : Φ) (entry : EntryOf field) : d.fill? k field entry =
      d.set? k field (.replicate (StageFields.count d.shape k field) entry) := by
  obtain ⟨b, hb, -, hc⟩ := hv.block hk field
  simp [fill?, set?, hv.block?_eq, hb, hc]

/-- Copying a field from another record is writing what is there. -/
theorem copyField?_eq_set? {other : StageData Φ} (ho : other.Valid) {source : Nat}
    (hs : source ≤ other.shape.horizon) (d : StageData Φ) (k : Nat) (field : Φ) :
    d.copyField? k other source field = d.set? k field (other.getD source field) := by
  simp [copyField?, ho.get?_eq hs]

/-! ## Writing field by field -/

/-- A procedure that writes one field of a stage after the other has in the end
written these fields and left the others alone. -/
theorem foldlM_fields {d : StageData Φ} (hv : d.Valid) {k : Nat} (hk : k ≤ d.shape.horizon)
    (step : StageData Φ → Φ → Option (StageData Φ))
    (target : (field : Φ) → Array (EntryOf field)) (fields : List Φ)
    (hstep : ∀ r f, d.SameFrame r → r.Valid → step r f = r.set? k f (target f))
    (hsize : ∀ f ∈ fields, (target f).size = StageFields.count d.shape k f) :
    ∃ e, fields.foldlM step d = some e ∧ d.SameFrame e ∧
      (∀ g ∈ fields, e.getD k g = target g) ∧
      ∀ j g, (j ≠ k ∨ g ∉ fields) → e.getD j g = d.getD j g := by
  induction fields generalizing d with
  | nil => exact ⟨d, rfl, .refl d, by simp, fun _ _ _ => rfl⟩
  | cons f fs ih =>
      obtain ⟨r, hr, hrep⟩ := set?_replaces hv hk (target f) (hsize f (List.mem_cons_self ..))
      have hframe := hrep.toSameFrame
      obtain ⟨e, he, hre, hdone, hkept⟩ := ih (hframe.valid hv) (by rwa [hframe.shape])
        (fun r' g hr' => hstep r' g (hframe.trans hr'))
        (fun g hg => by rw [hframe.shape, hsize g (List.mem_cons_of_mem _ hg)])
      refine ⟨e, ?_, hframe.trans hre, ?_, ?_⟩
      · rw [List.foldlM_cons, hstep d f (.refl d) hv, hr]
        exact he
      · intro g hg
        by_cases hgs : g ∈ fs
        · exact hdone g hgs
        · obtain rfl : g = f := (List.mem_cons.1 hg).resolve_right hgs
          rw [hkept k g (.inr hgs), hrep.self]
      · intro j g hj
        rw [hkept j g (hj.imp_right fun h hg => h (List.mem_cons_of_mem _ hg)),
          hrep.other j g (hj.imp_right fun h hgf => h (hgf ▸ List.mem_cons_self ..))]

/-! ## Writing stage by stage -/

omit [LawfulStageFields Φ] in
/-- A procedure that writes one stage after the other has in the end written
every stage, if each step writes its own stage and leaves the others alone. -/
theorem foldlM_stages {d : StageData Φ} (hv : d.Valid)
    (step : StageData Φ → Nat → Option (StageData Φ))
    (target : Nat → (field : Φ) → Array (EntryOf field)) {n : Nat} (hn : n ≤ d.shape.horizon + 1)
    (hstep : ∀ r k, k < n → d.SameFrame r → r.Valid →
      (∀ g, r.getD k g = d.getD k g) →
      ∃ e, step r k = some e ∧ r.SameFrame e ∧ (∀ g, e.getD k g = target k g) ∧
        ∀ j g, j ≠ k → e.getD j g = r.getD j g) :
    ∃ e, (List.range n).foldlM step d = some e ∧ d.SameFrame e ∧
      (∀ j g, j < n → e.getD j g = target j g) ∧ ∀ j g, n ≤ j → e.getD j g = d.getD j g := by
  induction n with
  | zero => exact ⟨d, rfl, .refl d, fun j g h => absurd h (Nat.not_lt_zero j), fun _ _ _ => rfl⟩
  | succ n ih =>
      obtain ⟨r, hr, hframe, hdone, hrest⟩ := ih (by omega) fun r k hk => hstep r k (by omega)
      obtain ⟨e, he, hre, hself, hother⟩ :=
        hstep r n (Nat.lt_succ_self n) hframe (hframe.valid hv) fun g => hrest n g (Nat.le_refl n)
      refine ⟨e, by simp [List.range_succ, List.foldlM_append, hr, he], hframe.trans hre, ?_, ?_⟩
      · intro j g hj
        rcases Nat.lt_or_ge j n with hlt | hge
        · rw [hother j g (by omega), hdone j g hlt]
        · obtain rfl : j = n := by omega
          exact hself g
      · intro j g hj
        rw [hother j g (by omega), hrest j g (by omega)]

/-! ## The account of a solve, and clearing a solution -/

instance : LawfulRecord SolveInfo :=
  Record.lawful_ofWords (fun _ => rfl)
    (fun f g h => by simp [SolveInfo.ofWords, h 0, h 1, h 2, h 3, h 4, h 5]) (fun _ => rfl)

section Output

variable {d : QpOutput}

theorem Valid.setInfo (hv : d.Valid) (info : SolveInfo) : (d.setInfo info).Valid where
  layout_eq := hv.layout_eq
  total_le := by
    rw [StageData.setInfo, Block.byteSize_setRecords]
    exact hv.total_le

/-- Setting the account leaves the fields. -/
theorem setInfo_sameFields (hv : d.Valid) (info : SolveInfo) (k : Nat) (field : OutputField) :
    (d.setInfo info).getD k field = d.getD k field := by
  rcases Nat.lt_or_ge d.shape.horizon k with hk | hk
  · rw [getD_of_horizon_lt hk, getD_of_horizon_lt (d := d.setInfo info) hk]
  · obtain ⟨b, hb, hf, -⟩ := hv.block hk field
    rw [(hv.setInfo info).getD_eq_of_block? hb, hv.getD_eq_of_block? hb, Block.records,
      Block.records]
    exact congrArg (Record.getAll _ · _)
      (Block.part_setRecords_of_apart hv.lead_fits hf (hv.lead_apart hb) _)

/-- The account does not depend on the fields. -/
theorem SameFrame.info_eq {e : QpOutput} (h : SameFrame d e) : e.info = d.info := by
  rw [info, info, h.layout, h.lead]

/-- An account that is set is read back. -/
theorem info_setInfo (hv : d.Valid) (info : SolveInfo) : (d.setInfo info).info = info := by
  have hs : Record.bytes SolveInfo ≤ d.layout.lead.span := by
    rw [hv.layout_eq]
    show 8 * 6 ≤ alignUp (8 * 6)
    decide
  exact Block.get_setRecords_singleton hv.lead_fits hs info

/-- A cleared record is valid. -/
theorem Valid.clear (hv : d.Valid) : d.clear.Valid where
  layout_eq := hv.layout_eq
  total_le := by
    rw [StageData.clear, Words.byteSize_paste]
    exact hv.total_le

/-- After clearing, every entry of every field is zero. -/
theorem getD_clear (hv : d.Valid) {k : Nat} (hk : k ≤ d.shape.horizon) (field : OutputField) :
    d.clear.getD k field = .replicate (OutputField.count d.shape k field) (⟨0⟩ : Binary64) := by
  obtain ⟨b, hb, hf, hc⟩ := hv.block hk field
  have hin := hb
  rw [hv.layout_eq] at hin
  have hbounds := Layout.bounds_of_block? hin
  rw [← hv.layout_eq] at hbounds
  have hcount : b.count Binary64 = OutputField.count d.shape k field := hc
  have hw := hf.words_le
  rw [hv.clear.getD_eq_of_block? hb]
  apply Array.ext
  · rw [Block.size_records, Array.size_replicate]
    exact hc
  · intro i h1 h2
    have hi : i < b.span / 8 := by
      have hle : b.count Binary64 * 8 ≤ b.span := b.count_mul_bytes_le (α := Binary64)
      rw [Array.size_replicate, ← hcount] at h2
      omega
    -- The word of the entry lies behind the lead and before the end of the record.
    have hword : (b.part d.clear.words)[i]? = some 0 := by
      have hl := Block.span_mod d.layout.lead
      have hlo : d.layout.lead.offset % 8 = 0 := hv.lead_fits.1
      have hbs := b.span_mod
      rw [Block.getElem?_part (hf.congr (by simp [StageData.clear])) hi, StageData.clear,
        Words.getElem?_paste _ _ _ _ (by omega), if_pos]
      · rw [Array.getElem?_replicate, if_pos]
        simp only [Block.firstWord, Block.pastWord, Block.stop] at *
        omega
      · simp only [Block.firstWord, Block.pastWord, Block.stop, Array.size_replicate] at *
        omega
    have hget : Record.get (b.part d.clear.words) i = (⟨0⟩ : Binary64) := by
      show Binary64.mk ((b.part d.clear.words).getD i 0) = ⟨0⟩
      rw [Array.getD_eq_getD_getElem?, hword, Option.getD_some]
    rw [Array.getElem_replicate]
    simpa [Block.records, Record.getAll] using hget

end Output

end StageData

end StageQp
