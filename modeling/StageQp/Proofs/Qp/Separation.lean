import StageQp.Proofs.Qp.StageData
import StageQp.Proofs.Qp.Wrapping
import StageQp.Proofs.Storage.Halves

/-!
# StageQp.Proofs.Qp.Separation

The fields of a record do not interfere.  A write of a field is read back there and
nowhere else, and changes no half word but those of the field's own block
(`StageData.set?_rewrites`); so do writes of the account, and clearing a solution
changes its fields only.

The layout that is made for a shape with addressable records gives such a record on
all words that are enough for it, and on no others (`fields_separate`).  Where the
size of a record wraps, fields have fewer entries than the shape asks for
(`wide_stage_loses_entries`).
-/

namespace StageQp

open StageFields (EntryOf)

instance : LocalRecord SolveInfo where
  half_set := Record.half_set_ofWords fun _ => rfl

/-- The half word is one of some field's. -/
def Layout.HoldsHalf {Φ : Type} [StageFields Φ] (l : Layout Φ) (i : Nat) : Prop :=
  ∃ k field b, l.block? k field = some b ∧ b.HasHalf i

namespace StageData

variable {Φ : Type} [StageFields Φ]

/-- The second record differs from the first in half words of fields only. -/
structure OnlyFields (d e : StageData Φ) : Prop where
  layout_eq : e.layout = d.layout
  halves : Words.ChangesOnly d.layout.HoldsHalf d.words e.words

/-- The second record is the first with one field of one stage replaced: the field
reads as it was written, every other one as before, and only half words of the field's
block are others. -/
structure Rewrites (d : StageData Φ) (k : Nat) (field : Φ) (entries : Array (EntryOf field))
    (e : StageData Φ) : Prop where
  layout_eq : e.layout = d.layout
  self : e.get? k field = some entries
  other (j : Nat) (g : Φ) (h : j ≠ k ∨ g ≠ field) : e.get? j g = d.get? j g
  halves : ∃ b, d.layout.block? k field = some b ∧ b.len = StageFields.bytes d.shape k field ∧
    Words.ChangesOnly b.HasHalf d.words e.words

/-- Every field of every stage has its bytes inside the words, is read with the entries it
is said to have, and written without any other noticing. -/
structure Fieldwise (d : StageData Φ) : Prop where
  located (k : Nat) (hk : k ≤ d.shape.horizon) (field : Φ) :
    ∃ b, d.block? k field = some b ∧ b.Fits d.words ∧
      b.len = StageFields.bytes d.shape k field
  read (k : Nat) (hk : k ≤ d.shape.horizon) (field : Φ) :
    ∃ entries, d.get? k field = some entries ∧
      entries.size = StageFields.count d.shape k field
  write (k : Nat) (hk : k ≤ d.shape.horizon) (field : Φ) (entries : Array (EntryOf field))
    (hs : entries.size = StageFields.count d.shape k field) :
    ∃ e, d.set? k field entries = some e ∧ d.Rewrites k field entries e

/-- The second solution is the first with its account replaced. -/
structure Reaccounts (d : QpOutput) (info : SolveInfo) (e : QpOutput) : Prop where
  layout_eq : e.layout = d.layout
  self : e.info = info
  fields (k : Nat) (field : OutputField) : e.get? k field = d.get? k field
  halves : Words.ChangesOnly d.layout.lead.HasHalf d.words e.words

/-- The second solution is the first with all fields zero, and with its account. -/
structure Blanks (d e : QpOutput) : Prop where
  layout_eq : e.layout = d.layout
  info_eq : e.info = d.info
  fields (k : Nat) (hk : k ≤ d.shape.horizon) (field : OutputField) :
    e.get? k field = some (.replicate (OutputField.count d.shape k field) (⟨0⟩ : Binary64))
  halves : Words.ChangesOnly
    (fun i => d.layout.lead.stop ≤ 4 * i ∧ 4 * i < d.layout.total) d.words e.words

/-- The account is read, and written without a field noticing; no write of a field and no
clearing changes it. -/
structure Accounted (d : QpOutput) : Prop where
  lead_len : d.layout.lead.len = Record.bytes SolveInfo
  read : Record.read SolveInfo (d.layout.lead.part d.words) = .ok d.info
  write (info : SolveInfo) : d.Reaccounts info (d.setInfo info)
  keep (k : Nat) (field : OutputField) (entries : Array (EntryOf field)) (e : QpOutput)
    (h : d.set? k field entries = some e) : e.info = d.info
  clear : d.Blanks d.clear

/-! ## Fields -/

variable [LawfulStageFields Φ] {d e : StageData Φ}

/-- Records of one layout have the same field if it has the same entries. -/
theorem Valid.get?_congr (hd : d.Valid) (he : e.Valid) (hs : e.shape = d.shape) {k : Nat}
    {field : Φ} (h : e.getD k field = d.getD k field) : e.get? k field = d.get? k field := by
  rcases Nat.lt_or_ge d.shape.horizon k with hk | hk
  · rw [get?_of_horizon_lt hk, get?_of_horizon_lt (by rwa [hs])]
  · rw [hd.get?_eq hk, he.get?_eq (by rwa [hs]), h]

/-- A write of a field changes its block's own half words and nothing else. -/
theorem Valid.changesOnly_set? (hv : d.Valid) {k : Nat} {field : Φ}
    {entries : Array (EntryOf field)} (h : d.set? k field entries = some e) :
    ∃ b, d.layout.block? k field = some b ∧ b.len = StageFields.bytes d.shape k field ∧
      Words.ChangesOnly b.HasHalf d.words e.words := by
  obtain ⟨b, hb, hs, rfl⟩ := set?_eq_some h
  rw [hv.block?_eq] at hb
  obtain ⟨hf, hlen⟩ := hv.of_block? hb
  exact ⟨b, hb, hlen, Block.changesOnly_setRecords hf hs⟩

/-- A field makes out the half words of its block. -/
theorem Valid.half_eq_of_getD (hd : d.Valid) (he : e.Valid) (hl : e.layout = d.layout) {k : Nat}
    {field : Φ} (h : e.getD k field = d.getD k field) {b : Block}
    (hb : d.layout.block? k field = some b) {i : Nat} (hi : b.HasHalf i) :
    e.words.half i = d.words.half i := by
  have hbe : e.layout.block? k field = some b := by rwa [hl]
  obtain ⟨hf, hlen⟩ := hd.of_block? hb
  rw [hd.getD_eq_of_block? hb, he.getD_eq_of_block? hbe] at h
  replace h : b.records (StageFields.kind field).Entry e.words = b.records _ d.words := h
  refine Block.half_eq_of_records hf (he.of_block? hbe).1 ?_ h hi
  rw [Block.count, hlen, StageFields.bytes, Nat.mul_div_cancel _ (EntryKind.bytes_pos _)]

namespace OnlyFields

omit [LawfulStageFields Φ] in
theorem refl (d : StageData Φ) : OnlyFields d d := ⟨rfl, .refl _ _⟩

omit [LawfulStageFields Φ] in
theorem shape_eq (h : OnlyFields d e) : e.shape = d.shape := by
  rw [shape, shape, h.layout_eq]

omit [LawfulStageFields Φ] in
theorem symm (h : OnlyFields d e) : OnlyFields e d :=
  ⟨h.layout_eq.symm, by rw [h.layout_eq]; exact h.halves.symm⟩

omit [LawfulStageFields Φ] in
theorem trans {f : StageData Φ} (h : OnlyFields d e) (g : OnlyFields e f) : OnlyFields d f :=
  ⟨g.layout_eq.trans h.layout_eq, h.halves.trans (by rw [← h.layout_eq]; exact g.halves)⟩

omit [LawfulStageFields Φ] in
/-- A valid record stays valid if fields change only. -/
theorem valid (h : OnlyFields d e) (hv : d.Valid) : e.Valid where
  layout_eq := by rw [h.shape_eq, h.layout_eq, ← hv.layout_eq]
  total_le := by
    rw [h.layout_eq, Words.byteSize, h.halves.size_eq]
    exact hv.total_le

omit [LawfulStageFields Φ] in
/-- Behind the fields nothing changes. -/
theorem half_eq_of_total_le (h : OnlyFields d e) (hv : d.Valid) {i : Nat}
    (hi : d.layout.total ≤ 4 * i) : e.words.half i = d.words.half i := by
  refine h.halves.half_eq i ?_
  rintro ⟨k, field, b, hb, -, hhi⟩
  rw [hv.layout_eq] at hb hi
  have hstop := (Layout.bounds_of_block? hb).2.2
  have hspan : b.len ≤ b.span := le_alignUp _
  unfold Block.stop at hstop
  omega

end OnlyFields

/-- Records with the same entries in all fields are the same if they differ in fields only. -/
theorem OnlyFields.eq_of_getD (h : OnlyFields d e) (hv : d.Valid)
    (hfields : ∀ k field, e.getD k field = d.getD k field) : e = d := by
  have hhalf (i : Nat) : e.words.half i = d.words.half i := by
    by_cases hi : d.layout.HoldsHalf i
    · obtain ⟨k, field, b, hb, hin⟩ := hi
      exact hv.half_eq_of_getD (h.valid hv) h.layout_eq (hfields k field) hb hin
    · exact h.halves.half_eq i hi
  have hall : Words.ChangesOnly (fun _ => False) d.words e.words :=
    ⟨h.halves.size_eq, fun i _ => hhalf i⟩
  have hwords : e.words = d.words := Array.ext_getElem? fun i =>
    (hall.agreeOn (Q := fun _ => True) (by simp)).getElem?_eq i trivial
  obtain ⟨layout, words⟩ := d
  obtain ⟨layout', words'⟩ := e
  obtain rfl : layout' = layout := h.layout_eq
  obtain rfl : words' = words := hwords
  rfl

/-- Every write of a field is a change in fields only. -/
theorem writeKeeps_onlyFields (hv : d.Valid) : WriteKeeps d.OnlyFields where
  set? {r s k field entries} hr h := by
    obtain ⟨b, hb, -, hs⟩ := (hr.valid hv).changesOnly_set? h
    have hl : s.layout = r.layout := ((hr.valid hv).sameFrame_set? h).layout
    rw [hr.layout_eq] at hb
    exact ⟨hl.trans hr.layout_eq, hr.halves.trans (hs.mono fun i hi => ⟨k, field, b, hb, hi⟩)⟩

/-- A field is rewritten with as many entries as it has. -/
theorem set?_rewrites (hv : d.Valid) {k : Nat} (hk : k ≤ d.shape.horizon) {field : Φ}
    {entries : Array (EntryOf field)} (hs : entries.size = StageFields.count d.shape k field) :
    ∃ e, d.set? k field entries = some e ∧ d.Rewrites k field entries e := by
  obtain ⟨e, he, hrep⟩ := set?_replaces hv hk entries hs
  have hev := hrep.toSameFrame.valid hv
  have hes := hrep.toSameFrame.shape
  refine ⟨e, he, hrep.layout, ?_, fun j g hne => ?_, hv.changesOnly_set? he⟩
  · rw [hev.get?_eq (by rwa [hes]), hrep.self]
  · exact hv.get?_congr hev hes (hrep.other j g hne)

/-- A write that succeeds had as many entries as the field has. -/
theorem Valid.rewrites_of_set? (hv : d.Valid) {k : Nat} {field : Φ}
    {entries : Array (EntryOf field)} (h : d.set? k field entries = some e) :
    d.Rewrites k field entries e := by
  obtain ⟨b, hb, hs, -⟩ := set?_eq_some h
  rw [hv.block?_eq] at hb
  have hk : k ≤ d.shape.horizon := (Layout.block?_eq_some hb).1
  obtain ⟨c, hc, -, hcount⟩ := hv.block hk field
  obtain rfl : c = b := Option.some.inj (hc.symm.trans hb)
  obtain ⟨e', he, hrewrites⟩ := set?_rewrites hv hk (hs.trans hcount)
  rw [h] at he
  cases he
  exact hrewrites

/-- Valid records are read and written field by field. -/
theorem Valid.fieldwise (hv : d.Valid) : d.Fieldwise where
  located k hk field := by
    obtain ⟨b, hb, -⟩ := hv.block hk field
    exact ⟨b, (hv.block?_eq k field).trans hb, hv.of_block? hb⟩
  read _ hk field := ⟨_, hv.get?_eq hk field, hv.size_getD hk field⟩
  write _ hk _ _ hs := set?_rewrites hv hk hs

/-! ## The account -/

section Output

variable {d : QpOutput}

theorem Valid.lead_len (hv : d.Valid) : d.layout.lead.len = Record.bytes SolveInfo := by
  rw [hv.layout_eq]
  rfl

/-- Setting the account changes nothing else. -/
theorem Valid.setInfo_reaccounts (hv : d.Valid) (info : SolveInfo) :
    d.Reaccounts info (d.setInfo info) where
  layout_eq := rfl
  self := info_setInfo hv info
  fields _ _ := hv.get?_congr (hv.setInfo info) rfl (setInfo_sameFields hv info _ _)
  halves := Block.changesOnly_setRecords hv.lead_fits (by
    rw [Block.count, hv.lead_len]
    rfl)

/-- Clearing writes from the end of the lead up to the end of the record. -/
theorem agreeOn_clear (d : QpOutput) :
    Words.AgreeOn (fun i => i < d.layout.lead.pastWord ∨ d.layout.total / 8 ≤ i)
      d.words d.clear.words where
  size_eq := Words.size_paste ..
  getElem?_eq i hi := by
    refine Words.getElem?_paste_of_outside _ _ _ _ ?_
    rw [Array.size_replicate]
    omega

/-- Clearing leaves the account. -/
theorem info_clear (d : QpOutput) : d.clear.info = d.info := by
  have hlead : d.layout.lead.part d.clear.words = d.layout.lead.part d.words :=
    (agreeOn_clear d).part_eq fun i _ hi => .inl hi
  exact congrArg (fun w => (Record.get w 0 : SolveInfo)) hlead

/-- Clearing makes all fields zero and changes nothing else. -/
theorem Valid.clear_blanks (hv : d.Valid) : d.Blanks d.clear where
  layout_eq := rfl
  info_eq := info_clear d
  fields _ hk field := by
    rw [hv.clear.get?_eq hk, getD_clear hv hk]
  halves := by
    have hstop := Block.stop_mod hv.lead_fits.1
    refine .of_agreeOn (agreeOn_clear d) fun i hi => ?_
    unfold Block.pastWord
    omega

/-- A valid solution has its account. -/
theorem Valid.accounted (hv : d.Valid) : d.Accounted where
  lead_len := hv.lead_len
  read := by
    have hc : Record.check SolveInfo (d.layout.lead.part d.words) 1 = .ok () := by
      rw [Record.check_eq_ok_iff, Block.byteSize_part hv.lead_fits, Block.span, hv.lead_len,
        Nat.one_mul]
      exact le_alignUp _
    rw [Record.read, hc]
    rfl
  write info := hv.setInfo_reaccounts info
  keep k field entries e h := by
    exact (hv.sameFrame_set? h).info_eq
  clear := hv.clear_blanks

end Output

/-- The layout that is made for a shape takes the words that are enough for it, as
records with the property, and refuses all others with both sizes. -/
def Opens (Φ : Type) [StageFields Φ] [WrappingFields Φ] (shape : Shape)
    (P : StageData Φ → Prop) : Prop :=
  ∃ l : Layout Φ, l.shape = shape ∧ l.total = StageFields.size Φ shape ∧
    (∀ {σ : Type} (value : σ) j,
      Procedure.outcome (Layout.assignWrapping Φ shape) value j = (.ok l, ⟨value, j⟩)) ∧
    ∀ words, if Words.byteSize words < l.total then
        ofWords l words = .error (.bufferSize (Words.byteSize words) l.total)
      else ofWords l words = .ok ⟨l, words⟩ ∧ P ⟨l, words⟩

/-- What holds of valid records holds of those over an addressable shape. -/
theorem opens_of_valid [WrappingFields Φ] [LawfulWrappingFields Φ] {P : StageData Φ → Prop}
    {shape : Shape} (ha : Layout.Addressable Φ shape) (h : ∀ d : StageData Φ, d.Valid → P d) :
    Opens Φ shape P := by
  refine ⟨.ofShape Φ shape, rfl, Layout.total_eq_size shape, fun value j => ?_, fun words => ?_⟩
  · rw [Layout.outcome_assignWrapping, Layout.ofShapeWrapping_of_addressable ha]
  · split
    · next hlt =>
        rw [ofWords, Layout.check, if_pos hlt]
        rfl
    · next hle =>
        refine ⟨?_, h _ ⟨rfl, Nat.not_lt.1 hle⟩⟩
        rw [ofWords, Layout.check, if_neg hle]
        rfl

end StageData

/-- For every shape, the records of a program and of its solution are read and written
field by field, on all words that are enough for them, if their sizes are machine words:
a field has its place in the words and its entries, one that is written reads as it was
written, every other field and the account read as before, and no half word outside the
block changes.  Clearing a solution makes its fields zero and leaves the account and the
words past the record as they are. -/
theorem fields_separate (shape : Shape) :
    (Layout.Addressable InputField shape →
      StageData.Opens InputField shape fun d => d.Fieldwise) ∧
    (Layout.Addressable OutputField shape →
      StageData.Opens OutputField shape fun d => d.Fieldwise ∧ d.Accounted) :=
  ⟨fun h => StageData.opens_of_valid h fun _ hv => hv.fieldwise,
    fun h => StageData.opens_of_valid h fun _ hv => ⟨hv.fieldwise, hv.accounted⟩⟩

/-- The records over one stage with one control. -/
theorem fields_separate_oneControl :
    Layout.Addressable InputField ⟨#[.free 0 1], by decide⟩ ∧
    Layout.Addressable OutputField ⟨#[.free 0 1], by decide⟩ ∧
    StageData.Opens InputField ⟨#[.free 0 1], by decide⟩ (fun d => d.Fieldwise) ∧
    StageData.Opens OutputField ⟨#[.free 0 1], by decide⟩ fun d => d.Fieldwise ∧ d.Accounted := by
  have hin : Layout.Addressable InputField ⟨#[.free 0 1], by decide⟩ := by decide
  have hout : Layout.Addressable OutputField ⟨#[.free 0 1], by decide⟩ := by decide
  exact ⟨hin, hout, (fields_separate _).1 hin, (fields_separate _).2 hout⟩

/-- One stage with `2 ^ 61` controls, whose linear costs are `2 ^ 64` bytes. -/
def Shape.wideStage : Shape := ⟨#[.free 0 2305843009213693952], by decide⟩

/-- Where sizes wrap, the data of a shape may take no words at all: a view of none is made,
and the linear cost of so many variables is read from it without an entry. -/
theorem wide_stage_loses_entries :
    ∃ l : Layout InputField,
      Procedure.outcome (Layout.assignWrapping InputField .wideStage) () {} =
        (.ok l, ⟨(), {}⟩) ∧
      l.total = 0 ∧ StageData.ofWords l #[] = .ok ⟨l, #[]⟩ ∧
      ((StageData.mk l #[]).get? 0 .rq).map Array.size = some 0 ∧
      InputField.count .wideStage 0 .rq = 2 ^ 61 :=
  ⟨_, Layout.outcome_assignWrapping .wideStage () {}, by decide +kernel, by decide +kernel,
    by decide +kernel, by decide⟩

end StageQp
