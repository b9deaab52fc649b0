import StageQp.Proofs.Qp.Separation

/-!
# StageQp.Proofs.Qp.Copy

Copying the data of a program at once and field by field.  Either way every field is
that of the source; what a copy at once moves besides is the half word behind an odd
number of indices, and nothing else (`changesOnly_copyFrom`).
-/

namespace StageQp

open StageFields (EntryOf)

namespace Layout

/-- The half word is the one behind an odd number of indices. -/
def PadsIndices (l : Layout InputField) (i : Nat) : Prop :=
  ∃ k b, l.block? k .idxb = some b ∧ InputField.count l.shape k .idxb % 2 = 1 ∧ b.PadsHalf i

/-- Nothing stands in front of the first stage of a program. -/
theorem stop_lead_input (shape : Shape) : (ofShape InputField shape).lead.stop = 0 := by
  show 0 + alignUp 0 = 0
  decide

variable {Φ : Type} [StageFields Φ]

/-- Every byte of a record is in the lead or in the block of a field. -/
theorem exists_block? (shape : Shape)
    (h : (StageFields.all : List Φ).map StageFields.index =
      List.range (StageFields.all : List Φ).length) {x : Nat} (hx : x < (ofShape Φ shape).total) :
    x < (ofShape Φ shape).lead.stop ∨
      ∃ k field b, (ofShape Φ shape).block? k field = some b ∧ b.offset ≤ x ∧ x < b.stop := by
  obtain ⟨b, hb, hin⟩ := (tiles_ofShape (Φ := Φ) shape).exists_mem (Nat.zero_le x) hx
  rcases List.mem_cons.1 hb with rfl | hb
  · exact .inl hin.2
  · have hmem := List.mem_map_of_mem (f := some) hb
    rw [map_some_blocks shape h] at hmem
    obtain ⟨k, -, hk⟩ := List.mem_flatMap.1 hmem
    obtain ⟨field, -, hf⟩ := List.mem_map.1 hk
    exact .inr ⟨k, field, b, hf, hin⟩

end Layout

namespace StageData

variable {Φ : Type} {d e other : StageData Φ}

/-- A record of another shape is not copied. -/
theorem copyFrom_of_ne (h : other.shape ≠ d.shape) :
    d.copyFrom other = .error (.invalidDimension .recordsDiffer) := if_pos h

/-- The third record is the first with the words of the layout replaced by the second's. -/
structure Overwrites (d other e : StageData Φ) : Prop where
  layout_eq : e.layout = d.layout
  size_eq : e.words.size = d.words.size
  inside (i : Nat) (hi : i < d.layout.total / 8) : e.words[i]? = other.words[i]?
  outside (i : Nat) (hi : d.layout.total / 8 ≤ i) : e.words[i]? = d.words[i]?

/-- A record that is overwritten keeps its shape. -/
theorem Overwrites.shape_eq (h : Overwrites d other e) : e.shape = d.shape := by
  rw [shape, h.layout_eq, shape]

variable [StageFields Φ]

/-- Records of one shape have one layout. -/
theorem Valid.layout_congr (hd : d.Valid) (ho : other.Valid) (hs : other.shape = d.shape) :
    other.layout = d.layout := by
  rw [ho.layout_eq, hd.layout_eq, hs]

/-- A record of the same shape is copied. -/
theorem copyFrom_overwrites (hd : d.Valid) (ho : other.Valid) (hs : other.shape = d.shape) :
    ∃ e, d.copyFrom other = .ok e ∧ Overwrites d other e := by
  have hl := hd.layout_congr ho hs
  have hle := hd.total_le
  have hole := ho.total_le
  rw [hl] at hole
  unfold Words.byteSize at hle hole
  have hsize : other.content.size = d.layout.total / 8 := by
    rw [content, Array.size_extract, hl]
    omega
  refine ⟨_, if_neg (not_not.2 hs), rfl, Words.size_paste .., fun i hi => ?_, fun i hi => ?_⟩
  · rw [Words.getElem?_paste _ _ _ _ (by omega), if_pos ⟨Nat.zero_le i, by omega⟩, Nat.sub_zero,
      content, Array.getElem?_extract, hl, if_pos (by omega), Nat.zero_add]
  · exact Words.getElem?_paste_of_outside _ _ _ _ (.inr (by omega))

namespace Overwrites

/-- A record that is overwritten stays valid. -/
theorem valid (h : Overwrites d other e) (hd : d.Valid) : e.Valid where
  layout_eq := by rw [h.shape_eq, h.layout_eq, ← hd.layout_eq]
  total_le := by
    rw [h.layout_eq, Words.byteSize, h.size_eq]
    exact hd.total_le

variable [LawfulStageFields Φ]

/-- Every field is the source's. -/
theorem getD_eq (h : Overwrites d other e) (hd : d.Valid) (ho : other.Valid)
    (hs : other.shape = d.shape) (k : Nat) (field : Φ) : e.getD k field = other.getD k field := by
  have he := h.valid hd
  have hl : other.layout = e.layout := he.layout_congr ho (hs.trans h.shape_eq.symm)
  cases hb : e.layout.block? k field with
  | none =>
      rw [getD, getD, get?, get?, he.block?_eq, ho.block?_eq, hl, hb, Option.map_none,
        Option.map_none]
  | some b =>
      have hstop := hb
      rw [he.layout_eq] at hstop
      replace hstop := (Layout.bounds_of_block? hstop).2.2
      rw [← he.layout_eq, h.layout_eq] at hstop
      have hpart : b.part e.words = b.part other.words :=
        Block.part_congr (ho.of_block? (by rwa [hl])).1 (he.of_block? hb).1 fun i hi =>
          h.inside i (Nat.lt_of_lt_of_le hi (Nat.div_le_div_right hstop))
      rw [he.getD_eq_of_block? hb, ho.getD_eq_of_block? (by rwa [hl]), Block.records,
        Block.records, hpart]

end Overwrites

/-! ## Field by field -/

/-- Only an odd number of indices does not end on a word. -/
theorem bytes_mod {shape : Shape} {k : Nat} {field : InputField}
    (h : field = .idxb → InputField.count shape k .idxb % 2 ≠ 1) :
    StageFields.bytes shape k field % 8 = 0 := by
  cases field with
  | idxb =>
      have hodd := h rfl
      show InputField.count shape k .idxb * 4 % 8 = 0
      omega
  | _ => exact Nat.mul_mod_left _ 8

/-- Only blocks of indices have a half word of padding. -/
theorem padsIndices_of_padsHalf {d : QpInput} (hv : d.Valid) {k : Nat} {field : InputField}
    {b : Block} (hb : d.layout.block? k field = some b) {i : Nat} (hi : b.PadsHalf i) :
    d.layout.PadsIndices i := by
  by_cases h : field = .idxb ∧ InputField.count d.layout.shape k .idxb % 2 = 1
  · obtain ⟨rfl, hodd⟩ := h
    exact ⟨k, b, hb, hodd, hi⟩
  · have hspan : b.span = b.len := by
      rw [Block.span, (hv.of_block? hb).2]
      exact alignUp_of_mod (bytes_mod fun hf hodd => h ⟨hf, hodd⟩)
    obtain ⟨hlo, hhi⟩ := hi
    rw [Block.stop, hspan] at hhi
    exact absurd hhi (Nat.not_lt.2 hlo)

/-- A record in which every field was made that of another differs from the copy at once
in nothing but the half words behind odd numbers of indices. -/
theorem changesOnly_copyFrom {d other c r : QpInput} (hd : d.Valid) (ho : other.Valid)
    (hs : other.shape = d.shape) (hc : Overwrites d other c) (hr : d.OnlyFields r)
    (hfields : ∀ k field, r.getD k field = other.getD k field) :
    Words.ChangesOnly d.layout.PadsIndices c.words r.words where
  size_eq := hr.halves.size_eq.trans hc.size_eq.symm
  half_eq i hi := by
    have hrv := hr.valid hd
    have hcv := hc.valid hd
    rcases Nat.lt_or_ge (4 * i) d.layout.total with hlt | hge
    · -- the blocks leave no byte of the record out, so this one is a field's or behind one
      have hin := hlt
      rw [hd.layout_eq] at hin
      rcases Layout.exists_block? d.shape rfl hin with hlead | ⟨k, field, b, hb, hlo, hhi⟩
      · rw [Layout.stop_lead_input] at hlead
        exact absurd hlead (Nat.not_lt_zero _)
      · rw [← hd.layout_eq] at hb
        have hhas : b.HasHalf i := by
          refine ⟨hlo, Nat.lt_of_not_le fun hpad => hi ?_⟩
          exact padsIndices_of_padsHalf hd hb ⟨hpad, hhi⟩
        refine hcv.half_eq_of_getD hrv (hr.layout_eq.trans hc.layout_eq.symm) ?_
          (by rwa [hc.layout_eq]) hhas
        rw [hfields, hc.getD_eq hd ho hs]
    · rw [hr.half_eq_of_total_le hd hge]
      exact (Words.half_congr_word (hc.outside _ (by omega)) rfl).symm

end StageData

end StageQp
