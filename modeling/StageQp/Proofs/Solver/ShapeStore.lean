import StageQp.Proofs.Shape.Record
import StageQp.Proofs.Solver.Carving
import StageQp.Proofs.Strategy.Identity

/-!
# StageQp.Proofs.Solver.ShapeStore

The stored shape of a solver.  Whatever the strategy, a call sets a dimension of the
full shape and leaves the rest to the strategy (`Laid.outcome_set`), or it is about a
stage past the horizon and does nothing (`Laid.outcome_set_of_lt`).

With the strategy that keeps every stage, all three copies in the store are the same
shape (`Holds`): the empty one when the store is laid out (`outcome_assign`), and from
then on the one that the calls made of it (`Holds.outcome_set`).  So every store that
calls lead to holds a shape (`Reached.holds`).
-/

namespace StageQp

open Procedure

namespace ShapeStore

/-! ## Any strategy -/

section AnyStrategy

variable {δ ο μ : Type}

/-- The store lies in its words as it is carved for a strategy. -/
structure Laid (s : Strategy δ ο μ) (d : ShapeStore δ) : Prop where
  full_eq : d.full = (carve s d.horizon).2.1
  condensed_eq : d.condensed = (carve s d.horizon).2.2.1
  size_eq : Words.byteSize d.words = size s d.horizon

/-- The shape under a key of the strategy's own record. -/
def strategyShape (s : Strategy δ ο μ) (d : ShapeStore δ) (key : String) : Except Fault Shape := do
  s.dimsGet d.table (← d.condensed.slice d.words) key

namespace Laid

variable {s : Strategy δ ο μ} {d : ShapeStore δ}

theorem spaced (h : d.Laid s) :
    Spaced 0 [(carve s d.horizon).1, d.full, d.condensed] (Words.byteSize d.words) := by
  rw [h.full_eq, h.condensed_eq, h.size_eq]
  exact (carve_exact s d.horizon).tiles.spaced

theorem full_fits (h : d.Laid s) : d.full.Fits d.words := h.spaced.fits (by simp)

theorem condensed_fits (h : d.Laid s) : d.condensed.Fits d.words := h.spaced.fits (by simp)

theorem full_apart_condensed (h : d.Laid s) : d.full.Apart d.condensed :=
  h.spaced.apart (i := 1) (j := 2) rfl rfl (by decide)

/-- The block of the full shape has room for it. -/
theorem recordBytes_le (h : d.Laid s) :
    Shape.recordBytes d.horizon ≤ Words.byteSize (d.full.part d.words) := by
  rw [Block.byteSize_part h.full_fits, h.full_eq]
  exact le_alignUp _

/-- The full shape is read from its block. -/
theorem fullShape_eq (h : d.Laid s) :
    d.fullShape = .ok (Shape.getRecord d.horizon (d.full.part d.words)) := by
  rw [fullShape, h.full_fits.slice]
  exact Shape.ofWords_eq_ok h.recordBytes_le

/-- The strategy's shapes are read from its record. -/
theorem strategyShape_eq (h : d.Laid s) (key : String) :
    d.strategyShape s key = s.dimsGet d.table (d.condensed.part d.words) key := by
  rw [strategyShape, h.condensed_fits.slice]
  rfl

/-- A stage past the horizon is refused, and nothing has changed then. -/
theorem outcome_set_of_lt (h : d.Laid s) {stage : Nat} (hs : d.horizon < stage)
    (field : DimField) (value : UInt64) (j : Journal) :
    outcome (set s stage field value) d j =
      (.error (.fault (.invalidDimension (.stageOutOfRange stage d.horizon))), ⟨d, j⟩) := by
  simp only [set, outcome_bind, outcome_fetch, h.full_fits.slice, outcome_check_ok,
    Shape.setField_of_lt hs, outcome_check_error]

/-- Any other stage is set in the full shape; the strategy does what it does to its
record, and answers. -/
theorem outcome_set (h : d.Laid s) {stage : Nat} (hs : stage ≤ d.horizon) (field : DimField)
    (value : UInt64) (j : Journal) :
    ∃ own, own.size = d.full.span / 8 ∧
      Shape.getRecord d.horizon own =
        (Shape.getRecord d.horizon (d.full.part d.words)).edit stage field value ∧
      outcome (set s stage field value) d j =
        let r := outcome (s.dimsSet d.table stage field value) (d.condensed.part d.words) j
        (r.1, ⟨{ d with words := d.condensed.put (d.full.put d.words own) r.2.value },
          r.2.journal⟩) := by
  obtain ⟨own, hset, hsize, hshape⟩ := Shape.setField_eq_ok h.recordBytes_le hs field value
  rw [Block.size_part h.full_fits] at hsize
  have hpart : d.condensed.part (d.full.put d.words own) = d.condensed.part d.words :=
    Block.part_put_of_apart h.full_fits.1 h.condensed_fits h.full_apart_condensed
      (Nat.le_of_eq hsize)
  refine ⟨own, hsize, hshape, ?_⟩
  simp only [set, outcome_bind, outcome_fetch, h.full_fits.slice, outcome_check_ok, hset,
    outcome_store, h.condensed_fits.check, outcome_focus, hpart]

end Laid

end AnyStrategy

/-! ## The strategy that keeps every stage -/

/-- The store is laid out for the horizon of a shape, and every copy in it is that shape. -/
structure Holds (shape : Shape) (d : ShapeStore IdentityDims) : Prop where
  horizon_eq : d.horizon = shape.horizon
  full_eq : d.full = (carve identity shape.horizon).2.1
  condensed_eq : d.condensed = (carve identity shape.horizon).2.2.1
  table_eq : d.table = (Identity.carveDims shape.horizon).1
  size_eq : Words.byteSize d.words = size identity shape.horizon
  full_holds : Shape.getRecord shape.horizon (d.full.part d.words) = shape
  ownFull_holds :
    Shape.getRecord shape.horizon (d.table.full.part (d.condensed.part d.words)) = shape
  condensed_holds :
    Shape.getRecord shape.horizon (d.table.condensed.part (d.condensed.part d.words)) = shape

/-! ## The blocks -/

section Blocks

variable {n : Nat} {words : Words}

theorem carve_spaced (h : Words.byteSize words = size identity n) :
    Spaced 0 [(carve identity n).1, (carve identity n).2.1, (carve identity n).2.2.1]
      (Words.byteSize words) := by
  rw [h]
  exact (carve_exact identity n).tiles.spaced

theorem header_fits (h : Words.byteSize words = size identity n) :
    (carve identity n).1.Fits words := (carve_spaced h).fits (by simp)

theorem full_fits (h : Words.byteSize words = size identity n) :
    (carve identity n).2.1.Fits words := (carve_spaced h).fits (by simp)

theorem condensed_fits (h : Words.byteSize words = size identity n) :
    (carve identity n).2.2.1.Fits words := (carve_spaced h).fits (by simp)

theorem byteSize_condensed (h : Words.byteSize words = size identity n) :
    Words.byteSize ((carve identity n).2.2.1.part words) = Identity.dimsSize n := by
  rw [Block.byteSize_part (condensed_fits h)]
  exact Identity.alignUp_dimsSize n

theorem full_apart_condensed (n : Nat) :
    (carve identity n).2.1.Apart (carve identity n).2.2.1 :=
  (carve_exact identity n).tiles.spaced.apart (i := 1) (j := 2) rfl rfl (by decide)

end Blocks

/-! ## Laying out -/

/-- A store that is laid out holds empty stages. -/
theorem outcome_assign {σ : Type} {n : Nat} {words : Words}
    (h : Words.byteSize words = size identity n) (value : σ) (j : Journal) :
    ∃ d j', outcome (assign identity n words) value j = (.ok d, ⟨value, j'⟩) ∧
      d.Holds (Shape.blank n) := by
  have hexpect := (Words.expectBytes_eq_ok_iff _ _).2 h
  have hz : words.fill 0 = .zeroed (size identity n) := by rw [Words.fill_zero, h]
  have hzs : Words.byteSize (.zeroed (size identity n)) = size identity n := by
    rw [← hz, Words.byteSize_fill, h]
  have hsplit : (Words.zeroed (size identity n)).checkSplit
      [(carve identity n).1, (carve identity n).2.2.1] = .ok () :=
    checkSplit_of_spaced ((carve_spaced hzs).sublist (by simp))
  let header := RecordHeader.make tag (size identity n)
    [(carve identity n).2.1, (carve identity n).2.2.1]
  let led := (carve identity n).1.setRecords (.zeroed (size identity n)) #[header]
  have hled : Words.byteSize led = size identity n := by
    rw [Block.byteSize_setRecords, hzs]
  have hfull : (carve identity n).2.1.part led = .zeroed (Shape.recordBytes n) := by
    rw [Block.part_setRecords_of_apart (header_fits hzs) (full_fits hzs)
      ((carve_spaced hzs).apart (i := 0) (j := 1) rfl rfl (by decide)),
      Block.part_zeroed (full_fits hzs)]
    rfl
  have hcond : (carve identity n).2.2.1.part led = .zeroed (Identity.dimsSize n) := by
    rw [Block.part_setRecords_of_apart (header_fits hzs) (condensed_fits hzs)
      ((carve_spaced hzs).apart (i := 0) (j := 2) rfl rfl (by decide)),
      Block.part_zeroed (condensed_fits hzs)]
    rfl
  have hput : (carve identity n).2.2.1.put led (.zeroed (Identity.dimsSize n)) = led := by
    rw [← hcond, Block.put_part]
  let d : ShapeStore IdentityDims :=
    ⟨n, (carve identity n).2.1, (carve identity n).2.2.1, (Identity.carveDims n).1, led⟩
  refine ⟨d, j.note (.shapeStoreCarved n (size identity n) (carve identity n).2.2.1.len), ?_, ?_⟩
  · have hdims : identity.dimsAssign n = Identity.dimsAssign n := rfl
    simp only [assign, outcome_bind, hexpect, outcome_check_ok,
      outcome_finish (carve_exact identity n).cursor_eq, hz, hsplit, outcome_within, hdims]
    rw [show (carve identity n).2.2.1.part ((carve identity n).1.setRecords
      (.zeroed (size identity n)) #[header]) = _ from hcond, Identity.outcome_dimsAssign]
    simp only [outcome_note, outcome_pure]
    rw [show (carve identity n).2.2.1.put ((carve identity n).1.setRecords
      (.zeroed (size identity n)) #[header]) _ = _ from hput]
  · have hn := Shape.horizon_blank n
    have hbytes : Words.byteSize (.zeroed (Identity.dimsSize n)) = Identity.dimsSize n := by
      rw [Words.byteSize_zeroed, Identity.alignUp_dimsSize]
    have hown := Identity.dims_spaced hbytes
    refine { horizon_eq := hn.symm, full_eq := by rw [hn], condensed_eq := by rw [hn],
             table_eq := by rw [hn], size_eq := by rw [hn]; exact hled,
             full_holds := ?_, ownFull_holds := ?_, condensed_holds := ?_ }
    · show Shape.getRecord _ ((carve identity n).2.1.part led) = _
      rw [hn, hfull]
      exact Shape.getRecord_replicate _ _
    · show Shape.getRecord _
        ((Identity.carveDims n).1.full.part ((carve identity n).2.2.1.part led)) = _
      rw [hn, hcond, Block.part_zeroed (hown.fits (by simp))]
      exact Shape.getRecord_replicate _ _
    · show Shape.getRecord _
        ((Identity.carveDims n).1.condensed.part ((carve identity n).2.2.1.part led)) = _
      rw [hn, hcond, Block.part_zeroed (hown.fits (by simp))]
      exact Shape.getRecord_replicate _ _

/-- A buffer of another size is refused. -/
theorem outcome_assign_of_ne {σ : Type} {n : Nat} {words : Words}
    (h : Words.byteSize words ≠ size identity n) (value : σ) (j : Journal) :
    outcome (assign identity n words) value j =
      (.error (.fault (.bufferSize (Words.byteSize words) (size identity n))), ⟨value, j⟩) := by
  simp only [assign, outcome_bind, Words.expectBytes_of_ne h, outcome_check_error]

/-- Fresh dimensions hold empty stages. -/
theorem holds_of_assign {σ : Type} {n : Nat} {words : Words} {value : σ} {j : Journal}
    {d : ShapeStore IdentityDims} {s : Noted σ}
    (h : outcome (assign identity n words) value j = (.ok d, s)) : d.Holds (Shape.blank n) := by
  by_cases hw : Words.byteSize words = size identity n
  · obtain ⟨e, j', he, hholds⟩ := outcome_assign hw value j
    rw [he] at h
    cases h
    exact hholds
  · rw [outcome_assign_of_ne hw] at h
    cases h

/-! ## Setting a dimension -/

namespace Holds

variable {shape : Shape} {d : ShapeStore IdentityDims}

theorem laid (hd : d.Holds shape) : d.Laid identity where
  full_eq := by rw [hd.full_eq, hd.horizon_eq]
  condensed_eq := by rw [hd.condensed_eq, hd.horizon_eq]
  size_eq := by rw [hd.size_eq, hd.horizon_eq]

/-- Setting a dimension of a stage sets it in every copy. -/
theorem outcome_set (hd : d.Holds shape) {stage : Nat} (hs : stage ≤ shape.horizon)
    (field : DimField) (value : UInt64) (j : Journal) :
    ∃ e, outcome (set identity stage field value) d j = (.ok (), ⟨e, j⟩) ∧
      e.Holds (shape.edit stage field value) := by
  have hlaid := hd.laid
  have hfull := hlaid.full_fits
  have hcond := hlaid.condensed_fits
  have hapart := hlaid.full_apart_condensed
  obtain ⟨own, hos, hoshape, hset⟩ := hlaid.outcome_set (hd.horizon_eq ▸ hs) field value j
  have hbytes : Words.byteSize (d.condensed.part d.words) = Identity.dimsSize shape.horizon := by
    rw [hd.condensed_eq]
    exact byteSize_condensed hd.size_eq
  obtain ⟨v, hv, hvs, hvfull, hvcond⟩ := Identity.outcome_dimsSet hbytes hs field value j
  rw [← hd.table_eq] at hv hvfull hvcond
  rw [Block.size_part hcond] at hvs
  have hrun : outcome (identity.dimsSet d.table stage field value) (d.condensed.part d.words) j =
      (.ok (), ⟨v, j⟩) := hv
  rw [hrun] at hset
  let words := d.condensed.put (d.full.put d.words own) v
  have hwcond : d.condensed.part words = v := Block.part_put hcond.put hvs
  have hwfull : d.full.part words = own := by
    rw [Block.part_put_of_apart hcond.1 hfull.put hapart.symm (Nat.le_of_eq hvs),
      Block.part_put hfull hos]
  have hn := Shape.horizon_edit shape stage field value
  refine ⟨{ d with words }, hset, ?_⟩
  refine { horizon_eq := ?_, full_eq := ?_, condensed_eq := ?_, table_eq := ?_, size_eq := ?_,
           full_holds := ?_, ownFull_holds := ?_, condensed_holds := ?_ } <;> rw [hn]
  · exact hd.horizon_eq
  · exact hd.full_eq
  · exact hd.condensed_eq
  · exact hd.table_eq
  · simpa [words, Words.byteSize] using hd.size_eq
  · rw [hwfull, ← hd.horizon_eq, hoshape, hd.horizon_eq, hd.full_holds]
  · rw [hwcond, hvfull, hd.ownFull_holds]
  · rw [hwcond, hvcond, hd.condensed_holds]

/-- A stage past the horizon is refused, and nothing has changed then. -/
theorem outcome_set_of_lt (hd : d.Holds shape) {stage : Nat} (hs : shape.horizon < stage)
    (field : DimField) (value : UInt64) (j : Journal) :
    outcome (set identity stage field value) d j =
      (.error (.fault (.invalidDimension (.stageOutOfRange stage shape.horizon))), ⟨d, j⟩) := by
  rw [← hd.horizon_eq] at hs ⊢
  exact hd.laid.outcome_set_of_lt hs field value j

/-! ## Reading the copies -/

/-- The full shape is the one that is held. -/
theorem fullShape_eq (hd : d.Holds shape) : d.fullShape = .ok shape := by
  rw [hd.laid.fullShape_eq, hd.horizon_eq, hd.full_holds]

/-- A copy in the strategy's record is read from its block. -/
theorem ofWords_slice (hd : d.Holds shape) {b : Block}
    (hb : b = d.table.full ∨ b = d.table.condensed)
    (hheld : Shape.getRecord shape.horizon (b.part (d.condensed.part d.words)) = shape) :
    (b.slice (d.condensed.part d.words) >>= Shape.ofWords d.table.horizon) = .ok shape := by
  have hbytes := byteSize_condensed hd.size_eq
  have hspaced := Identity.dims_spaced hbytes
  rw [← hd.table_eq, ← hd.condensed_eq] at hspaced
  have hlen : b.len = Shape.recordBytes shape.horizon := by
    rw [hd.table_eq] at hb
    rcases hb with rfl | rfl <;> rfl
  have hfits := hspaced.fits (b := b) (by simpa using hb)
  have hle : Shape.recordBytes shape.horizon ≤
      Words.byteSize (b.part (d.condensed.part d.words)) := by
    rw [Block.byteSize_part hfits, ← hlen]
    exact le_alignUp _
  have hn : d.table.horizon = shape.horizon := by rw [hd.table_eq]; rfl
  rw [hfits.slice, hn]
  exact (Shape.ofWords_eq_ok hle).trans (congrArg Except.ok hheld)

/-- The strategy gives the shape for both of its keys. -/
theorem strategyShape_eq (hd : d.Holds shape) {key : String}
    (hk : key = condensedKey ∨ key = fullKey) : d.strategyShape identity key = .ok shape := by
  rw [hd.laid.strategyShape_eq]
  show Identity.dimsGet d.table (d.condensed.part d.words) key = _
  rcases hk with rfl | rfl
  · exact hd.ofWords_slice (.inr rfl) hd.condensed_holds
  · exact hd.ofWords_slice (.inl rfl) hd.ownFull_holds

/-- Both shapes of a store are the one it holds. -/
theorem shapes_eq (hd : d.Holds shape) : d.shapes identity = .ok ⟨shape, shape⟩ := by
  have hcondensed : d.get identity condensedKey = .ok shape :=
    hd.strategyShape_eq (.inl rfl)
  rw [shapes, hd.fullShape_eq]
  show (d.get identity condensedKey >>= fun condensed => pure _) = _
  rw [hcondensed]
  rfl

end Holds

/-! ## Every store -/

/-- The stores of horizon `n` that calls lead to. -/
inductive Reached (n : Nat) : ShapeStore IdentityDims → Prop
  | assign {words : Words} {j : Journal} {d : ShapeStore IdentityDims} {s : Noted Unit}
      (h : outcome (assign identity n words) () j = (.ok d, s)) : Reached n d
  | set {d : ShapeStore IdentityDims} (hd : Reached n d) (stage : Nat) (field : DimField)
      (value : UInt64) (j : Journal) :
      Reached n (outcome (set identity stage field value) d j).2.value

/-- Every store holds some shape of its horizon. -/
theorem Reached.holds {n : Nat} {d : ShapeStore IdentityDims} (h : Reached n d) :
    ∃ shape, shape.horizon = n ∧ d.Holds shape := by
  induction h with
  | assign h => exact ⟨_, Shape.horizon_blank n, holds_of_assign h⟩
  | set hd stage field value j ih =>
      obtain ⟨shape, rfl, hholds⟩ := ih
      by_cases hs : stage ≤ shape.horizon
      · obtain ⟨e, he, heholds⟩ := hholds.outcome_set hs field value j
        rw [he]
        exact ⟨_, Shape.horizon_edit .., heholds⟩
      · rw [hholds.outcome_set_of_lt (Nat.lt_of_not_le hs)]
        exact ⟨shape, rfl, hholds⟩

end ShapeStore

end StageQp
