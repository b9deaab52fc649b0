import StageQp.Proofs.Qp.Layout
import StageQp.Qp.Wrapping

/-!
# StageQp.Proofs.Qp.Wrapping

Layouts in the arithmetic of the machine.  Sums, products and paddings of machine words
are those of natural numbers modulo `2 ^ 64`, and so is every number of a layout
(`Layout.ofShapeWrapping_eq`).  No number of a layout is above its size, so for a shape
with addressable records the layout is the one in natural numbers
(`Layout.ofShapeWrapping_of_addressable`), and so are the counts of elements
(`Layout.toNat_count_of_addressable`).
-/

namespace StageQp

/-! ## Machine words modulo `2 ^ 64` -/

theorem alignUpWrapping_ofNat (n : Nat) :
    alignUpWrapping (UInt64.ofNat n) = UInt64.ofNat (alignUp n) := by
  apply UInt64.toNat.inj
  simp only [alignUpWrapping, alignUp, UInt64.toNat_mul, UInt64.toNat_div, UInt64.toNat_add,
    UInt64.toNat_ofNat', UInt64.reduceToNat]
  omega

theorem doubleBytesWrapping_ofNat (n : Nat) :
    doubleBytesWrapping (UInt64.ofNat n) = UInt64.ofNat (doubleBytes n) := by
  rw [doubleBytesWrapping, doubleBytes, ← alignUpWrapping_ofNat, UInt64.ofNat_mul]
  rfl

theorem indexBytesWrapping_ofNat (n : Nat) :
    indexBytesWrapping (UInt64.ofNat n) = UInt64.ofNat (indexBytes n) := by
  rw [indexBytesWrapping, indexBytes, ← alignUpWrapping_ofNat, UInt64.ofNat_mul]
  rfl

theorem StageDims.nvWrapping_eq (s : StageDims) : s.nvWrapping = UInt64.ofNat s.nv := by
  rw [nvWrapping, nv, UInt64.ofNat_add, UInt64.ofNat_toNat, UInt64.ofNat_toNat]

theorem StageDims.boundsWrapping_eq (s : StageDims) :
    s.boundsWrapping = UInt64.ofNat s.bounds := by
  rw [boundsWrapping, bounds, UInt64.ofNat_add, UInt64.ofNat_toNat, UInt64.ofNat_toNat]

theorem StageDims.inequalitiesWrapping_eq (s : StageDims) :
    s.inequalitiesWrapping = UInt64.ofNat s.inequalities := by
  rw [inequalitiesWrapping, inequalities, UInt64.ofNat_add, UInt64.ofNat_toNat,
    boundsWrapping_eq]

namespace Shape

theorem nvWrapping_eq (s : Shape) (k : Nat) : s.nvWrapping k = UInt64.ofNat (s.nv k) :=
  (s.stage k).nvWrapping_eq

theorem dynamicsWrapping_eq (s : Shape) (k : Nat) :
    s.dynamicsWrapping k = UInt64.ofNat (s.dynamics k) := by
  unfold dynamicsWrapping dynamics
  split
  · rw [UInt64.ofNat_toNat]
  · rfl

/-- Sums over stages wrap. -/
theorem sumBeforeWrapping_ofNat {count : Nat → Nat} {wrapping : Nat → UInt64}
    (h : ∀ k, wrapping k = UInt64.ofNat (count k)) (k : Nat) :
    sumBeforeWrapping wrapping k = UInt64.ofNat (sumBefore count k) := by
  induction k with
  | zero => rfl
  | succ k ih => rw [sumBeforeWrapping, sumBefore, UInt64.ofNat_add, ih, h]

theorem inputStageBytesWrapping_eq (shape : Shape) (k : Nat) :
    shape.inputStageBytesWrapping k = UInt64.ofNat (shape.inputStageBytes k) := by
  simp [inputStageBytesWrapping, inputStageBytes, nvWrapping_eq, dynamicsWrapping_eq,
    StageDims.boundsWrapping_eq, ← doubleBytesWrapping_ofNat, ← indexBytesWrapping_ofNat]

theorem outputStageBytesWrapping_eq (shape : Shape) (k : Nat) :
    shape.outputStageBytesWrapping k = UInt64.ofNat (shape.outputStageBytes k) := by
  simp [outputStageBytesWrapping, outputStageBytes, nvWrapping_eq, dynamicsWrapping_eq,
    StageDims.inequalitiesWrapping_eq, ← doubleBytesWrapping_ofNat]

end Shape

/-- A family of fields whose counts are the same modulo `2 ^ 64`. -/
class LawfulWrappingFields (Φ : Type) [StageFields Φ] [WrappingFields Φ] : Prop where
  count_eq (shape : Shape) (k : Nat) (field : Φ) :
    WrappingFields.count shape k field = UInt64.ofNat (StageFields.count shape k field)
  size_eq (shape : Shape) : WrappingFields.size Φ shape = UInt64.ofNat (StageFields.size Φ shape)

instance : LawfulWrappingFields InputField where
  count_eq shape k field := by
    cases field <;> simp [WrappingFields.count, StageFields.count, InputField.count,
      Shape.nvWrapping_eq, Shape.dynamicsWrapping_eq, StageDims.boundsWrapping_eq]
  size_eq shape := Shape.sumBeforeWrapping_ofNat shape.inputStageBytesWrapping_eq _

instance : LawfulWrappingFields OutputField where
  count_eq shape k field := by
    cases field <;> simp [WrappingFields.count, StageFields.count, OutputField.count,
      Shape.nvWrapping_eq, Shape.dynamicsWrapping_eq, StageDims.inequalitiesWrapping_eq]
  size_eq shape := by
    show alignUpWrapping _ + _ = UInt64.ofNat shape.outputBytes
    rw [Shape.outputBytes, UInt64.ofNat_add, alignUpWrapping_ofNat,
      Shape.sumBeforeWrapping_ofNat shape.outputStageBytesWrapping_eq]
    rfl

/-- The lengths of all fields are those without a bound, wrapped. -/
theorem WrappingFields.lengths_eq (Φ : Type) [StageFields Φ] [WrappingFields Φ]
    [LawfulWrappingFields Φ] (shape : Shape) :
    lengths Φ shape = (StageFields.lengths Φ shape).map UInt64.ofNat := by
  rw [lengths, StageFields.lengths, List.map_flatMap]
  refine flatMap_range_congr fun k _ => ?_
  rw [List.map_map]
  refine List.map_congr_left fun field _ => ?_
  rw [bytes, LawfulWrappingFields.count_eq, Function.comp_apply, StageFields.bytes,
    UInt64.ofNat_mul]

/-! ## Layouts -/

/-- The block with its numbers modulo `2 ^ 64`. -/
def Block.wrapped (b : Block) : Block := ⟨b.offset % 2 ^ 64, b.len % 2 ^ 64⟩

/-- A block that ends within the machine words is not wrapped. -/
theorem Block.wrapped_of_stop_lt {b : Block} (h : b.stop < 2 ^ 64) : b.wrapped = b := by
  have hlen : b.len ≤ b.span := le_alignUp b.len
  unfold stop at h
  rw [wrapped, Nat.mod_eq_of_lt (by omega), Nat.mod_eq_of_lt (by omega)]

namespace WrappingCarver

/-- A block that is given out wraps, and so does the cursor behind it. -/
theorem take_ofNat (cursor bytes : Nat) :
    take ⟨UInt64.ofNat cursor⟩ (UInt64.ofNat bytes) =
      ((Carver.take ⟨cursor⟩ bytes).1.wrapped,
        ⟨UInt64.ofNat (Carver.take ⟨cursor⟩ bytes).2.cursor⟩) := by
  simp only [take, Carver.take, Block.wrapped, Block.stop, Block.span, alignUpWrapping_ofNat,
    UInt64.toNat_ofNat', UInt64.ofNat_add]

/-- So it is with any number of blocks. -/
theorem takeAll_ofNat (cursor : Nat) (lengths : List Nat) :
    takeAll ⟨UInt64.ofNat cursor⟩ (lengths.map UInt64.ofNat) =
      ((Carver.takeAll ⟨cursor⟩ lengths).1.map Block.wrapped,
        ⟨UInt64.ofNat (Carver.takeAll ⟨cursor⟩ lengths).2.cursor⟩) := by
  induction lengths generalizing cursor with
  | nil => rfl
  | cons bytes rest ih => simp [takeAll, Carver.takeAll, take_ofNat, ih]

end WrappingCarver

namespace Layout

variable {Φ : Type} [StageFields Φ] [WrappingFields Φ] [LawfulWrappingFields Φ]

/-- The layout with its numbers modulo `2 ^ 64`. -/
def wrapped {Φ : Type} (l : Layout Φ) : Layout Φ where
  shape := l.shape
  lead := l.lead.wrapped
  blocks := l.blocks.map Block.wrapped
  total := l.total % 2 ^ 64

/-- The layout in machine words is the one in natural numbers modulo `2 ^ 64`. -/
theorem ofShapeWrapping_eq (shape : Shape) :
    ofShapeWrapping Φ shape = (ofShape Φ shape).wrapped := by
  have hlead := WrappingCarver.take_ofNat 0 (StageFields.leadBytes Φ)
  simp only [ofShapeWrapping, WrappingFields.lengths_eq, ofShape, wrapped]
  rw [show ({} : WrappingCarver) = ⟨UInt64.ofNat 0⟩ from rfl, hlead,
    WrappingCarver.takeAll_ofNat]
  simp

/-- Nothing wraps if the record is addressable. -/
theorem ofShapeWrapping_of_addressable {shape : Shape} (h : Addressable Φ shape)
    [LawfulStageFields Φ] : ofShapeWrapping Φ shape = ofShape Φ shape := by
  have htotal : (ofShape Φ shape).total < 2 ^ 64 := by
    rw [total_eq_size]
    exact h
  have hblock (b : Block) (hb : b ∈ (ofShape Φ shape).lead :: (ofShape Φ shape).blocks) :
      b.wrapped = b :=
    Block.wrapped_of_stop_lt
      (Nat.lt_of_le_of_lt ((tiles_ofShape shape).spaced.bounds hb).2.2 htotal)
  rw [ofShapeWrapping_eq, wrapped, hblock _ (List.mem_cons_self ..), Nat.mod_eq_of_lt htotal,
    List.map_congr_left fun b hb => hblock b (List.mem_cons_of_mem _ hb), List.map_id']

/-- Nor does the count of a field wrap then, whose bytes are a part of the record's. -/
theorem toNat_count_of_addressable {shape : Shape} (h : Addressable Φ shape)
    [LawfulStageFields Φ] {k : Nat} (hk : k ≤ shape.horizon) (field : Φ) :
    (WrappingFields.count shape k field).toNat = StageFields.count shape k field := by
  obtain ⟨b, hb, hlen⟩ := block?_ofShape (Φ := Φ) shape hk field
  have hstop : b.stop ≤ StageFields.size Φ shape :=
    total_eq_size (Φ := Φ) shape ▸ (bounds_of_block? hb).2.2
  have hspan : b.len ≤ b.span := le_alignUp _
  have hcount : StageFields.count shape k field ≤ b.len := by
    rw [hlen, StageFields.bytes]
    exact Nat.le_mul_of_pos_right _ (EntryKind.bytes_pos _)
  rw [LawfulWrappingFields.count_eq, UInt64.toNat_ofNat']
  refine Nat.mod_eq_of_lt (Nat.lt_of_le_of_lt ?_ h)
  unfold Block.stop at hstop
  omega

/-- Carved field by field or computed in closed form, the bytes of a record wrap alike. -/
theorem outcome_assignWrapping [LawfulStageFields Φ] {σ : Type} (shape : Shape) (value : σ)
    (j : Journal) : Procedure.outcome (assignWrapping Φ shape) value j =
      (.ok (ofShapeWrapping Φ shape), ⟨value, j⟩) := by
  have h : (⟨(ofShapeWrapping Φ shape).total⟩ : Carver).cursor =
      (WrappingFields.size Φ shape).toNat := by
    rw [ofShapeWrapping_eq, LawfulWrappingFields.size_eq, UInt64.toNat_ofNat', ← total_eq_size]
    rfl
  rw [assignWrapping, Procedure.outcome_bind_ok (Procedure.outcome_finish h ..),
    Procedure.outcome_pure]

end Layout

end StageQp
