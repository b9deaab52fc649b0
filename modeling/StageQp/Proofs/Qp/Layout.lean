import StageQp.Proofs.Storage.Tiling
import StageQp.Qp.Input
import StageQp.Qp.Output

/-!
# StageQp.Proofs.Qp.Layout

Where the fields of a record lie.  A lawful family of fields knows the place of
each field and the size of a record in closed form (`LawfulStageFields`).  The
blocks of a layout then tile the record behind its lead (`tiles_ofShape`), every
field of every stage has a block of its own (`block?_ofShape`), and no two of
these have a word in common (`apart_of_block?`).
-/

namespace StageQp

/-! ## Lists that are built stage by stage -/

theorem length_flatMap_range {α : Type} {f : Nat → List α} {m : Nat} (h : ∀ k, (f k).length = m)
    (n : Nat) : ((List.range n).flatMap f).length = n * m := by
  induction n with
  | zero => simp
  | succ n ih => simp [List.range_succ, ih, h, Nat.succ_mul]

/-- Where entry `i` of stage `k` stands. -/
theorem getElem?_flatMap_range {α : Type} {f : Nat → List α} {m : Nat}
    (h : ∀ k, (f k).length = m) {n k i : Nat} (hk : k < n) (hi : i < m) :
    ((List.range n).flatMap f)[k * m + i]? = (f k)[i]? := by
  induction n with
  | zero => omega
  | succ n ih =>
      have hl := length_flatMap_range h n
      rw [List.range_succ, List.flatMap_append, List.flatMap_singleton]
      rcases Nat.lt_or_ge k n with hkn | hkn
      · have hb : k * m + i < n * m := by
          have := Nat.mul_le_mul_right m hkn
          rw [Nat.succ_mul] at this
          omega
        rw [List.getElem?_append_left (by omega), ih hkn]
      · obtain rfl : k = n := by omega
        rw [List.getElem?_append_right (by omega), hl, Nat.add_sub_cancel_left]

theorem flatMap_range_congr {α : Type} {f g : Nat → List α} {n : Nat} (h : ∀ k < n, f k = g k) :
    (List.range n).flatMap f = (List.range n).flatMap g := by
  rw [List.flatMap_def, List.flatMap_def,
    List.map_congr_left fun k hk => h k (List.mem_range.1 hk)]

/-- A list whose length is a product is made of as many stretches of one length. -/
theorem flatMap_range_getElem? {α : Type} {as : List α} {n m : Nat} (h : as.length = n * m) :
    ((List.range n).flatMap fun k => (List.range m).map fun i => as[k * m + i]?) =
      as.map some := by
  have hm : ∀ k, ((List.range m).map fun i => as[k * m + i]?).length = m := by simp
  apply List.ext_getElem?
  intro i
  by_cases hi : i < n * m
  · have hpos : 0 < m := Nat.pos_of_mul_pos_left (Nat.zero_lt_of_lt hi)
    have hk : i / m < n := Nat.div_lt_of_lt_mul (by rwa [Nat.mul_comm m])
    have hr := Nat.mod_lt i hpos
    have hsplit := getElem?_flatMap_range hm hk hr
    rw [Nat.div_add_mod'] at hsplit
    rw [hsplit, List.getElem?_map, List.getElem?_map, List.getElem?_range hr, Option.map_some,
      Nat.div_add_mod', List.getElem?_eq_getElem (by omega), Option.map_some]
  · rw [List.getElem?_eq_none (by rw [length_flatMap_range hm]; omega),
      List.getElem?_eq_none (by rw [List.length_map]; omega)]

theorem sum_map_flatMap_range {α : Type} (g : α → Nat) (f : Nat → List α) (n : Nat) :
    (((List.range n).flatMap f).map g).sum = Shape.sumBefore (fun k => ((f k).map g).sum) n := by
  induction n with
  | zero => rfl
  | succ n ih => simp [List.range_succ, Shape.sumBefore, ih]

namespace EntryKind

instance (kind : EntryKind) : LawfulRecord kind.Entry :=
  match kind with
  | double => inferInstanceAs (LawfulRecord Binary64)
  | index => inferInstanceAs (LawfulRecord UInt32)

/-- Entries take bytes. -/
theorem bytes_pos (kind : EntryKind) : 0 < Record.bytes kind.Entry := by
  cases kind <;> decide

end EntryKind

/-- A family of fields whose places and sizes are those it says. -/
class LawfulStageFields (Φ : Type) [StageFields Φ] : Prop where
  getElem?_index (field : Φ) :
    (StageFields.all : List Φ)[StageFields.index field]? = some field
  size_eq (shape : Shape) : StageFields.size Φ shape =
    alignUp (StageFields.leadBytes Φ) + ((StageFields.lengths Φ shape).map alignUp).sum

instance : LawfulStageFields InputField where
  getElem?_index field := by cases field <;> rfl
  size_eq shape := by
    show shape.inputBytes = 0 + _
    rw [StageFields.lengths, sum_map_flatMap_range, Nat.zero_add, Shape.inputBytes]
    congr 1
    funext k
    simp [StageFields.all, InputField.all, StageFields.bytes, StageFields.count, InputField.count,
      Shape.inputStageBytes, doubleBytes, indexBytes, Record.bytes]
    omega

instance : LawfulStageFields OutputField where
  getElem?_index field := by cases field <;> rfl
  size_eq shape := by
    show shape.outputBytes = _
    rw [StageFields.lengths, sum_map_flatMap_range, Shape.outputBytes]
    congr 2
    funext k
    simp [StageFields.all, OutputField.all, StageFields.bytes, StageFields.count,
      OutputField.count, Shape.outputStageBytes, doubleBytes, Record.bytes]
    omega

namespace LawfulStageFields

variable {Φ : Type} [StageFields Φ] [LawfulStageFields Φ]

/-- The place of a field is among all. -/
theorem index_lt (field : Φ) :
    StageFields.index field < (StageFields.all : List Φ).length :=
  (List.getElem?_eq_some_iff.1 (getElem?_index field)).1

theorem mem_all (field : Φ) : field ∈ (StageFields.all : List Φ) :=
  List.mem_of_getElem? (getElem?_index field)

/-- Fields in the same place are the same. -/
theorem index_inj {field other : Φ} (h : StageFields.index field = StageFields.index other) :
    field = other := by
  have hf := getElem?_index field
  rw [h, getElem?_index other] at hf
  exact (Option.some.inj hf).symm

end LawfulStageFields

namespace Layout

variable {Φ : Type} [StageFields Φ]

theorem shape_ofShape (shape : Shape) : (ofShape Φ shape).shape = shape := rfl

/-- The bytes of a record are the padded lead and the padded fields. -/
theorem total_ofShape (shape : Shape) : (ofShape Φ shape).total =
    alignUp (StageFields.leadBytes Φ) + ((StageFields.lengths Φ shape).map alignUp).sum := by
  simp only [ofShape, Carver.cursor_takeAll, Carver.cursor_take, Nat.zero_add]

/-- The lead and the blocks of all fields tile the record. -/
theorem tiles_ofShape (shape : Shape) : Tiles 0
    ((ofShape Φ shape).lead :: (ofShape Φ shape).blocks) (ofShape Φ shape).total :=
  Carver.tiles_takeAll (c := {}) rfl (StageFields.leadBytes Φ :: StageFields.lengths Φ shape)

/-- The blocks have the lengths of the fields. -/
theorem map_len_blocks (shape : Shape) :
    (ofShape Φ shape).blocks.map Block.len = StageFields.lengths Φ shape :=
  Carver.map_len_takeAll _ _

variable [LawfulStageFields Φ]

/-- A layout ends on the size in closed form. -/
theorem total_eq_size (shape : Shape) : (ofShape Φ shape).total = StageFields.size Φ shape := by
  rw [total_ofShape, LawfulStageFields.size_eq]

/-- A record is whole words. -/
theorem size_mod (Φ : Type) [StageFields Φ] [LawfulStageFields Φ] (shape : Shape) :
    StageFields.size Φ shape % 8 = 0 := by
  rw [← total_eq_size]
  exact (tiles_ofShape shape).stop_mod rfl

/-- A layout always ends on the size in closed form. -/
theorem outcome_assign {σ : Type} (shape : Shape) (value : σ) (j : Journal) :
    Procedure.outcome (assign Φ shape) value j = (.ok (ofShape Φ shape), ⟨value, j⟩) := by
  have h : (⟨(ofShape Φ shape).total⟩ : Carver).cursor = StageFields.size Φ shape :=
    total_eq_size shape
  rw [assign, Procedure.outcome_bind_ok (Procedure.outcome_finish h ..), Procedure.outcome_pure]

/-- Every field of every stage has a block of the bytes it asks for. -/
theorem block?_ofShape (shape : Shape) {k : Nat} (hk : k ≤ shape.horizon) (field : Φ) :
    ∃ b, (ofShape Φ shape).block? k field = some b ∧ b.len = StageFields.bytes shape k field := by
  have hm : ∀ j, ((StageFields.all : List Φ).map (StageFields.bytes shape j)).length =
      (StageFields.all : List Φ).length := fun j => List.length_map _
  have hl := getElem?_flatMap_range hm (Nat.lt_succ_of_le hk) (LawfulStageFields.index_lt field)
  rw [List.getElem?_map, LawfulStageFields.getElem?_index, Option.map_some] at hl
  have hb := map_len_blocks (Φ := Φ) shape
  rw [StageFields.lengths] at hb
  rw [← hb, List.getElem?_map, Option.map_eq_some_iff] at hl
  obtain ⟨b, hb, hlen⟩ := hl
  exact ⟨b, by rw [block?, shape_ofShape, if_pos hk, hb], hlen⟩

omit [LawfulStageFields Φ] in
/-- A block stands at the place of its field in its stage. -/
theorem block?_eq_some {l : Layout Φ} {k : Nat} {field : Φ} {b : Block}
    (h : l.block? k field = some b) : k ≤ l.shape.horizon ∧
      l.blocks[k * (StageFields.all : List Φ).length + StageFields.index field]? = some b := by
  unfold block? at h
  split at h
  · next hk => exact ⟨hk, h⟩
  · cases h

omit [LawfulStageFields Φ] in
/-- A block of a field lies in the record, behind the lead. -/
theorem bounds_of_block? {shape : Shape} {k : Nat} {field : Φ} {b : Block}
    (h : (ofShape Φ shape).block? k field = some b) :
    (ofShape Φ shape).lead.stop ≤ b.offset ∧ b.offset % 8 = 0 ∧
      b.stop ≤ (ofShape Φ shape).total :=
  (tiles_ofShape (Φ := Φ) shape).spaced.2.2.bounds (List.mem_of_getElem? (block?_eq_some h).2)

omit [LawfulStageFields Φ] in
/-- The blocks stand stage by stage, and within a stage in the order of the fields, if
the fields are listed in that order. -/
theorem map_some_blocks (shape : Shape)
    (h : (StageFields.all : List Φ).map StageFields.index =
      List.range (StageFields.all : List Φ).length) :
    (ofShape Φ shape).blocks.map some = (List.range (shape.horizon + 1)).flatMap fun k =>
      (StageFields.all : List Φ).map ((ofShape Φ shape).block? k) := by
  let m := (StageFields.all : List Φ).length
  have hlen : (ofShape Φ shape).blocks.length = (shape.horizon + 1) * m := by
    rw [← List.length_map Block.len, map_len_blocks, StageFields.lengths]
    exact length_flatMap_range (fun _ => List.length_map _) _
  rw [← flatMap_range_getElem? hlen]
  refine flatMap_range_congr fun k hk => ?_
  rw [← h, List.map_map]
  refine List.map_congr_left fun field _ => ?_
  rw [block?, shape_ofShape, if_pos (Nat.le_of_lt_succ hk)]
  rfl

/-- Different fields, and fields of different stages, have no word in common. -/
theorem apart_of_block? {shape : Shape} {k j : Nat} {field other : Φ} {b c : Block}
    (hb : (ofShape Φ shape).block? k field = some b)
    (hc : (ofShape Φ shape).block? j other = some c) (h : k ≠ j ∨ field ≠ other) :
    b.Apart c := by
  refine (tiles_ofShape (Φ := Φ) shape).spaced.2.2.apart (block?_eq_some hb).2
    (block?_eq_some hc).2 ?_
  intro hp
  have hi := LawfulStageFields.index_lt field
  have ho := LawfulStageFields.index_lt other
  -- Quotient and remainder by the number of fields give the stage and the field back.
  have hm : 0 < (StageFields.all : List Φ).length := by omega
  have hq := congrArg (· / (StageFields.all : List Φ).length) hp
  have hr := congrArg (· % (StageFields.all : List Φ).length) hp
  simp only [Nat.mul_comm _ (StageFields.all : List Φ).length, Nat.mul_add_div hm,
    Nat.div_eq_of_lt hi, Nat.div_eq_of_lt ho, Nat.add_zero] at hq
  simp only [Nat.mul_comm _ (StageFields.all : List Φ).length, Nat.mul_add_mod,
    Nat.mod_eq_of_lt hi, Nat.mod_eq_of_lt ho] at hr
  rcases h with h | h
  · exact h hq
  · exact h (LawfulStageFields.index_inj hr)

end Layout

end StageQp
