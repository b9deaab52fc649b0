import StageQp.Proofs.Storage.Block
import StageQp.Storage.Record

/-!
# StageQp.Proofs.Storage.Record

Records that are written are read back, and no other record notices.  The laws
are those of a lawful record type (`LawfulRecord`); from them follow the laws of
runs of records and of the records of a block.
-/

namespace StageQp

/-- A type of records that is read back as it was written. -/
class LawfulRecord (α : Type) [Record α] : Prop where
  size_set (w : Words) (i : Nat) (a : α) : (Record.set w i a).size = w.size
  get_set_self (w : Words) (i : Nat) (a : α) (h : (i + 1) * Record.bytes α ≤ Words.byteSize w) :
    Record.get (Record.set w i a) i = a
  get_set_of_ne (w : Words) (i j : Nat) (a : α) (h : i ≠ j) :
    Record.get (Record.set w i a) j = (Record.get w j : α)

namespace Record

/-! ## The bundled types of records -/

theorem getD_of_getElem?_eq {w v : Words} {i j : Nat} (h : w[i]? = v[j]?) :
    w.getD i 0 = v.getD j 0 := by
  simp [Array.getD_eq_getD_getElem?, h]

/-- Records of whole words are lawful when they are read from the words they write. -/
theorem lawful_ofWords {α : Type} {count : Nat} {name : String} {read : (Nat → UInt64) → α}
    {write : α → List UInt64} (hlen : ∀ a, (write a).length = count)
    (hread : ∀ f g : Nat → UInt64, (∀ i < count, f i = g i) → read f = read g)
    (hwrite : ∀ a, read (fun i => (write a).toArray.getD i 0) = a) :
    @LawfulRecord α (ofWords count name read write) := by
  let _ : Record α := ofWords count name read write
  refine @LawfulRecord.mk α _ ?_ ?_ ?_
  · intro w i a
    exact Words.size_paste _ _ _
  · intro w i a h
    have hi : count * i + count ≤ w.size := by
      have hb : (i + 1) * (8 * count) ≤ w.size * 8 := h
      rw [Nat.mul_left_comm, Nat.mul_comm 8, Nat.succ_mul, Nat.mul_comm i] at hb
      omega
    refine Eq.trans (hread _ _ fun k hk => ?_) (hwrite a)
    apply getD_of_getElem?_eq
    exact Words.getElem?_paste_add _ _ _ _ (by omega) (by simp [hlen, hk])
  · intro w i j a h
    refine hread _ _ fun k hk => ?_
    apply getD_of_getElem?_eq
    apply Words.getElem?_paste_of_outside
    simp only [List.size_toArray, hlen]
    rcases Nat.lt_or_gt_of_ne h with hij | hji
    · right
      calc count * i + count = count * (i + 1) := (Nat.mul_succ _ _).symm
        _ ≤ count * j := Nat.mul_le_mul_left _ hij
        _ ≤ count * j + k := Nat.le_add_right _ _
    · left
      calc count * j + k < count * j + count := by omega
        _ = count * (j + 1) := (Nat.mul_succ _ _).symm
        _ ≤ count * i := Nat.mul_le_mul_left _ hji

theorem lowHalf_joinHalves (low high : UInt32) : lowHalf (joinHalves low high) = low := by
  have hl := low.toNat_lt
  have hh := high.toNat_lt
  apply UInt32.toNat_inj.1
  simp only [lowHalf, joinHalves, UInt32.toNat_ofNat', UInt64.toNat_ofNat']
  omega

theorem highHalf_joinHalves (low high : UInt32) : highHalf (joinHalves low high) = high := by
  have hl := low.toNat_lt
  have hh := high.toNat_lt
  apply UInt32.toNat_inj.1
  simp only [highHalf, joinHalves, UInt32.toNat_ofNat', UInt64.toNat_ofNat']
  omega

/-- A word is its halves joined. -/
theorem joinHalves_halves (word : UInt64) : joinHalves (lowHalf word) (highHalf word) = word := by
  have hword := word.toNat_lt
  rw [← UInt64.toNat_inj]
  simp only [lowHalf, highHalf, joinHalves, UInt32.toNat_ofNat', UInt64.toNat_ofNat']
  omega

instance : LawfulRecord Binary64 where
  size_set w i x := by simp [set]
  get_set_self w i x h := by
    have hi : i < w.size := by
      simp only [bytes, Words.byteSize] at h
      omega
    simp [get, set, hi]
  get_set_of_ne w i j x h := by
    simp [get, set, Array.getD_eq_getD_getElem?, Array.getElem?_setIfInBounds_ne h]

instance : LawfulRecord UInt32 where
  size_set w i x := by simp [set]
  get_set_self w i x h := by
    have hi : i / 2 < w.size := by
      simp only [bytes, Words.byteSize] at h
      omega
    by_cases hp : i % 2 = 0
    · simp [get, set, hi, hp, Array.getElem_modify_self, lowHalf_joinHalves]
    · simp [get, set, hi, hp, Array.getElem_modify_self, highHalf_joinHalves]
  get_set_of_ne w i j x h := by
    by_cases hw : i / 2 = j / 2
    · -- Both halves of one word: the parities differ, and each write keeps the other half.
      have hp : i % 2 ≠ j % 2 := by omega
      by_cases hj : j / 2 < w.size
      · by_cases h0 : i % 2 = 0
        · have h1 : j % 2 ≠ 0 := by omega
          simp [get, set, hw, hj, h0, h1, Array.getElem_modify_self, highHalf_joinHalves]
        · have h1 : j % 2 = 0 := by omega
          simp [get, set, hw, hj, h0, h1, Array.getElem_modify_self, lowHalf_joinHalves]
      · simp [get, set, hw, hj]
    · simp [get, set, Array.getD_eq_getD_getElem?, Array.getElem?_modify, hw]

/-! ## Runs of records -/

variable {α : Type} [Record α]

theorem size_getAll (w : Words) (count : Nat) : (getAll α w count).size = count := by
  simp [getAll]

/-- As many records are there as the bytes have room for. -/
theorem check_eq_ok_iff (w : Words) (count : Nat) :
    check α w count = .ok () ↔ count * bytes α ≤ Words.byteSize w := by
  unfold check
  split
  · next h => simp; omega
  · next h => simp; omega

variable [LawfulRecord α]

theorem size_setFrom (w : Words) (i : Nat) (as : List α) : (setFrom w i as).size = w.size := by
  induction as generalizing w i with
  | nil => rfl
  | cons a as ih => rw [setFrom, ih, LawfulRecord.size_set]

@[simp] theorem size_setAll (w : Words) (as : List α) : (setAll w as).size = w.size :=
  size_setFrom w 0 as

/-- Records in front of those that are written read as before. -/
theorem get_setFrom_of_lt (w : Words) (i j : Nat) (as : List α) (h : j < i) :
    get (setFrom w i as) j = (get w j : α) := by
  induction as generalizing w i with
  | nil => rfl
  | cons a as ih =>
      rw [setFrom, ih _ _ (by omega), LawfulRecord.get_set_of_ne _ _ _ _ (by omega)]

/-- Records that are written and fit are read back. -/
theorem get_setFrom_add (w : Words) (i k : Nat) (as : List α)
    (h : (i + as.length) * bytes α ≤ Words.byteSize w) (hk : k < as.length) :
    get (setFrom w i as) (i + k) = as[k] := by
  induction as generalizing w i k with
  | nil => simp at hk
  | cons a as ih =>
      rw [List.length_cons] at h hk
      cases k with
      | zero =>
          have hi : (i + 1) * bytes α ≤ Words.byteSize w :=
            Nat.le_trans (Nat.mul_le_mul_right _ (by omega)) h
          show get (setFrom (set w i a) (i + 1) as) i = a
          rw [get_setFrom_of_lt _ _ _ _ (Nat.lt_succ_self i), LawfulRecord.get_set_self _ _ _ hi]
      | succ k =>
          have hs : Words.byteSize (set w i a) = Words.byteSize w := by
            simp only [Words.byteSize, LawfulRecord.size_set]
          have hl : (i + 1 + as.length) * bytes α ≤ Words.byteSize (set w i a) := by
            rw [hs]
            exact Nat.le_trans (Nat.mul_le_mul_right _ (by omega)) h
          rw [setFrom, List.getElem_cons_succ, ← ih (set w i a) (i + 1) k hl (by omega)]
          congr 1
          omega

/-- The records that were written to the front of a region are the ones it starts with. -/
theorem getAll_setAll (w : Words) (as : List α)
    (h : as.length * bytes α ≤ Words.byteSize w) :
    getAll α (setAll w as) as.length = as.toArray := by
  apply Array.ext
  · simp [getAll]
  · intro k h1 h2
    have hk : k < as.length := by simpa using h2
    have := get_setFrom_add w 0 k as (by simpa using h) hk
    simpa [getAll, setAll] using this

end Record

namespace Block

variable {α : Type} [Record α]

@[simp] theorem size_setRecords (b : Block) (w : Words) (records : Array α) :
    (b.setRecords w records).size = w.size := by
  simp [setRecords]

@[simp] theorem byteSize_setRecords (b : Block) (w : Words) (records : Array α) :
    Words.byteSize (b.setRecords w records) = Words.byteSize w := by
  simp [Words.byteSize]

theorem Fits.setRecords {b c : Block} {w : Words} {records : Array α} (h : c.Fits w) :
    c.Fits (b.setRecords w records) := h.congr (size_setRecords b w records)

@[simp] theorem size_records (b : Block) (w : Words) : (b.records α w).size = b.count α := by
  simp [records, Record.getAll]

/-- The records of a block lie inside its span. -/
theorem count_mul_bytes_le (b : Block) : b.count α * Record.bytes α ≤ b.span :=
  Nat.le_trans (Nat.div_mul_le_self _ _) (le_alignUp _)

variable [LawfulRecord α]

/-- Writing records to a block writes them to its part. -/
theorem part_setRecords {b : Block} {w : Words} (h : b.Fits w) (records : Array α) :
    b.part (b.setRecords w records) = Record.setAll (b.part w) records.toList :=
  part_put h (by rw [Record.size_setAll, size_part h])

/-- The records that are written to a block are the ones it holds. -/
theorem records_setRecords {b : Block} {w : Words} (h : b.Fits w) {records : Array α}
    (hs : records.size = b.count α) : b.records α (b.setRecords w records) = records := by
  have hb : records.toList.length * Record.bytes α ≤ Words.byteSize (b.part w) := by
    rw [byteSize_part h, Array.length_toList, hs]
    exact b.count_mul_bytes_le
  have := Record.getAll_setAll (b.part w) records.toList hb
  rw [Block.records, part_setRecords h, ← hs]
  simpa using this

/-- A block apart from one that is written keeps its records. -/
theorem part_setRecords_of_apart {b c : Block} {w : Words} (hb : b.Fits w) (hc : c.Fits w)
    (h : b.Apart c) (records : Array α) : c.part (b.setRecords w records) = c.part w :=
  part_put_of_apart hb.1 hc h (Nat.le_of_eq (by rw [Record.size_setAll, size_part hb]))

/-- The one record that is written to a block is read back. -/
theorem get_setRecords_singleton {b : Block} {w : Words} (h : b.Fits w)
    (hs : Record.bytes α ≤ b.span) (a : α) :
    Record.get (b.part (b.setRecords w #[a])) 0 = a := by
  rw [part_setRecords h]
  exact LawfulRecord.get_set_self _ 0 a (by rw [byteSize_part h]; simpa using hs)

end Block

end StageQp
