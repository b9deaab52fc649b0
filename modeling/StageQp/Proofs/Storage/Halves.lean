import StageQp.Proofs.Storage.Agree

/-!
# StageQp.Proofs.Storage.Halves

Regions half word by half word.  The smallest record that shares a word with
another takes half of it, so what a write of records touches is said in half words
of 32 bits: it changes those that the records take, and no other
(`Block.changesOnly_setRecords`).  The half word behind an odd number of indices
stays as it is.
-/

namespace StageQp

namespace Words

/-- Half word number `i` of a region. -/
def half (w : Words) (i : Nat) : UInt32 := Record.get w i

/-- The half of a word depends on the word and on which half it is. -/
theorem half_congr {w v : Words} {i j : Nat} (h : w.getD (i / 2) 0 = v.getD (j / 2) 0)
    (hp : i % 2 = j % 2) : w.half i = v.half j := by
  show (if i % 2 = 0 then Record.lowHalf (w.getD (i / 2) 0) else Record.highHalf _) =
    if j % 2 = 0 then Record.lowHalf (v.getD (j / 2) 0) else Record.highHalf _
  rw [hp, h]

theorem half_congr_word {w v : Words} {i j : Nat} (h : w[i / 2]? = v[j / 2]?)
    (hp : i % 2 = j % 2) : w.half i = v.half j :=
  half_congr (Record.getD_of_getElem?_eq h) hp

theorem half_two_mul (w : Words) (i : Nat) : w.half (2 * i) = Record.lowHalf (w.getD i 0) := by
  show (if 2 * i % 2 = 0 then Record.lowHalf (w.getD (2 * i / 2) 0) else Record.highHalf _) = _
  rw [if_pos (by omega), Nat.mul_div_cancel_left i (by decide)]

theorem half_two_mul_add_one (w : Words) (i : Nat) :
    w.half (2 * i + 1) = Record.highHalf (w.getD i 0) := by
  have hi : (2 * i + 1) / 2 = i := by omega
  show (if (2 * i + 1) % 2 = 0 then _ else Record.highHalf (w.getD ((2 * i + 1) / 2) 0)) = _
  rw [if_neg (by omega), hi]

/-- The regions have the same size, and differ in half words of `P` only. -/
structure ChangesOnly (P : Nat → Prop) (w v : Words) : Prop where
  size_eq : v.size = w.size
  half_eq (i : Nat) (hi : ¬P i) : v.half i = w.half i

namespace ChangesOnly

variable {P Q : Nat → Prop} {w v u : Words}

theorem refl (P : Nat → Prop) (w : Words) : ChangesOnly P w w := ⟨rfl, fun _ _ => rfl⟩

theorem symm (h : ChangesOnly P w v) : ChangesOnly P v w :=
  ⟨h.size_eq.symm, fun i hi => (h.half_eq i hi).symm⟩

theorem trans (h : ChangesOnly P w v) (g : ChangesOnly P v u) : ChangesOnly P w u :=
  ⟨g.size_eq.trans h.size_eq, fun i hi => (g.half_eq i hi).trans (h.half_eq i hi)⟩

theorem mono (h : ChangesOnly P w v) (hq : ∀ i, P i → Q i) : ChangesOnly Q w v :=
  ⟨h.size_eq, fun i hi => h.half_eq i (mt (hq i) hi)⟩

/-- Regions with the same words at all other places. -/
theorem of_agreeOn (h : AgreeOn Q w v) (hq : ∀ i, ¬P i → Q (i / 2)) : ChangesOnly P w v :=
  ⟨h.size_eq, fun i hi => half_congr_word (h.getElem?_eq _ (hq i hi)) rfl⟩

/-- A word is made out by its two halves. -/
theorem agreeOn (h : ChangesOnly P w v) (hq : ∀ i, Q i → ¬P (2 * i) ∧ ¬P (2 * i + 1)) :
    AgreeOn Q w v where
  size_eq := h.size_eq
  getElem?_eq i hi := by
    have hlow : Record.lowHalf (v.getD i 0) = Record.lowHalf (w.getD i 0) := by
      have hhalf := h.half_eq (2 * i) (hq i hi).1
      rwa [half_two_mul, half_two_mul] at hhalf
    have hhigh : Record.highHalf (v.getD i 0) = Record.highHalf (w.getD i 0) := by
      have hhalf := h.half_eq (2 * i + 1) (hq i hi).2
      rwa [half_two_mul_add_one, half_two_mul_add_one] at hhalf
    have hword : v.getD i 0 = w.getD i 0 := by
      rw [← Record.joinHalves_halves (v.getD i 0), hlow, hhigh, Record.joinHalves_halves]
    by_cases hw : i < w.size
    · have hv : i < v.size := h.size_eq ▸ hw
      rw [Array.getElem?_eq_getElem hv, Array.getElem?_eq_getElem hw]
      simpa [Array.getD_eq_getD_getElem?, hv, hw] using hword
    · rw [Array.getElem?_eq_none (by simpa [h.size_eq] using hw),
        Array.getElem?_eq_none (Nat.not_lt.1 hw)]

end ChangesOnly

end Words

/-! ## Records that take no half word but their own -/

/-- A lawful type of records whose writes stay in the bytes of the record. -/
class LocalRecord (α : Type) [Record α] : Prop extends LawfulRecord α where
  half_set (w : Words) (i k : Nat) (a : α)
    (h : 4 * k + 4 ≤ i * Record.bytes α ∨ (i + 1) * Record.bytes α ≤ 4 * k) :
    (Record.set w i a).half k = w.half k

namespace Record

instance : LocalRecord UInt32 where
  half_set w i k a h := by
    refine LawfulRecord.get_set_of_ne w i k a ?_
    simp only [bytes] at h
    omega

instance : LocalRecord Binary64 where
  half_set w i k x h := by
    refine Words.half_congr_word ?_ rfl
    have hne : i ≠ k / 2 := by
      simp only [bytes] at h
      omega
    exact Array.getElem?_setIfInBounds_ne hne

instance (kind : EntryKind) : LocalRecord kind.Entry :=
  match kind with
  | .double => inferInstanceAs (LocalRecord Binary64)
  | .index => inferInstanceAs (LocalRecord UInt32)

/-- Records of whole words take no other word. -/
theorem half_set_ofWords {α : Type} {count : Nat} {name : String} {read : (Nat → UInt64) → α}
    {write : α → List UInt64} (hlen : ∀ a, (write a).length = count) (w : Words) (i k : Nat)
    (a : α) (h : 4 * k + 4 ≤ i * (8 * count) ∨ (i + 1) * (8 * count) ≤ 4 * k) :
    ((ofWords count name read write).set w i a).half k = w.half k := by
  refine Words.half_congr_word (Words.getElem?_paste_of_outside _ _ _ _ ?_) rfl
  have hi : i * (8 * count) = 8 * (count * i) := by rw [Nat.mul_left_comm, Nat.mul_comm i]
  rw [Nat.succ_mul i, hi] at h
  simp only [List.size_toArray, hlen]
  omega

/-- An entry makes out the half words it takes. -/
theorem half_eq_of_get {kind : EntryKind} {w v : Words} {i k : Nat}
    (h : (get v i : kind.Entry) = get w i) (hlo : i * bytes kind.Entry ≤ 4 * k)
    (hhi : 4 * k < (i + 1) * bytes kind.Entry) : v.half k = w.half k := by
  cases kind with
  | double =>
      obtain rfl : k / 2 = i := by
        simp only [bytes] at hlo hhi
        omega
      exact Words.half_congr (congrArg Binary64.bits h) rfl
  | index =>
      obtain rfl : k = i := by
        simp only [bytes] at hlo hhi
        omega
      exact h

variable {α : Type} [Record α] [LocalRecord α]

/-- Writing records changes no half word outside them. -/
theorem half_setFrom (w : Words) (i k : Nat) (as : List α)
    (h : 4 * k + 4 ≤ i * bytes α ∨ (i + as.length) * bytes α ≤ 4 * k) :
    (setFrom w i as).half k = w.half k := by
  induction as generalizing w i with
  | nil => rfl
  | cons a as ih =>
      have hle : (i + 1) * bytes α ≤ (i + (a :: as).length) * bytes α :=
        Nat.mul_le_mul_right _ (by simp)
      have hstep : i * bytes α ≤ (i + 1) * bytes α := Nat.mul_le_mul_right _ (Nat.le_succ i)
      rw [setFrom, ih, LocalRecord.half_set]
      · exact h.imp_right (Nat.le_trans hle)
      · refine h.imp (fun hk => Nat.le_trans hk hstep) fun hk => ?_
        rwa [List.length_cons, Nat.add_comm as.length, ← Nat.add_assoc] at hk

end Record

/-! ## Blocks -/

namespace Block

/-- The half word is one of the block's own bytes. -/
def HasHalf (b : Block) (i : Nat) : Prop := b.offset ≤ 4 * i ∧ 4 * i < b.offset + b.len

/-- The half word is behind the block's own bytes, in the last word it reaches into. -/
def PadsHalf (b : Block) (i : Nat) : Prop := b.offset + b.len ≤ 4 * i ∧ 4 * i < b.stop

instance (b : Block) (i : Nat) : Decidable (b.HasHalf i) := by unfold HasHalf; infer_instance

variable {b : Block} {w : Words}

/-- A half word of the span is one of the part's. -/
theorem half_part (h : b.Fits w) {i : Nat} (hi : i < b.span / 4) :
    (b.part w).half i = w.half (2 * b.firstWord + i) := by
  have hs := b.span_mod
  refine Words.half_congr_word ?_ (by omega)
  rw [getElem?_part h (by omega)]
  congr 1
  omega

/-- A block none of whose half words changes holds the same. -/
theorem part_eq_of_changesOnly {P : Nat → Prop} {v : Words} (h : Words.ChangesOnly P w v)
    (hb : ∀ i, b.firstWord ≤ i / 2 → i / 2 < b.pastWord → ¬P i) : b.part v = b.part w := by
  refine (h.agreeOn (Q := fun i => b.firstWord ≤ i ∧ i < b.pastWord) fun i hi => ?_).part_eq
    fun i hlo hhi => ⟨hlo, hhi⟩
  exact ⟨hb _ (by omega) (by omega), hb _ (by omega) (by omega)⟩

/-- The part changes in half words that change in the region. -/
theorem changesOnly_part {P Q : Nat → Prop} {v : Words} (h : b.Fits w)
    (hwv : Words.ChangesOnly P w v)
    (hq : ∀ i < b.span / 4, P (2 * b.firstWord + i) → Q i) :
    Words.ChangesOnly Q (b.part w) (b.part v) where
  size_eq := by rw [size_part h, size_part (h.congr hwv.size_eq)]
  half_eq i hi := by
    have hv := h.congr hwv.size_eq
    have hs := b.span_mod
    rcases Nat.lt_or_ge i (b.span / 4) with hin | hout
    · rw [half_part h hin, half_part hv hin, hwv.half_eq _ fun hp => hi (hq i hin hp)]
    · refine Words.half_congr_word ?_ rfl
      rw [Array.getElem?_eq_none, Array.getElem?_eq_none]
      · rw [size_part h]
        omega
      · rw [size_part hv]
        omega

/-- The half words of a part that was put are those of the block. -/
theorem half_put {p : Words} (h : b.Fits w) (hp : p.size = b.span / 8) {i : Nat}
    (hi : i < b.span / 4) : (b.put w p).half (2 * b.firstWord + i) = p.half i := by
  have hpart := part_put h hp
  rw [← half_part h.put hi, hpart]

/-- Half words that are not in the span stay. -/
theorem half_put_of_outside {p : Words} (hp : p.size = b.span / 8) {i : Nat}
    (hi : i < 2 * b.firstWord ∨ 2 * b.firstWord + b.span / 4 ≤ i) :
    (b.put w p).half i = w.half i := by
  have hs := b.span_mod
  exact Words.half_congr_word (Words.getElem?_paste_of_outside _ _ _ _ (by omega)) rfl

/-- Writing what differs in some half words of the part changes those of the region. -/
theorem changesOnly_put {P Q : Nat → Prop} {p : Words} (h : b.Fits w)
    (hp : Words.ChangesOnly P (b.part w) p) (hq : ∀ i, P i → Q (2 * b.firstWord + i)) :
    Words.ChangesOnly Q w (b.put w p) where
  size_eq := size_put b w p
  half_eq i hi := by
    have hsize : p.size = b.span / 8 := by rw [hp.size_eq, size_part h]
    by_cases hin : 2 * b.firstWord ≤ i ∧ i < 2 * b.firstWord + b.span / 4
    · obtain ⟨k, rfl⟩ := Nat.exists_eq_add_of_le hin.1
      have hk : k < b.span / 4 := by omega
      rw [half_put h hsize hk, hp.half_eq k fun hP => hi (hq k hP), half_part h hk]
    · exact half_put_of_outside hsize (by omega)

/-- Writing as many records as a block holds changes its own bytes and nothing else. -/
theorem changesOnly_setRecords {α : Type} [Record α] [LocalRecord α] (h : b.Fits w)
    {records : Array α} (hs : records.size = b.count α) :
    Words.ChangesOnly b.HasHalf w (b.setRecords w records) := by
  refine changesOnly_put (P := fun i => 4 * i < b.len) h
    ⟨Record.size_setAll _ _, fun i hi => ?_⟩ fun i hi => ?_
  · have hcount : b.count α * Record.bytes α ≤ b.len := Nat.div_mul_le_self _ _
    refine Record.half_setFrom _ 0 i _ (.inr ?_)
    rw [Nat.zero_add, Array.length_toList, hs]
    omega
  · have hmod := h.1
    unfold HasHalf firstWord
    omega

/-- A block of whole entries is made out by them, up to its last byte. -/
theorem half_eq_of_records {kind : EntryKind} {v : Words} (hw : b.Fits w) (hv : b.Fits v)
    (hlen : b.count kind.Entry * Record.bytes kind.Entry = b.len)
    (h : b.records kind.Entry v = b.records kind.Entry w) {i : Nat} (hi : b.HasHalf i) :
    v.half i = w.half i := by
  obtain ⟨hlo, hhi⟩ := hi
  have hoff := hw.1
  have hspan : b.len ≤ b.span := le_alignUp _
  have hsm := b.span_mod
  obtain ⟨k, rfl⟩ : ∃ k, i = 2 * b.firstWord + k := ⟨i - 2 * b.firstWord, by
    unfold firstWord
    omega⟩
  have hk : 4 * k < b.len := by
    unfold firstWord at hhi
    omega
  rw [← half_part hv (by omega), ← half_part hw (by omega)]
  -- the entry that takes the half word
  let m := 4 * k / Record.bytes kind.Entry
  have hm : m < b.count kind.Entry :=
    Nat.div_lt_of_lt_mul (by rwa [Nat.mul_comm (Record.bytes _), hlen])
  have hget := congrArg (fun entries => entries[m]?) h
  simp only [records, Record.getAll, Array.getElem?_map, Array.getElem?_range, if_pos hm,
    Option.map_some, Option.some.injEq] at hget
  refine Record.half_eq_of_get hget (Nat.div_mul_le_self _ _) ?_
  rw [Nat.mul_comm (m + 1)]
  exact Nat.lt_mul_div_succ (4 * k) kind.bytes_pos

end Block

end StageQp
