import StageQp.Proofs.Qp.Layout

/-!
# StageQp.Proofs.Storage.Agree

Regions of one size that hold the same words at some places, and at the others
any (`Words.AgreeOn`).  What is written to both keeps the agreement if it agrees
in turn, and a block with agreed places only holds the same words in both
(`AgreeOn.part_eq`).
-/

namespace StageQp

namespace Words

/-- The regions have the same size, and the same words at the places of `P`. -/
structure AgreeOn (P : Nat → Prop) (w v : Words) : Prop where
  size_eq : v.size = w.size
  getElem?_eq (i : Nat) (hi : P i) : v[i]? = w[i]?

namespace AgreeOn

variable {P : Nat → Prop} {w v : Words}

theorem refl (P : Nat → Prop) (w : Words) : AgreeOn P w w := ⟨rfl, fun _ _ => rfl⟩

/-- Words that agree on more agree on less. -/
theorem mono {Q : Nat → Prop} (h : AgreeOn P w v) (hq : ∀ i, Q i → P i) : AgreeOn Q w v :=
  ⟨h.size_eq, fun i hi => h.getElem?_eq i (hq i hi)⟩

/-- Where words agree, they read the same. -/
theorem getD_eq (h : AgreeOn P w v) {i : Nat} (hi : P i) : v.getD i 0 = w.getD i 0 := by
  rw [Array.getD_eq_getD_getElem?, Array.getD_eq_getD_getElem?, h.getElem?_eq i hi]

/-- Changing the same word in the same way keeps the agreement. -/
theorem modify (h : AgreeOn P w v) (i : Nat) (f : UInt64 → UInt64) :
    AgreeOn P (w.modify i f) (v.modify i f) where
  size_eq := by simp [h.size_eq]
  getElem?_eq k hk := by rw [Array.getElem?_modify, Array.getElem?_modify, h.getElem?_eq k hk]

theorem setIfInBounds (h : AgreeOn P w v) (i : Nat) (word : UInt64) :
    AgreeOn P (w.setIfInBounds i word) (v.setIfInBounds i word) where
  size_eq := by simp [h.size_eq]
  getElem?_eq k hk := by
    rw [Array.getElem?_setIfInBounds, Array.getElem?_setIfInBounds, h.getElem?_eq k hk, h.size_eq]

/-- Pasting what agrees at the places where it comes to stand. -/
theorem paste (h : AgreeOn P w v) {start : Nat} {p q : Words}
    (hp : AgreeOn (fun i => P (start + i)) p q) :
    AgreeOn P (w.paste start p) (v.paste start q) where
  size_eq := by simp [h.size_eq]
  getElem?_eq i hi := by
    by_cases hw : i < w.size
    · have hv : i < v.size := h.size_eq ▸ hw
      rw [getElem?_paste _ _ _ _ hw, getElem?_paste _ _ _ _ hv, hp.size_eq]
      split
      · next hin => exact hp.getElem?_eq _ (by rwa [Nat.add_sub_cancel' hin.1])
      · exact h.getElem?_eq i hi
    · rw [Array.getElem?_eq_none (by simpa [h.size_eq] using hw),
        Array.getElem?_eq_none (by simpa using hw)]

/-! ## Blocks -/

/-- Words that agree agree on the part of a block. -/
theorem part (h : AgreeOn P w v) (b : Block) :
    AgreeOn (fun i => P (b.firstWord + i)) (b.part w) (b.part v) where
  size_eq := by simp [Block.part, h.size_eq]
  getElem?_eq i hi := by
    rw [Block.part, Block.part, Array.getElem?_extract, Array.getElem?_extract, h.size_eq,
      h.getElem?_eq _ hi]

/-- A block in which all places agree holds the same in both. -/
theorem part_eq (h : AgreeOn P w v) {b : Block}
    (hb : ∀ i, b.firstWord ≤ i → i < b.pastWord → P i) : b.part v = b.part w := by
  apply Array.ext_getElem?
  intro i
  by_cases hi : b.firstWord + i < b.pastWord
  · exact (h.part b).getElem?_eq i (hb _ (Nat.le_add_right ..) hi)
  · rw [Array.getElem?_eq_none (by simp [Block.part]; omega),
      Array.getElem?_eq_none (by simp [Block.part]; omega)]

/-- Regions that agree off a block, and hold the same in it. -/
theorem of_part {b : Block} (hb : b.Fits w)
    (h : AgreeOn (fun i => P i ∧ ¬(b.firstWord ≤ i ∧ i < b.pastWord)) w v)
    (hp : b.part v = b.part w) : AgreeOn P w v where
  size_eq := h.size_eq
  getElem?_eq i hi := by
    by_cases hin : b.firstWord ≤ i ∧ i < b.pastWord
    · obtain ⟨k, rfl⟩ := Nat.exists_eq_add_of_le hin.1
      have hk : k < b.span / 8 := by
        have hpast := Block.pastWord_eq hb.1
        omega
      rw [← Block.getElem?_part hb hk, ← Block.getElem?_part (hb.congr h.size_eq) hk, hp]
    · exact h.getElem?_eq i ⟨hi, hin⟩

/-- Parts that agree are put to words that agree. -/
theorem put (h : AgreeOn P w v) (b : Block) {p q : Words}
    (hp : AgreeOn (fun i => P (b.firstWord + i)) p q) : AgreeOn P (b.put w p) (b.put v q) :=
  h.paste hp

theorem put_same (h : AgreeOn P w v) (b : Block) (p : Words) : AgreeOn P (b.put w p) (b.put v p) :=
  h.put b (.refl _ p)

/-! ## Entries of fields -/

theorem set (h : AgreeOn P w v) (kind : EntryKind) (i : Nat) (entry : kind.Entry) :
    AgreeOn P (Record.set w i entry) (Record.set v i entry) :=
  match kind with
  | .double => h.setIfInBounds _ _
  | .index => h.modify _ _

theorem setFrom (h : AgreeOn P w v) (kind : EntryKind) (i : Nat) (entries : List kind.Entry) :
    AgreeOn P (Record.setFrom w i entries) (Record.setFrom v i entries) := by
  induction entries generalizing w v i with
  | nil => exact h
  | cons entry entries ih => exact ih (h.set kind i entry) (i + 1)

/-- Writing the same records keeps the agreement. -/
theorem setRecords (h : AgreeOn P w v) (b : Block) (kind : EntryKind)
    (entries : Array kind.Entry) :
    AgreeOn P (b.setRecords w entries) (b.setRecords v entries) :=
  h.put b ((h.part b).setFrom kind 0 entries.toList)

end AgreeOn

end Words

end StageQp
