import Mathlib.Algebra.Ring.Nat
import StageQp.Proofs.Storage.Record
import StageQp.Storage.Carver

/-!
# StageQp.Proofs.Storage.Tiling

Blocks that lie one behind the other.  `Spaced` blocks leave no word to two of
them, so they can be handed out together (`checkSplit_of_spaced`); blocks that
tile a range are spaced and leave no word out.  What a carver gives out tiles
the bytes from its old cursor to its new one (`tiles_takeAll`).
-/

namespace StageQp

open Block (Fits Apart)

/-- The blocks start on words, lie one behind the other, and stay between
the bytes `start` and `stop`. -/
def Spaced : Nat → List Block → Nat → Prop
  | start, [], stop => start ≤ stop
  | start, b :: bs, stop => start ≤ b.offset ∧ b.offset % 8 = 0 ∧ Spaced b.stop bs stop

/-- The blocks start on words, each where the one in front of it ends, the first
at byte `start` and the last ending at byte `stop`. -/
def Tiles : Nat → List Block → Nat → Prop
  | start, [], stop => start = stop
  | start, b :: bs, stop => b.offset = start ∧ start % 8 = 0 ∧ Tiles b.stop bs stop

/-! ## Spaced blocks -/

theorem Block.le_stop (b : Block) : b.offset ≤ b.stop := Nat.le_add_right _ _

/-- An aligned block ends on a word. -/
theorem Block.stop_mod {b : Block} (h : b.offset % 8 = 0) : b.stop % 8 = 0 := by
  have := b.span_mod
  unfold stop
  omega

namespace Spaced

theorem le {start stop : Nat} {bs : List Block} (h : Spaced start bs stop) : start ≤ stop := by
  induction bs generalizing start with
  | nil => exact h
  | cons b bs ih => exact Nat.le_trans h.1 (Nat.le_trans b.le_stop (ih h.2.2))

/-- Blocks spaced between two offsets are so between any farther apart. -/
theorem mono {start start' stop stop' : Nat} {bs : List Block} (h : Spaced start bs stop)
    (hs : start' ≤ start) (he : stop ≤ stop') : Spaced start' bs stop' := by
  induction bs generalizing start start' with
  | nil => exact Nat.le_trans hs (Nat.le_trans h he)
  | cons b bs ih => exact ⟨Nat.le_trans hs h.1, h.2.1, ih h.2.2 (Nat.le_refl _)⟩

/-- Leaving blocks out keeps the others spaced. -/
theorem sublist {start stop : Nat} {bs cs : List Block} (h : Spaced start cs stop)
    (hs : bs.Sublist cs) : Spaced start bs stop := by
  induction hs generalizing start with
  | slnil => exact h
  | cons c _ ih => exact (ih h.2.2).mono (Nat.le_trans h.1 c.le_stop) (Nat.le_refl _)
  | cons_cons c _ ih => exact ⟨h.1, h.2.1, ih h.2.2⟩

/-- Every one of the blocks is aligned and lies between start and stop. -/
theorem bounds {start stop : Nat} {bs : List Block} (h : Spaced start bs stop) {b : Block}
    (hb : b ∈ bs) : start ≤ b.offset ∧ b.offset % 8 = 0 ∧ b.stop ≤ stop := by
  induction bs generalizing start with
  | nil => cases hb
  | cons c cs ih =>
      rcases List.mem_cons.1 hb with rfl | hb
      · exact ⟨h.1, h.2.1, h.2.2.le⟩
      · have := ih h.2.2 hb
        exact ⟨Nat.le_trans h.1 (Nat.le_trans c.le_stop this.1), this.2⟩

/-- Blocks spaced within the words fit. -/
theorem fits {start : Nat} {bs : List Block} {w : Words}
    (h : Spaced start bs (Words.byteSize w)) {b : Block} (hb : b ∈ bs) : b.Fits w :=
  (h.bounds hb).2

/-- Each block ends in front of all behind it. -/
theorem pairwise {start stop : Nat} {bs : List Block} (h : Spaced start bs stop) :
    bs.Pairwise fun b c => b.stop ≤ c.offset := by
  induction bs generalizing start with
  | nil => exact .nil
  | cons b bs ih => exact .cons (fun c hc => (h.2.2.bounds hc).1) (ih h.2.2)

/-- Blocks at two places of the list have no word in common. -/
theorem apart {start stop : Nat} {bs : List Block} (h : Spaced start bs stop) {i j : Nat}
    {b c : Block} (hb : bs[i]? = some b) (hc : bs[j]? = some c) (hij : i ≠ j) : b.Apart c := by
  obtain ⟨hi, rfl⟩ := List.getElem?_eq_some_iff.1 hb
  obtain ⟨hj, rfl⟩ := List.getElem?_eq_some_iff.1 hc
  have hp := List.pairwise_iff_getElem.1 h.pairwise
  rcases Nat.lt_or_gt_of_ne hij with hlt | hgt
  · exact .inl (hp i j hi hj hlt)
  · exact .inr (hp j i hj hi hgt)

end Spaced

/-! ## Handing out spaced blocks -/

namespace Block

/-- A block behind all others is inserted at the end. -/
theorem insertByOffset_of_le {b : Block} {bs : List Block} (h : ∀ c ∈ bs, c.offset ≤ b.offset) :
    insertByOffset b bs = bs ++ [b] := by
  induction bs with
  | nil => rfl
  | cons c cs ih =>
      rw [insertByOffset, if_pos (h c (List.mem_cons_self ..)),
        ih fun d hd => h d (List.mem_cons_of_mem _ hd), List.cons_append]

/-- Blocks in order are sorted already. -/
theorem sortByOffset_of_pairwise {bs : List Block}
    (h : bs.Pairwise fun b c => b.offset ≤ c.offset) : sortByOffset bs = bs := by
  suffices H : ∀ (done : List Block), (done ++ bs).Pairwise (fun b c => b.offset ≤ c.offset) →
      bs.foldl (fun sorted b => insertByOffset b sorted) done = done ++ bs by
    simpa [sortByOffset] using H [] (by simpa using h)
  clear h
  intro done hp
  induction bs generalizing done with
  | nil => simp
  | cons b bs ih =>
      have hb : ∀ c ∈ done, c.offset ≤ b.offset := fun c hc =>
        (List.pairwise_append.1 hp).2.2 c hc b (List.mem_cons_self ..)
      rw [List.foldl_cons, insertByOffset_of_le hb, ih _ (by simpa using hp)]
      simp

/-- Blocks that pass their checks pass them together. -/
theorem checkAll_of_forall {capacity : Nat} {bs : List Block}
    (h : ∀ b ∈ bs, b.check capacity = .ok ()) : checkAll capacity bs = .ok () := by
  induction bs with
  | nil => rfl
  | cons b bs ih =>
      rw [checkAll, h b (List.mem_cons_self ..)]
      exact ih fun c hc => h c (List.mem_cons_of_mem _ hc)

/-- Spaced blocks are apart. -/
theorem checkApart_of_spaced {start stop consumed : Nat} {bs : List Block}
    (h : Spaced start bs stop) (hc : consumed ≤ start / 8) : checkApart consumed bs = .ok () := by
  induction bs generalizing start consumed with
  | nil => rfl
  | cons b bs ih =>
      have hb : ¬b.firstWord < consumed := by
        have := h.1
        unfold firstWord
        omega
      rw [checkApart, if_neg hb]
      exact ih h.2.2 (Nat.le_refl _)

end Block

/-- A region can be split into blocks spaced within it. -/
theorem checkSplit_of_spaced {w : Words} {bs : List Block}
    (h : Spaced 0 bs (Words.byteSize w)) : w.checkSplit bs = .ok () := by
  have hs : bs.Pairwise fun b c => b.offset ≤ c.offset :=
    h.pairwise.imp fun hbc => Nat.le_trans (Block.le_stop _) hbc
  rw [Words.checkSplit, Block.checkAll_of_forall fun b hb => (h.fits hb).check,
    Block.sortByOffset_of_pairwise hs]
  exact Block.checkApart_of_spaced h (Nat.zero_le _)

/-- Blocks that are handed out together fit. -/
theorem fits_of_checkSplit {w : Words} {bs : List Block} (h : w.checkSplit bs = .ok ()) {b : Block}
    (hb : b ∈ bs) : b.Fits w := by
  rw [Words.checkSplit] at h
  cases hall : Block.checkAll (Words.byteSize w) bs with
  | error f =>
      rw [hall] at h
      cases h
  | ok u => exact (Block.check_eq_ok_iff _ _).1 (Block.check_of_checkAll hall hb)

/-! ## Tilings -/

namespace Tiles

/-- Blocks that tile are spaced. -/
theorem spaced {start stop : Nat} {bs : List Block} (h : Tiles start bs stop) :
    Spaced start bs stop := by
  induction bs generalizing start with
  | nil => exact Nat.le_of_eq h
  | cons b bs ih =>
      obtain ⟨rfl, hm, ht⟩ := h
      exact ⟨Nat.le_refl _, hm, ih ht⟩

/-- A tiling ends on a word if it starts on one. -/
theorem stop_mod {start stop : Nat} {bs : List Block} (h : Tiles start bs stop)
    (hs : start % 8 = 0) : stop % 8 = 0 := by
  induction bs generalizing start with
  | nil =>
      rw [← show start = stop from h]
      exact hs
  | cons b bs ih =>
      obtain ⟨rfl, hm, ht⟩ := h
      exact ih ht (Block.stop_mod hm)

/-- A tiling ends inside every region that its blocks fit into. -/
theorem stop_le {start stop : Nat} {bs : List Block} (h : Tiles start bs stop) {n : Nat}
    (hstart : start ≤ n) (hfit : ∀ b ∈ bs, b.stop ≤ n) : stop ≤ n := by
  induction bs generalizing start with
  | nil => exact Nat.le_trans (Nat.le_of_eq h.symm) hstart
  | cons b bs ih =>
      exact ih h.2.2 (hfit b (List.mem_cons_self ..)) fun c hc => hfit c (List.mem_cons_of_mem _ hc)

/-- Every byte of the range is in the span of a block. -/
theorem exists_mem {start stop : Nat} {bs : List Block} (h : Tiles start bs stop) {x : Nat}
    (hlo : start ≤ x) (hhi : x < stop) : ∃ b ∈ bs, b.offset ≤ x ∧ x < b.stop := by
  induction bs generalizing start with
  | nil => exact absurd (Nat.lt_of_le_of_lt hlo hhi) (Nat.not_lt.2 (Nat.le_of_eq h.symm))
  | cons b bs ih =>
      obtain ⟨rfl, -, ht⟩ := h
      rcases Nat.lt_or_ge x b.stop with hx | hx
      · exact ⟨b, List.mem_cons_self .., hlo, hx⟩
      · obtain ⟨c, hc, hin⟩ := ih ht hx
        exact ⟨c, List.mem_cons_of_mem _ hc, hin⟩

end Tiles

namespace Carver

/-- Giving out a block moves the cursor by its padded bytes. -/
theorem cursor_take (c : Carver) (bytes : Nat) :
    (c.take bytes).2.cursor = c.cursor + alignUp bytes := rfl

/-- Every block moves the cursor past its length rounded up to whole words. -/
theorem cursor_takeAll (c : Carver) (lengths : List Nat) :
    (c.takeAll lengths).2.cursor = c.cursor + (lengths.map alignUp).sum := by
  induction lengths generalizing c with
  | nil => simp [takeAll]
  | cons bytes rest ih => simp [takeAll, take, ih, Block.stop, Block.span]; omega

/-- Blocks given out one after another tile what they take. -/
theorem tiles_takeAll {c : Carver} (h : c.cursor % 8 = 0) (lengths : List Nat) :
    Tiles c.cursor (c.takeAll lengths).1 (c.takeAll lengths).2.cursor := by
  induction lengths generalizing c with
  | nil => rfl
  | cons bytes rest ih =>
      have hm : (c.take bytes).2.cursor % 8 = 0 := by
        have := alignUp_mod bytes
        rw [cursor_take]
        omega
      exact ⟨rfl, h, ih hm⟩

/-- Blocks are given out with the lengths asked for. -/
theorem map_len_takeAll (c : Carver) (lengths : List Nat) :
    (c.takeAll lengths).1.map Block.len = lengths := by
  induction lengths generalizing c with
  | nil => rfl
  | cons bytes rest ih => simp [takeAll, take, ih]

/-- Carving ends if the cursor is at the computed size. -/
theorem finish_eq_ok {c : Carver} {expected : Nat} (h : c.cursor = expected) :
    c.finish expected = .ok expected := by
  simp [finish, h]

end Carver

end StageQp
