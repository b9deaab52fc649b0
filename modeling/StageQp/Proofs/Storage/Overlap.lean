import Mathlib.Logic.Equiv.Basic
import StageQp.Proofs.Storage.Split

/-!
# StageQp.Proofs.Storage.Overlap

Which blocks that fit are refused together.  Blocks that have bytes are refused exactly
if two of them share one, in whatever order they are given.  A block without bytes
shares none, but it has a place, and that may lie inside another block: there it is
refused all the same.  At the start of another block it depends on the order: it is
handed out in front of that block, and refused behind it (`overlap_exact`).
-/

namespace StageQp

variable {n : Nat}

namespace Block

/-- Some byte belongs to both blocks. -/
def ShareByte (b c : Block) : Prop :=
  ∃ x, (b.offset ≤ x ∧ x < b.offset + b.len) ∧ c.offset ≤ x ∧ x < c.offset + c.len

/-- A block without bytes whose place is inside the span of the other. -/
def EmptyInside (c b : Block) : Prop := c.len = 0 ∧ b.offset < c.offset ∧ c.offset < b.stop

/-- A block without bytes whose place is the start of the other, which has bytes. -/
def EmptyAtStart (c b : Block) : Prop := c.len = 0 ∧ 0 < b.len ∧ c.offset = b.offset

instance (c b : Block) : Decidable (EmptyAtStart c b) := by unfold EmptyAtStart; infer_instance

/-- Of two blocks that start on words and have bytes, the one that starts inside the span of
the other shares its first byte. -/
theorem shareByte_iff {b c : Block} (hb : b.offset % 8 = 0) (hc : c.offset % 8 = 0) :
    b.ShareByte c ↔ (0 < b.len ∧ 0 < c.len) ∧ b.offset < c.stop ∧ c.offset < b.stop := by
  simp only [stop, span, alignUp]
  constructor
  · rintro ⟨x, hxb, hxc⟩
    omega
  · intro h
    exact ⟨max b.offset c.offset, by omega, by omega⟩

/-- What is gone through behind a block and before its end. -/
theorem before_and_lt_stop_iff {blocks : Vector Block n} {i j : Fin n}
    (hi : (blocks.get i).offset % 8 = 0) (hj : (blocks.get j).offset % 8 = 0) :
    Before blocks i j ∧ (blocks.get j).offset < (blocks.get i).stop ↔
      Before blocks i j ∧ ((blocks.get i).ShareByte (blocks.get j) ∨
        EmptyInside (blocks.get j) (blocks.get i) ∨
          EmptyAtStart (blocks.get j) (blocks.get i) ∧ i < j) := by
  rw [shareByte_iff hi hj]
  simp only [Before, EmptyInside, EmptyAtStart, stop, span, alignUp]
  omega

/-- Some block is overlapped if two share a byte, or one without bytes is inside
another or given behind one that it is at the start of. -/
theorem exists_overlapped_iff {blocks : Vector Block n}
    (halign : ∀ i : Fin n, (blocks.get i).offset % 8 = 0) :
    (∃ j, Overlapped blocks j) ↔ ∃ i j : Fin n, i ≠ j ∧
      ((blocks.get i).ShareByte (blocks.get j) ∨ EmptyInside (blocks.get j) (blocks.get i) ∨
        EmptyAtStart (blocks.get j) (blocks.get i) ∧ i < j) := by
  constructor
  · rintro ⟨j, i, hij⟩
    have hpair := (before_and_lt_stop_iff (halign i) (halign j)).1 hij
    refine ⟨i, j, ?_, hpair.2⟩
    rintro rfl
    exact hij.1.asymm hij.1
  · rintro ⟨i, j, hne, hpair⟩
    rcases before_or_before blocks hne with hij | hji
    · exact ⟨j, i, (before_and_lt_stop_iff (halign i) (halign j)).2 ⟨hij, hpair⟩⟩
    · -- Only two blocks that share a byte can be gone through the other way round.
      refine ⟨i, j, hji, ?_⟩
      rw [shareByte_iff (halign i) (halign j)] at hpair
      simp only [Before, EmptyInside, EmptyAtStart] at *
      omega

end Block

namespace Words

open Block (ShareByte EmptyInside EmptyAtStart Overlapped)

/-- The entries in another order. -/
def reorder {α : Type} (σ : Equiv.Perm (Fin n)) (xs : Vector α n) : Vector α n :=
  Vector.ofFn fun i => xs.get (σ i)

/-- A reordered vector is read through the permutation. -/
@[simp] theorem get_reorder {α : Type} (σ : Equiv.Perm (Fin n)) (xs : Vector α n)
    (i : Fin n) : (reorder σ xs).get i = xs.get (σ i) := by
  simp [reorder]

/-- Reordered blocks have reordered views. -/
theorem reorder_map (σ : Equiv.Perm (Fin n)) (blocks : Vector Block n) :
    (reorder σ blocks).map Block.view = reorder σ (blocks.map Block.view) := by
  apply Vector.ext
  intro i hi
  simp [reorder, Vector.get_eq_getElem]

variable {w : Words} {blocks : Vector Block n}

/-- Of blocks that are handed out in one order, only those without bytes can be refused in
another, for standing behind one that they are at the start of. -/
theorem views_reorder_iff {views : Vector View n} (h : w.views blocks = .ok views)
    (σ : Equiv.Perm (Fin n)) : w.views (reorder σ blocks) = .ok (reorder σ views) ↔
      ∀ i j : Fin n, i < j → ¬EmptyAtStart (blocks.get (σ j)) (blocks.get (σ i)) := by
  obtain ⟨rfl, hfit, hover⟩ := views_eq_ok_iff.1 h
  have hnone := mt (Block.exists_overlapped_iff fun i => (hfit i).1).2 (not_exists.2 hover)
  have hreorder (i : Fin n) : ((reorder σ blocks).get i).offset % 8 = 0 := by
    rw [get_reorder]
    exact (hfit (σ i)).1
  have hsome := Block.exists_overlapped_iff hreorder
  simp only [get_reorder] at hsome
  rw [views_eq_ok_iff, ← not_exists, hsome]
  constructor
  · rintro ⟨-, -, hno⟩ i j hij hempty
    exact hno ⟨i, j, Fin.ne_of_lt hij, .inr (.inr ⟨hempty, hij⟩)⟩
  · intro hempty
    have hfits (i : Fin n) : ((reorder σ blocks).get i).Fits w := by
      rw [get_reorder]
      exact hfit (σ i)
    refine ⟨(reorder_map σ blocks).symm, hfits, ?_⟩
    rintro ⟨i, j, hij, hshare | hinside | ⟨hstart, hlt⟩⟩
    · exact hnone ⟨σ i, σ j, σ.injective.ne hij, .inl hshare⟩
    · exact hnone ⟨σ i, σ j, σ.injective.ne hij, .inr (.inl hinside)⟩
    · exact hempty i j hlt hstart

/-- Blocks that fit are refused for an overlap and nothing else, and that exactly if two of
them share a byte, or one without bytes is inside another, or is given behind one
that it is at the start of.  Only the last of these depends on the order, so blocks that
are handed out in one order are handed out in all that avoid it, each with its part. -/
theorem overlap_exact (hfit : ∀ i : Fin n, (blocks.get i).Fits w) :
    (∀ f, w.views blocks = .error f → ∃ j : Fin n, f = .overlap (blocks.get j).offset) ∧
    ((∃ f, w.views blocks = .error f) ↔ ∃ i j : Fin n, i ≠ j ∧
      (ShareByte (blocks.get i) (blocks.get j) ∨ EmptyInside (blocks.get j) (blocks.get i) ∨
        EmptyAtStart (blocks.get j) (blocks.get i) ∧ i < j)) ∧
    ∀ (σ : Equiv.Perm (Fin n)) (views : Vector View n), w.views blocks = .ok views →
      (w.views (reorder σ blocks) = .ok (reorder σ views) ↔
        ∀ i j : Fin n, i < j → ¬EmptyAtStart (blocks.get (σ j)) (blocks.get (σ i))) := by
  have hfault {f : Fault} (h : w.views blocks = .error f) :
      ∃ j, Overlapped blocks j ∧ f = .overlap (blocks.get j).offset := by
    cases views_eq_error_iff.1 h with
    | misaligned i _ hmis => exact absurd (hfit i).1 hmis
    | outOfBounds i _ _ hpast => exact absurd (hfit i).2 (Nat.not_le.2 hpast)
    | overlap _ j hj _ => exact ⟨j, hj, rfl⟩
  refine ⟨fun f h => ?_, ?_, fun σ views h => views_reorder_iff h σ⟩
  · obtain ⟨j, -, hf⟩ := hfault h
    exact ⟨j, hf⟩
  · rw [← Block.exists_overlapped_iff fun i => (hfit i).1]
    constructor
    · rintro ⟨f, h⟩
      obtain ⟨j, hj, -⟩ := hfault h
      exact ⟨j, hj⟩
    · rintro ⟨j, hj⟩
      rcases fits_or_refused w blocks with ⟨-, hover⟩ | ⟨f, hf⟩
      · exact absurd hj (hover j)
      · exact ⟨f, views_of_refused hf⟩

/-- An empty block is given in front of the one that it is at the start of.  Exchanged with
that one it is refused; another block may come to stand between them. -/
theorem overlap_exact_threeBlocks :
    (∀ i : Fin 3, ((#v[⟨8, 0⟩, ⟨8, 8⟩, ⟨0, 5⟩] : Vector Block 3).get i).Fits (.zeroed 16)) ∧
      (zeroed 16).views #v[⟨8, 0⟩, ⟨8, 8⟩, ⟨0, 5⟩] = .ok #v[⟨1, 0⟩, ⟨1, 1⟩, ⟨0, 1⟩] ∧
      (zeroed 16).views #v[⟨8, 8⟩, ⟨8, 0⟩, ⟨0, 5⟩] ≠ .ok #v[⟨1, 1⟩, ⟨1, 0⟩, ⟨0, 1⟩] ∧
      (zeroed 16).views #v[⟨8, 0⟩, ⟨0, 5⟩, ⟨8, 8⟩] = .ok #v[⟨1, 0⟩, ⟨0, 1⟩, ⟨1, 1⟩] := by
  have hfit (i : Fin 3) :
      ((#v[⟨8, 0⟩, ⟨8, 8⟩, ⟨0, 5⟩] : Vector Block 3).get i).Fits (.zeroed 16) := by
    revert i
    decide
  have hviews : (zeroed 16).views #v[⟨8, 0⟩, ⟨8, 8⟩, ⟨0, 5⟩] =
      .ok #v[⟨1, 0⟩, ⟨1, 1⟩, ⟨0, 1⟩] := rfl
  have hreorder := (overlap_exact hfit).2.2
  refine ⟨hfit, hviews, ?_, (hreorder (Equiv.swap 1 2) _ hviews).2 (by decide)⟩
  exact mt (hreorder (Equiv.swap 0 1) _ hviews).1 (by decide)

/-- Blocks that share no byte can be refused for an overlap, and the order of the blocks
can decide it. -/
theorem overlap_without_sharedByte :
    (zeroed 16).views #v[⟨0, 16⟩, ⟨8, 0⟩] = .error (.overlap 8) ∧
      ¬ShareByte ⟨0, 16⟩ ⟨8, 0⟩ ∧
      (zeroed 16).views #v[⟨0, 0⟩, ⟨0, 16⟩] = .ok #v[⟨0, 0⟩, ⟨0, 2⟩] ∧
      (zeroed 16).views #v[⟨0, 16⟩, ⟨0, 0⟩] = .error (.overlap 0) := by
  refine ⟨rfl, ?_, rfl, rfl⟩
  rintro ⟨x, -, hlow, hhigh⟩
  simp only at hlow hhigh
  omega

end Words

end StageQp
