import StageQp.Linear.Matrix

/-!
# StageQp.Proofs.Linear.Matrix

Columns and matrices are what their entries are.
-/

namespace StageQp

variable {F : Type} {n : Nat}

/-- Columns with the same entries are the same. -/
theorem Coords.ext {v w : Coords F n} (h : ∀ i, v.entry i = w.entry i) : v = w :=
  Vector.ext fun i hi => h ⟨i, hi⟩

/-- A column is finite if every entry is. -/
theorem Coords.isFinite_iff [Scalar F] (x : Coords F n) :
    x.isFinite = true ↔ ∀ i, Scalar.isFinite (x.entry i) = true := by
  rw [isFinite, Vector.all_eq_true]
  exact ⟨fun h i => h i.val i.isLt, fun h i hi => h ⟨i, hi⟩⟩

/-- It is not if some entry is not. -/
theorem Coords.isFinite_eq_false_iff [Scalar F] (x : Coords F n) :
    x.isFinite = false ↔ ∃ i, Scalar.isFinite (x.entry i) = false := by
  rw [← Bool.not_eq_true, isFinite_iff, Classical.not_forall]
  simp only [Bool.not_eq_true]

end StageQp
