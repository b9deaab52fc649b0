import Mathlib.LinearAlgebra.Matrix.NonsingularInverse
import Mathlib.Tactic.FieldSimp
import Mathlib.Tactic.Linarith
import Mathlib.Tactic.Ring
import StageQp.Linear.Refine
import StageQp.Proofs.Linear.Matrix

/-!
# StageQp.Proofs.Linear.Exact

The dense kernel over an exact ordered field.  The scalar operations are those
of the field (`Exact.scalar`), a column is the vector of its entries, and a
square matrix is a matrix in the sense of linear algebra (`Square.toMatrix`).
What neither divides nor compares can be read over any commutative ring
(`Exact.ofRing`).

Read this way, the residual is the right-hand side less the matrix times the
solution (`residual_entry`), and its norm is zero where it vanishes.
-/

namespace StageQp

/-! ## The scalar operations of a field -/

namespace Exact

/-- The operations of an ordered field, in which every element is finite. -/
@[reducible]
def scalar (F : Type) [Field F] [LinearOrder F] : Scalar F where
  zero := 0
  one := 1
  neg x := -x
  add x y := x + y
  sub x y := x - y
  mul x y := x * y
  div x y := x / y
  abs x := |x|
  lt x y := decide (x < y)
  le x y := decide (x ≤ y)
  eq x y := decide (x = y)
  isFinite _ := true

scoped instance instScalar (F : Type) [Field F] [LinearOrder F] : Scalar F := scalar F

/-- What the kernel asks of a scalar type beyond a ring.  No law ties any of it to the ring. -/
class Extras (F : Type) extends Div F where
  abs : F → F
  lt : F → F → Bool
  le : F → F → Bool
  eq : F → F → Bool
  isFinite : F → Bool

/-- The operations of a commutative ring, with whatever there is of the others. -/
scoped instance (priority := low) ofRing (F : Type) [CommRing F] [Extras F] : Scalar F where
  zero := 0
  one := 1
  neg x := -x
  add x y := x + y
  sub x y := x - y
  mul x y := x * y
  abs := Extras.abs
  lt := Extras.lt
  le := Extras.le
  eq := Extras.eq
  isFinite := Extras.isFinite

/-- An ordered field has them all. -/
scoped instance extras (F : Type) [Field F] [LinearOrder F] : Extras F where
  abs x := |x|
  lt x y := decide (x < y)
  le x y := decide (x ≤ y)
  eq x y := decide (x = y)
  isFinite _ := true

variable {F : Type} [Field F] [LinearOrder F] {x y : F}

@[simp] theorem abs_eq : Scalar.abs x = |x| := rfl

@[simp] theorem lt_iff : Scalar.lt x y = true ↔ x < y := decide_eq_true_iff

@[simp] theorem le_iff : Scalar.le x y = true ↔ x ≤ y := decide_eq_true_iff

@[simp] theorem eq_iff : Scalar.eq x y = true ↔ x = y := decide_eq_true_iff

end Exact

/-- The entries of a matrix as a matrix of linear algebra. -/
def Square.toMatrix {F : Type} {n : Nat} (a : Square F n) : Matrix (Fin n) (Fin n) F := .of a.entry

@[simp] theorem Square.toMatrix_apply {F : Type} {n : Nat} (a : Square F n) (i j : Fin n) :
    a.toMatrix i j = a.entry i j := rfl

open scoped Exact Matrix

variable {F : Type} [Field F] [LinearOrder F] {n : Nat}

/-! ## Magnitudes -/

theorem Scalar.le_larger (acc x : F) : acc ≤ Scalar.larger acc x := by
  unfold Scalar.larger
  split
  · next h => exact le_of_lt (Exact.lt_iff.1 h)
  · exact le_refl acc

/-- A largest magnitude is not negative. -/
theorem Scalar.foldl_larger_nonneg (l : List F) (acc : F) (h : 0 ≤ acc) :
    0 ≤ l.foldl (fun acc x => Scalar.larger acc (Scalar.abs x)) acc := by
  induction l generalizing acc with
  | nil => exact h
  | cons x l ih => exact ih _ (le_trans h (Scalar.le_larger acc _))

/-- No magnitude is below zero. -/
theorem Square.maxEntry_nonneg (a : Square F n) : 0 ≤ a.maxEntry := by
  rw [Square.maxEntry, ← Vector.foldl_toList]
  exact Scalar.foldl_larger_nonneg _ 0 (le_refl _)

section Zero

variable [IsStrictOrderedRing F]

/-- The largest magnitude of zeros is zero. -/
theorem Coords.foldl_magnitude_eq_zero (l : List F) (h : ∀ y ∈ l, y = 0) :
    l.foldl (fun acc z => if Scalar.le (Scalar.abs z) acc then acc else Scalar.abs z) 0 = 0 := by
  induction l with
  | nil => rfl
  | cons y l ih =>
      have hy : y = 0 := h y (List.mem_cons_self ..)
      simp only [List.foldl_cons, hy, Exact.abs_eq, abs_zero, ite_self]
      exact ih fun z hz => h z (List.mem_cons_of_mem _ hz)

/-- A column of zeros has no magnitude. -/
theorem Coords.maxNorm_eq_zero {x : Coords F n} (h : ∀ i, x.entry i = 0) : x.maxNorm = 0 := by
  have hmem : ∀ y ∈ x.toList, y = 0 := by
    intro y hy
    obtain ⟨i, hi, rfl⟩ := Vector.mem_iff_getElem.1 (Vector.mem_toList_iff.1 hy)
    exact h ⟨i, hi⟩
  unfold Coords.maxNorm
  split
  · rfl
  · next y ys hx =>
      rw [hx] at hmem
      rw [hmem y (List.mem_cons_self ..), Exact.abs_eq, abs_zero]
      exact foldl_magnitude_eq_zero ys fun z hz => hmem z (List.mem_cons_of_mem _ hz)

end Zero

/-! ## Residuals -/

namespace LinearSystem

/-- After some columns, a residual lacks the products with their entries. -/
theorem foldl_residualStep_entry (s : LinearSystem F n) (x : Coords F n) (js : List (Fin n))
    (r : Coords F n) (i : Fin n) :
    (js.foldl (s.residualStep x) r).entry i =
      r.entry i - (js.map fun j => s.matrix.entry i j * x.entry j).sum := by
  induction js generalizing r with
  | nil => simp
  | cons j js ih =>
      rw [List.foldl_cons, ih]
      simp only [residualStep, Coords.entry_tabulate, List.map_cons, List.sum_cons]
      ring

/-- The residual is the right-hand side less the matrix times the solution. -/
theorem residual_entry (s : LinearSystem F n) (x : Coords F n) :
    (s.residual x).entry = s.rhs.entry - s.matrix.toMatrix *ᵥ x.entry := by
  funext i
  rw [residual, foldl_residualStep_entry, Pi.sub_apply, Matrix.mulVec, dotProduct,
    Fin.sum_univ_def]
  rfl

end LinearSystem

end StageQp
