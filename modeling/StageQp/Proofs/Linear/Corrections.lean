import Mathlib.Logic.Function.Iterate
import StageQp.Linear.Refine

/-!
# StageQp.Proofs.Linear.Corrections

How a refinement runs, over any scalar type: nothing is asked of its comparisons,
and a comparison with a not-a-number may come out false both ways.  A refinement is
some number of corrections one after the other, and it stops at the first residual
within the tolerance or when the corrections run out (`refine_eq_iterate`).

Every iterate carries the residual of its own solution (`Iterate.Consistent`), so
the one a refinement ends with does, and its count is that of the corrections made
(`refines_refine`).
-/

namespace StageQp

variable {F : Type} [Scalar F] {n : Nat}

/-- The iterate has the residual of its solution, and the norm of that. -/
structure Iterate.Consistent (it : Iterate F n) (s : LinearSystem F n) : Prop where
  residual_eq : it.residual = s.residual it.solution
  norm_eq : it.norm = (s.residual it.solution).maxNorm

namespace LinearSystem

variable {s : LinearSystem F n} {f : Factors F n} {tol : F} {it : Iterate F n}

/-! ## One correction -/

theorem consistent_iterate (s : LinearSystem F n) (x : Coords F n) (solves : Nat) :
    (s.iterate x solves).Consistent s := ⟨rfl, rfl⟩

theorem consistent_correct (s : LinearSystem F n) (f : Factors F n) (it : Iterate F n) :
    (s.correct f it).Consistent s :=
  s.consistent_iterate (it.solution.add (f.solve it.residual)) (it.solves + 1)

@[simp] theorem solves_correct : (s.correct f it).solves = it.solves + 1 := rfl

/-! ## So many corrections -/

/-- However often it is corrected, an iterate has the residual of its solution. -/
theorem consistent_corrections (h : it.Consistent s) (k : Nat) :
    ((s.correct f)^[k] it).Consistent s := by
  induction k generalizing it with
  | zero => exact h
  | succ k ih => exact ih (s.consistent_correct f it)

/-- Every correction is one solve more. -/
theorem solves_corrections (k : Nat) : ((s.correct f)^[k] it).solves = it.solves + k := by
  induction k generalizing it with
  | zero => rfl
  | succ k ih => rw [Function.iterate_succ_apply, ih, solves_correct, Nat.add_assoc, Nat.add_comm 1]

/-! ## A refinement -/

/-- A residual within the tolerance is left alone. -/
theorem refine_of_le (steps : Nat) (h : Scalar.le it.norm tol = true) :
    s.refine f tol steps it = it := by
  cases steps with
  | zero => rfl
  | succ steps => rw [refine, if_pos h]

/-- A refinement makes corrections while the residual is not within the tolerance and
there are corrections left. -/
theorem refine_eq_iterate (s : LinearSystem F n) (f : Factors F n) (tol : F) (steps : Nat)
    (it : Iterate F n) :
    ∃ k ≤ steps, s.refine f tol steps it = (s.correct f)^[k] it ∧
      (∀ j < k, Scalar.le ((s.correct f)^[j] it).norm tol = false) ∧
      (Scalar.le (s.refine f tol steps it).norm tol = true ∨ k = steps) := by
  induction steps generalizing it with
  | zero => exact ⟨0, Nat.le_refl 0, rfl, fun j hj => absurd hj (Nat.not_lt_zero j), .inr rfl⟩
  | succ steps ih =>
      by_cases hle : Scalar.le it.norm tol = true
      · rw [refine_of_le _ hle]
        exact ⟨0, Nat.zero_le _, rfl, fun j hj => absurd hj (Nat.not_lt_zero j), .inl hle⟩
      · obtain ⟨k, hk, hrun, hbefore, hstop⟩ := ih (s.correct f it)
        rw [refine, if_neg hle]
        refine ⟨k + 1, Nat.succ_le_succ hk, hrun, fun j hj => ?_, hstop.imp_right (congrArg _)⟩
        cases j with
        | zero => exact Bool.eq_false_iff.2 hle
        | succ j => exact hbefore j (Nat.lt_of_succ_lt_succ hj)

/-- What a refinement with so many corrections at most makes of an iterate. -/
structure Refines (s : LinearSystem F n) (tol : F) (steps : Nat) (first last : Iterate F n) :
    Prop where
  consistent : last.Consistent s
  solves_ge : first.solves ≤ last.solves
  solves_le : last.solves ≤ first.solves + steps
  stops : Scalar.le last.norm tol = true ∨ last.solves = first.solves + steps
  /-- An iterate that no correction was made to is the one there was. -/
  eq_of_solves_eq : last.solves = first.solves → last = first

/-- Refining corrects as long as the tolerance and the number of steps ask for it. -/
theorem refines_refine (f : Factors F n) (tol : F) (steps : Nat) (h : it.Consistent s) :
    s.Refines tol steps it (s.refine f tol steps it) := by
  obtain ⟨k, hk, hrun, -, hstop⟩ := refine_eq_iterate s f tol steps it
  have hsolves : (s.refine f tol steps it).solves = it.solves + k := by
    rw [hrun, solves_corrections]
  constructor
  · rw [hrun]
    exact consistent_corrections h k
  · exact hsolves ▸ Nat.le_add_right _ _
  · exact hsolves ▸ Nat.add_le_add_left hk _
  · exact hstop.imp_right fun heq => by rw [hsolves, heq]
  · intro heq
    obtain rfl : k = 0 := by omega
    exact hrun

end LinearSystem

end StageQp
