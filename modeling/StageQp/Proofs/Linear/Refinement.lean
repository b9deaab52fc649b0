import StageQp.Proofs.Linear.Triangular
import StageQp.Proofs.Linear.Corrections

/-!
# StageQp.Proofs.Linear.Refinement

What refinement does to the residual.  If solving with the factors multiplies by
a matrix `b`, each correction multiplies the residual by `1 - k * b`, where `k`
is the matrix of the system (`tracks_correct`).  So after any number of
corrections the residual is the one before the first solve times a power of that
matrix, and the exponent is the number of solves counted (`tracks_refine`).
-/

namespace StageQp

open scoped Exact Matrix

variable {F : Type} [Field F] [LinearOrder F] {n : Nat}

/-- The iterate has the residual of its solution, and that is what its solves
with a matrix `b` make of the residual `r` there was at first. -/
structure Iterate.Tracks (it : Iterate F n) (s : LinearSystem F n)
    (b : Matrix (Fin n) (Fin n) F) (r : Fin n → F) : Prop where
  residual_eq : it.residual = s.residual it.solution
  residual_entry : it.residual.entry = (1 - s.matrix.toMatrix * b) ^ it.solves *ᵥ r

namespace LinearSystem

variable {s : LinearSystem F n} {f : Factors F n} {b : Matrix (Fin n) (Fin n) F} {r : Fin n → F}
variable {tol : F} {it : Iterate F n}

/-- A solution that no solve has gone into has the residual it has. -/
theorem tracks_start (x : Coords F n) : (s.iterate x 0).Tracks s b (s.residual x).entry where
  residual_eq := rfl
  residual_entry := by rw [iterate, pow_zero, Matrix.one_mulVec]

/-- Solving the system itself is a correction of the solution zero. -/
theorem tracks_solve (hb : ∀ x, (f.solve x).entry = b *ᵥ x.entry) :
    (s.iterate (f.solve s.rhs) 1).Tracks s b s.rhs.entry where
  residual_eq := rfl
  residual_entry := by
    rw [iterate, pow_one, residual_entry, hb, Matrix.mulVec_mulVec, Matrix.sub_mulVec,
      Matrix.one_mulVec]

/-- A correction multiplies the residual once more. -/
theorem tracks_correct (hb : ∀ x, (f.solve x).entry = b *ᵥ x.entry) (h : it.Tracks s b r) :
    (s.correct f it).Tracks s b r where
  residual_eq := rfl
  residual_entry := by
    have hadd : (it.solution.add (f.solve it.residual)).entry =
        it.solution.entry + b *ᵥ it.residual.entry := by
      funext i
      rw [Coords.add, Coords.entry_tabulate, hb, Pi.add_apply]
    have hres : it.residual.entry = s.rhs.entry - s.matrix.toMatrix *ᵥ it.solution.entry := by
      rw [h.residual_eq, residual_entry]
    calc (s.residual (it.solution.add (f.solve it.residual))).entry
        = it.residual.entry - (s.matrix.toMatrix * b) *ᵥ it.residual.entry := by
          rw [residual_entry, hadd, Matrix.mulVec_add, Matrix.mulVec_mulVec, sub_add_eq_sub_sub,
            ← hres]
      _ = (1 - s.matrix.toMatrix * b) *ᵥ it.residual.entry := by
          rw [Matrix.sub_mulVec, Matrix.one_mulVec]
      _ = (1 - s.matrix.toMatrix * b) ^ (it.solves + 1) *ᵥ r := by
          rw [h.residual_entry, Matrix.mulVec_mulVec, pow_succ']

/-- However many corrections a refinement makes. -/
theorem tracks_refine (hb : ∀ x, (f.solve x).entry = b *ᵥ x.entry) (steps : Nat)
    (h : it.Tracks s b r) : (s.refine f tol steps it).Tracks s b r := by
  induction steps generalizing it with
  | zero => exact h
  | succ steps ih =>
      rw [refine]
      split
      · exact h
      · exact ih (tracks_correct hb h)

end LinearSystem

end StageQp
