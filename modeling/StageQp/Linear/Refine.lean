import StageQp.Linear.Factor

/-!
# StageQp.Linear.Refine

Iterative refinement.  The factors may belong to a matrix that is only close to
the one of the system; each step solves for the residual and adds the
correction, until the residual is small or the steps run out.
-/

namespace StageQp

variable {F : Type} [Scalar F] {n : Nat}

structure LinearSystem (F : Type) (n : Nat) where
  matrix : Square F n
  rhs : Coords F n

/-- A solution in progress. -/
structure Iterate (F : Type) (n : Nat) where
  solution : Coords F n
  /-- What is missing on the right-hand side. -/
  residual : Coords F n
  /-- The largest magnitude of the residual. -/
  norm : F
  /-- Solves with the factors so far. -/
  solves : Nat

namespace LinearSystem

/-- Takes column `j` of the matrix times entry `j` of `x` from `r`. -/
def residualStep (s : LinearSystem F n) (x : Coords F n) (r : Coords F n) (j : Fin n) :
    Coords F n :=
  .tabulate fun i => -1 * s.matrix.entry i j * x.entry j + 1 * r.entry i

def residual (s : LinearSystem F n) (x : Coords F n) : Coords F n :=
  (List.finRange n).foldl (s.residualStep x) s.rhs

/-- A solution with its residual. -/
def iterate (s : LinearSystem F n) (solution : Coords F n) (solves : Nat) : Iterate F n :=
  let residual := s.residual solution
  { solution, residual, norm := residual.maxNorm, solves }

/-- The solution with the correction of one more solve. -/
def correct (s : LinearSystem F n) (f : Factors F n) (it : Iterate F n) : Iterate F n :=
  s.iterate (it.solution.add (f.solve it.residual)) (it.solves + 1)

/-- Corrects a solution until its residual is within `tol`, at most so many times. -/
def refine (s : LinearSystem F n) (f : Factors F n) (tol : F) : Nat → Iterate F n → Iterate F n
  | 0, it => it
  | steps + 1, it =>
    if Scalar.le it.norm tol then it else refine s f tol steps (s.correct f it)

end LinearSystem

end StageQp
