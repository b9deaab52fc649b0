import StageQp.Kkt.Problem

/-!
# StageQp.Kkt.Solve

A solve of the optimality conditions by dense factors.  The factors are those
of the regularized matrix; refinement runs against the matrix as it is.  A warm
start refines a solution that was handed in, without a solve of its own first.
-/

namespace StageQp

/-- How the optimality conditions are solved. -/
structure KktSettings (F : Type) where
  /-- The fraction of the largest entry that a pivot has to pass. -/
  pivotFraction : F
  /-- The shift of the diagonal of the factored matrix. -/
  staticReg : F
  /-- Refinement stops at a residual within this. -/
  refineTol : F
  /-- Most corrections that a refinement makes. -/
  refineSteps : Nat

/-- What a solve of the optimality conditions leaves behind. -/
structure KktSolve (F : Type) (n : Nat) where
  /-- The system as it is. -/
  system : LinearSystem F n
  /-- The factors of the regularized matrix. -/
  factors : Factors F n
  /-- The refined solution; there is none if a pivot was missing. -/
  result : Option (Iterate F n)

namespace Problem

variable {F : Type} [Scalar F] {n : Nat}

/-- Solves the optimality conditions.  `start` is the solution a warm start
refines, `before` what the right-hand side is written over. -/
def solve (p : Problem F) (settings : KktSettings F) (start : Option (Coords F n))
    (before : Coords F n) : KktSolve F n :=
  let system := p.assemble before
  let tol := settings.pivotFraction * system.matrix.maxEntry
  let shifted := regularize p.shape.totalVariables settings.staticReg system.matrix
  let factors := shifted.factor tol
  let result :=
    if factors.complete then
      let first := match start with
        | some solution => system.iterate solution 0
        | none => system.iterate (factors.solve system.rhs) 1
      some (system.refine factors settings.refineTol settings.refineSteps first)
    else none
  { system, factors, result }

end Problem

end StageQp
