import StageQp.Backend.Dense
import StageQp.Solver.Solve
import StageQp.Strategy.Identity

/-!
# StageQp.Solver.Bundled

The solver made of the modules that come with the library: every stage is kept,
and the conditions are solved as one dense system.
-/

namespace StageQp

/-- The solver of the bundled modules; defaults and logging follow the environment. -/
def Solver.bundled (env : Environment) :
    Solver IdentityDims IdentityOptions IdentityMemory DenseOptions DenseMemory where
  strategy := identity
  backend := dense env
  diagnostics := .ofEnvironment env

end StageQp
