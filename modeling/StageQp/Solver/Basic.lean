import StageQp.Backend.Basic
import StageQp.Diagnostics
import StageQp.Storage.Header
import StageQp.Storage.Split
import StageQp.Strategy.Basic

/-!
# StageQp.Solver.Basic

A solver is a condensing strategy in front of a backend.  Its shapes, options
and memory are composite records: a header, then one block for each part.
-/

namespace StageQp

/-- A condensing strategy in front of a backend, with `δ`, `ο` and `μ` the
strategy's shapes, options and memory, and `β` and `ν` the backend's options
and memory. -/
structure Solver (δ ο μ β ν : Type) where
  strategy : Strategy δ ο μ
  backend : Backend β ν
  /-- Which solves are logged. -/
  diagnostics : Diagnostics := {}

namespace Solver

variable {δ ο μ β ν : Type}

/-- The router of option keys. -/
def router (s : Solver δ ο μ β ν) : Router := ⟨s.strategy.tag⟩

end Solver

end StageQp
