import StageQp.Solver.Basic

/-!
# StageQp.Solver.Overlay

How a solver divides its scratch between strategy and backend.  Nothing in it
outlives a solve, so solvers may share one buffer that is large enough for each.
-/

namespace StageQp

/-- The two parts of the scratch. -/
structure Overlay where
  strategy : Block
  backend : Block
  /-- Bytes of both. -/
  total : Nat
deriving DecidableEq

namespace Overlay

variable {σ δ ο μ β ν : Type}

def size (s : Solver δ ο μ β ν) (shapes : ShapePair) (so : ο) (bo : β) : Nat :=
  alignUp (s.strategy.workspaceSize shapes so)
    + alignUp (s.backend.workspaceSize shapes.condensed bo)

/-- The two parts of the scratch, and what is left of the carver. -/
def divide (s : Solver δ ο μ β ν) (shapes : ShapePair) (so : ο) (bo : β) : Overlay × Carver :=
  let (strategy, c) := Carver.take {} (s.strategy.workspaceSize shapes so)
  let (backend, c) := c.take (s.backend.workspaceSize shapes.condensed bo)
  ({ strategy, backend, total := size s shapes so bo }, c)

/-- Divides the scratch for a pair of shapes. -/
def carve (s : Solver δ ο μ β ν) (shapes : ShapePair) (so : ο) (bo : β) : Procedure σ Overlay := do
  let (overlay, c) := divide s shapes so bo
  Procedure.finish c overlay.total "xcond workspace"
  return overlay

/-- Refuses scratch that is too small. -/
def check (o : Overlay) (work : Words) : Except Fault Unit := do
  if Words.byteSize work < o.total then throw (.bufferSize (Words.byteSize work) o.total)
  work.checkSplit [o.strategy, o.backend]

end Overlay

end StageQp
