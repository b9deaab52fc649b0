import StageQp.Solver.Memory
import StageQp.Solver.OptionStore
import StageQp.Solver.ShapeStore

/-!
# StageQp.Solver.Inspect

The stored objects of a solver as text, for people who look at them.  What the
modules keep is written by functions that the caller hands in.
-/

namespace StageQp

/-- A result that may be missing. -/
def Text.optional {α : Type} (text : α → String) : Option α → String
  | some a => Text.applied "Some" (text a)
  | none => "None"

/-- A stored shape: its horizon, its bytes and the strategy's table. -/
def ShapeStore.text {δ : Type} (table : δ → String) (d : ShapeStore δ) : String :=
  Text.labelled "XcondDims"
    [("n", toString d.horizon), ("bytes", toString (Words.byteSize d.words)),
     ("strategy", table d.table)]

/-- Stored options: the records of both modules, as far as they can be read. -/
def OptionStore.text {ο β : Type} [Record ο] [Record β] (strategy : ο → String)
    (backend : β → String) (o : OptionStore) : String :=
  Text.labelled "XcondOpts"
    [("strategy", Text.optional strategy (o.strategyOptions ο).toOption),
     ("backend", Text.optional backend (o.backendOptions β).toOption)]

def MemoryLayout.text (l : MemoryLayout) : String :=
  Text.labelled "MemoryLayout"
    [("header", l.header.text), ("strategy", l.strategy.text), ("backend", l.backend.text),
     ("cond_in", l.input.text), ("cond_out", l.output.text), ("total", toString l.total)]

/-- The memory of a solver: its layout and the tables of both modules. -/
def SolverMemory.text {μ ν : Type} (strategy : μ → String) (backend : ν → String)
    (m : SolverMemory μ ν) : String :=
  Text.labelled "XcondMemory"
    [("layout", m.layout.text), ("strategy", strategy m.strategy),
     ("backend", backend m.backend)]

end StageQp
