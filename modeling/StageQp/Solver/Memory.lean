import StageQp.Solver.Basic

/-!
# StageQp.Solver.Memory

The memory of a solver: a header, the regions of the strategy and of the
backend, and the condensed program with its solution.  It is laid out once for
a pair of shapes; every solve checks the header before it touches anything.
-/

namespace StageQp

/-- Where the parts of a solver's memory are. -/
structure MemoryLayout where
  header : Block
  strategy : Block
  backend : Block
  /-- The condensed program. -/
  input : Block
  /-- The solution of the condensed program. -/
  output : Block
  total : Nat
deriving DecidableEq

/-- The memory of a solver, with `μ` and `ν` the tables of the strategy and of the backend. -/
structure SolverMemory (μ ν : Type) where
  /-- The shape of the programs that are solved. -/
  full : Shape
  layout : MemoryLayout
  strategy : μ
  backend : ν
  input : Layout InputField
  output : Layout OutputField
  words : Words
deriving DecidableEq

namespace MemoryLayout

/-- The blocks that the header lists. -/
def children (l : MemoryLayout) : List Block := [l.strategy, l.backend, l.input, l.output]

def blocks (l : MemoryLayout) : List Block := l.header :: l.children

end MemoryLayout

namespace SolverMemory

variable {σ δ ο μ β ν : Type}

open Procedure

def tag : UInt64 := RecordHeader.tagOf "XCMEM\x00\x00\x00"

def size (s : Solver δ ο μ β ν) (shapes : ShapePair) (so : ο) (bo : β) : Nat :=
  RecordHeader.size + alignUp (s.strategy.memorySize shapes so)
    + alignUp (s.backend.memorySize shapes.condensed bo)
    + shapes.condensed.inputBytes + shapes.condensed.outputBytes

/-- Where the parts of the memory for a pair of shapes go, and what is left of
the carver. -/
def carve (s : Solver δ ο μ β ν) (shapes : ShapePair) (so : ο) (bo : β) : MemoryLayout × Carver :=
  let (header, c) := Carver.take {} RecordHeader.size
  let (strategy, c) := c.take (s.strategy.memorySize shapes so)
  let (backend, c) := c.take (s.backend.memorySize shapes.condensed bo)
  let (input, c) := c.take shapes.condensed.inputBytes
  let (output, c) := c.take shapes.condensed.outputBytes
  ({ header, strategy, backend, input, output, total := size s shapes so bo }, c)

/-- The header of a memory with this layout. -/
def headerOf (l : MemoryLayout) : RecordHeader := .make tag l.total l.children

/-- Lays out the memory for a pair of shapes, all zero but for the header and
what the two modules put into their regions. -/
def assign (s : Solver δ ο μ β ν) (shapes : ShapePair) (so : ο) (bo : β) (words : Words) :
    Procedure σ (SolverMemory μ ν) := do
  check (words.expectBytes (size s shapes so bo))
  let (layout, c) := carve s shapes so bo
  finish c layout.total "xcond memory"
  let words := words.fill 0
  check (words.checkSplit [layout.header, layout.strategy, layout.backend])
  let words := layout.header.setRecords words #[headerOf layout]
  let (strategyTable, region) ←
    within (layout.strategy.part words) (s.strategy.memoryAssign shapes so)
  let words := layout.strategy.put words region
  let (backendTable, region) ←
    within (layout.backend.part words) (s.backend.memoryAssign shapes.condensed bo)
  let words := layout.backend.put words region
  note (.solverMemoryCarved layout.total layout.strategy.len layout.backend.len layout.input.len
    layout.output.len)
  return {
    full := shapes.full
    layout
    strategy := strategyTable
    backend := backendTable
    input := ← Layout.assign InputField shapes.condensed
    output := ← Layout.assign OutputField shapes.condensed
    words }

/-- The shapes the memory was laid out for. -/
def shapes (m : SolverMemory μ ν) : ShapePair := ⟨m.full, m.input.shape⟩

def header (m : SolverMemory μ ν) : Except Fault RecordHeader := do
  Record.read RecordHeader (← m.layout.header.slice m.words)

/-- How many solves were begun. -/
def epoch (m : SolverMemory μ ν) : Except Fault UInt64 := return (← m.header).epoch

def strategyRegion (m : SolverMemory μ ν) : Except Fault Words := m.layout.strategy.slice m.words

def backendRegion (m : SolverMemory μ ν) : Except Fault Words := m.layout.backend.slice m.words

/-- The condensed program of the last solve. -/
def condensedInput (m : SolverMemory μ ν) : Except Fault QpInput := do
  StageData.ofWords m.input (← m.layout.input.slice m.words)

/-- The condensed solution of the last solve. -/
def condensedOutput (m : SolverMemory μ ν) : Except Fault QpOutput := do
  StageData.ofWords m.output (← m.layout.output.slice m.words)

/-- Refuses records of another shape than the memory was laid out for. -/
def checkShapes (m : SolverMemory μ ν) (input output : Shape) : Except Fault Unit :=
  if input ≠ m.full ∨ output ≠ m.full then
    .error (.invalidDimension (.notCarvedFor m.full))
  else .ok ()

/-- Checks the header and counts one more solve; gives its number. -/
def beginSolve : Procedure (SolverMemory μ ν) UInt64 := do
  let m ← fetch
  check (m.words.checkSplit m.layout.blocks)
  let header : RecordHeader := Record.get (m.layout.header.part m.words) 0
  check (header.verify tag m.layout.total m.layout.children)
  let header := { header with epoch := header.epoch + 1 }
  store { m with words := m.layout.header.setRecords m.words #[header] }
  check (m.input.check (m.layout.input.part m.words))
  check (m.output.check (m.layout.output.part m.words))
  return header.epoch

end SolverMemory

end StageQp
