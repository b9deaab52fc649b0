import StageQp.Solver.Memory
import StageQp.Solver.OptionStore
import StageQp.Solver.Overlay

/-!
# StageQp.Solver.Solve

A solve: the strategy condenses the program into the memory, the backend solves
what it finds there, and the strategy expands the result into the caller's
record.  Whatever the backend's verdict, its result is expanded, and the verdict
is the caller's.

Nothing is written before the shapes of the records, the size of the scratch
and the header of the memory have been checked.
-/

namespace StageQp

/-- What a solve writes: the caller's solution, the memory of the solver, and scratch. -/
structure SolveDesk (μ ν : Type) where
  output : QpOutput
  memory : SolverMemory μ ν
  work : Words
deriving DecidableEq

namespace SolveDesk

variable {α μ ν : Type}

open Procedure

/-- Runs the strategy's procedure on the condensed program. -/
def onInput (o : Overlay) (act : Procedure (Desk QpInput) α) : Procedure (SolveDesk μ ν) α :=
  focus
    (fun d =>
      { record := ⟨d.memory.input, d.memory.layout.input.part d.memory.words⟩
        region := d.memory.layout.strategy.part d.memory.words
        work := o.strategy.part d.work })
    (fun d desk =>
      let words := d.memory.layout.strategy.put d.memory.words desk.region
      let words := d.memory.layout.input.put words desk.record.words
      { d with memory := { d.memory with words }, work := o.strategy.put d.work desk.work })
    act

/-- Runs the backend's procedure on the condensed solution. -/
def onSolution (o : Overlay) (act : Procedure (Desk QpOutput) α) : Procedure (SolveDesk μ ν) α :=
  focus
    (fun d =>
      { record := ⟨d.memory.output, d.memory.layout.output.part d.memory.words⟩
        region := d.memory.layout.backend.part d.memory.words
        work := o.backend.part d.work })
    (fun d desk =>
      let words := d.memory.layout.backend.put d.memory.words desk.region
      let words := d.memory.layout.output.put words desk.record.words
      { d with memory := { d.memory with words }, work := o.backend.put d.work desk.work })
    act

/-- Runs the strategy's procedure on the caller's solution. -/
def onOutput (o : Overlay) (act : Procedure (Desk QpOutput) α) : Procedure (SolveDesk μ ν) α :=
  focus
    (fun d =>
      { record := d.output
        region := d.memory.layout.strategy.part d.memory.words
        work := o.strategy.part d.work })
    (fun d desk =>
      let words := d.memory.layout.strategy.put d.memory.words desk.region
      { output := desk.record, memory := { d.memory with words }
        work := o.strategy.put d.work desk.work })
    act

end SolveDesk

namespace Solver

variable {δ ο μ β ν : Type}

open Procedure SolveDesk

/-- Checks what a solve is handed, counts it, and divides its scratch. -/
def beginSolve (s : Solver δ ο μ β ν) (qp : QpInput) (so : ο) (bo : β) :
    Procedure (SolveDesk μ ν) (UInt64 × Overlay) := do
  let desk ← fetch
  check (desk.memory.checkShapes qp.shape desk.output.shape)
  let overlay ← Overlay.carve s desk.memory.shapes so bo
  check (overlay.check desk.work)
  let solve ← focus SolveDesk.memory (fun d memory => { d with memory }) SolverMemory.beginSolve
  return (solve, overlay)

/-- Hands the condensed solution to the caller, with the account of the whole solve. -/
def deliver (s : Solver δ ο μ β ν) (so : ο) (overlay : Overlay) (clock : Readings)
    (solve : UInt64) (status : Status) : Procedure (SolveDesk μ ν) Unit := do
  let memory := (← fetch).memory
  let solution := StageData.mk memory.output (memory.layout.output.part memory.words)
  onOutput overlay (s.strategy.expand solution so memory.strategy)
  let total := Duration.ofWord clock.total
  let info := { solution.info with
    condensingTime := (← need clock.timers.condensing?).seconds
    totalTime := total.seconds }
  update fun d => { d with output := d.output.setInfo info }
  if ← need (s.diagnostics.logs? solve) then
    note (.solved solve status info.numIter clock.timers total)

/-- Solves a program. -/
def evaluate [Record ο] [Record β] (s : Solver δ ο μ β ν) (qp : QpInput) (options : OptionStore)
    (clock : Readings) : Procedure (SolveDesk μ ν) Status := do
  let so ← check (options.strategyOptions ο)
  let bo ← check (options.backendOptions β)
  let (solve, overlay) ← s.beginSolve qp so bo
  let memory := (← fetch).memory
  onInput overlay (s.strategy.condense qp so memory.strategy)
  let condensed := StageData.mk memory.input (memory.layout.input.part (← fetch).memory.words)
  let status ← onSolution overlay (s.backend.evaluate condensed bo memory.backend clock.backend)
  unless status.isSuccess do
    note (.backendVerdict status solve)
  s.deliver so overlay clock solve status
  return status

/-- Condenses a program as a solve would, and refuses to go on. -/
def evaluateSensitivity [Record ο] [Record β] (s : Solver δ ο μ β ν) (qp : QpInput)
    (options : OptionStore) : Procedure (SolveDesk μ ν) Status := do
  let so ← check (options.strategyOptions ο)
  let bo ← check (options.backendOptions β)
  let (_, overlay) ← s.beginSolve qp so bo
  let memory := (← fetch).memory
  onInput overlay (s.strategy.condense qp so memory.strategy)
  note .sensitivityRequested
  fail (.unsupported .sensitivity)

end Solver

end StageQp
