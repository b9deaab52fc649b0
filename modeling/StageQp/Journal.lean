import StageQp.Options.Router
import StageQp.Options.Value
import StageQp.Qp.Status
import StageQp.Timing.Phases

/-!
# StageQp.Journal

What operations leave behind besides their results: log events, and the option
calls that recording modules take down.  An event is a fact; `Event.level` and
`Event.text` say how it is logged.
-/

namespace StageQp

/-- How urgent a log record is. -/
inductive Level where
  | error
  | warn
  | info
  | debug
deriving DecidableEq, Repr

/-- Something that is worth a log record. -/
inductive Event where
  /-- A carve did not end on the size computed beforehand. -/
  | layoutMismatch (what : String) (carved expected : Nat)
  /-- A shape descriptor was carved. -/
  | shapeStoreCarved (horizon total strategy : Nat)
  /-- An option was handed to the module that owns it. -/
  | optionRouted (key : String) (value : OptionValue) (tag : String) (route : Route)
  /-- The memory of the dense backend was carved. -/
  | denseMemoryCarved (order primal dual total : Nat)
  /-- The memory of a solver was carved; each part by its bytes. -/
  | solverMemoryCarved (total strategy backend input output : Nat)
  /-- The backend met a shape with bounds or general constraints. -/
  | constraintsIgnored
  /-- The linear system has no pivot that is large enough. -/
  | systemSingular (order : Nat)
  /-- The backend's verdict was not success. -/
  | backendVerdict (status : Status) (solve : UInt64)
  /-- A sensitivity was asked for. -/
  | sensitivityRequested
  /-- A solve is done. -/
  | solved (solve : UInt64) (status : Status) (iterations : UInt64) (timers : PhaseTimers)
      (total : Duration)

/-- An option setting that a recording module took down. -/
structure OptionCall where
  /-- Which kind of module took the call. -/
  owner : String
  key : String
  /-- The value as text. -/
  value : String
deriving DecidableEq, Repr

/-- What operations left behind so far, the oldest first. -/
structure Journal where
  events : Array Event := #[]
  calls : Array OptionCall := #[]
deriving Inhabited

namespace Level

def text : Level → String
  | error => "error"
  | warn => "warn"
  | info => "info"
  | debug => "debug"

end Level

namespace Event

def level : Event → Level
  | layoutMismatch .. => .error
  | shapeStoreCarved .. | optionRouted .. | denseMemoryCarved .. | solverMemoryCarved .. => .debug
  | constraintsIgnored | systemSingular .. | backendVerdict .. | sensitivityRequested => .warn
  | solved .. => .info

/-- A span in seconds, in exponent form with three places. -/
def spanText (d : Duration) : String := Decimal.rounded 3 d.seconds ++ "s"

def text : Event → String
  | layoutMismatch what carved expected =>
    s!"{what} layout mismatch: carved {carved} bytes, expected {expected}"
  | shapeStoreCarved horizon total strategy =>
    s!"xcond dims: N={horizon}, {total} bytes (strategy {strategy} bytes)"
  | optionRouted key value tag (.strategy name) =>
    s!"option {key} = {value.text} -> {tag} {name}"
  | optionRouted key value _ (.backend _) => s!"option {key} = {value.text} -> backend"
  | denseMemoryCarved order primal dual total =>
    s!"dense kkt memory: order {order} ({primal} primal, {dual} dual), {total} bytes"
  | solverMemoryCarved total strategy backend input output =>
    s!"xcond memory: {total} bytes (strategy {strategy}, backend {backend}, " ++
      s!"qp_in {input}, qp_out {output})"
  | constraintsIgnored => "dense kkt backend cannot handle bounds or general constraints"
  | systemSingular order => s!"dense kkt backend: singular KKT system of order {order}"
  | backendVerdict status solve =>
    s!"QP backend returned {status.text} (code {status.code}) on solve {solve}"
  | sensitivityRequested =>
    "sensitivity evaluation requested; condensed problem prepared but not solved"
  | solved solve status iterations timers total =>
    s!"solve {solve}: status={status.text} iters={iterations} " ++
      s!"condense={spanText timers.condense} solve={spanText timers.solve} " ++
      s!"expand={spanText timers.expand} total={spanText total}"

end Event

namespace Journal

def note (j : Journal) (e : Event) : Journal := { j with events := j.events.push e }

def noteCall (j : Journal) (c : OptionCall) : Journal := { j with calls := j.calls.push c }

end Journal

end StageQp
