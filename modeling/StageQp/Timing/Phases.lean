import StageQp.Timing.Duration

/-!
# StageQp.Timing.Phases

Accumulated time of the three phases of a solve, and the readings of a clock
that a solve is given.  The library never reads a clock itself: whoever calls a
solve passes what was measured, so a solve stays a function of its inputs.
-/

namespace StageQp

inductive Phase where
  | condense
  | solve
  | expand
deriving DecidableEq, Repr

/-- Accumulated time by phase. -/
structure PhaseTimers where
  condense : Duration := .zero
  solve : Duration := .zero
  expand : Duration := .zero
deriving DecidableEq

namespace PhaseTimers

/-- The timers with a span added to one phase, if the sum fits. -/
def add? (t : PhaseTimers) (phase : Phase) (span : Duration) : Option PhaseTimers :=
  match phase with
  | .condense => (t.condense.add? span).map fun d => { t with condense := d }
  | .solve => (t.solve.add? span).map fun d => { t with solve := d }
  | .expand => (t.expand.add? span).map fun d => { t with expand := d }

/-- Condensing and expanding together. -/
def condensing? (t : PhaseTimers) : Option Duration := t.condense.add? t.expand

def total? (t : PhaseTimers) : Option Duration := do (← t.condense.add? t.solve).add? t.expand

end PhaseTimers

/-- What the clock showed during a backend's part of a solve, in nanoseconds. -/
structure BackendReadings where
  /-- Moving data into the backend's own form. -/
  interface : UInt64 := 0
  /-- The numerical solve. -/
  solve : UInt64 := 0
  /-- The whole of the backend's part. -/
  total : UInt64 := 0
deriving DecidableEq, Inhabited

/-- What the clock showed during a solve, in nanoseconds. -/
structure Readings where
  condense : UInt64 := 0
  solve : UInt64 := 0
  expand : UInt64 := 0
  /-- The whole solve. -/
  total : UInt64 := 0
  /-- Inside the backend. -/
  backend : BackendReadings := {}
deriving DecidableEq, Inhabited

/-- The phases of a solve as timers. -/
def Readings.timers (r : Readings) : PhaseTimers where
  condense := .ofWord r.condense
  solve := .ofWord r.solve
  expand := .ofWord r.expand

end StageQp
