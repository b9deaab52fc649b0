import StageQp.Number.Binary64

/-!
# StageQp.Timing.Duration

Spans of time in whole nanoseconds.  The seconds of a span fit a machine word,
so a sum may not exist.
-/

namespace StageQp

/-- A span of time. -/
structure Duration where
  nanos : Nat
  /-- The whole seconds are below `2 ^ 64`. -/
  fits : nanos < 2 ^ 64 * 10 ^ 9
deriving DecidableEq

namespace Duration

def zero : Duration := ⟨0, by decide⟩

instance : Inhabited Duration := ⟨zero⟩

/-- The span of this many nanoseconds, if its seconds fit. -/
def ofNanos? (nanos : Nat) : Option Duration :=
  if h : nanos < 2 ^ 64 * 10 ^ 9 then some ⟨nanos, h⟩ else none

/-- The span of a machine word of nanoseconds, which always fits. -/
def ofWord (nanos : UInt64) : Duration := ⟨nanos.toNat, by have := nanos.toNat_lt; omega⟩

/-- Seconds and nanoseconds together; nanoseconds past a second carry. -/
def ofParts? (seconds nanos : Nat) : Option Duration := ofNanos? (seconds * 10 ^ 9 + nanos)

/-- The sum, if its seconds fit. -/
def add? (a b : Duration) : Option Duration := ofNanos? (a.nanos + b.nanos)

def wholeSeconds (d : Duration) : Nat := d.nanos / 10 ^ 9

/-- Nanoseconds past the whole seconds. -/
def subsecNanos (d : Duration) : Nat := d.nanos % 10 ^ 9

/-- The span in seconds: the whole seconds and the part below a second are each
rounded once, and so is their sum. -/
def seconds (d : Duration) : Binary64 :=
  Binary64.ofNat d.wholeSeconds + Binary64.ofNat d.subsecNanos / Binary64.ofNat (10 ^ 9)

end Duration

end StageQp
