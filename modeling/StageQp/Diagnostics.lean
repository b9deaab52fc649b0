import StageQp.Decimal.Numeral

/-!
# StageQp.Diagnostics

Settings that come from the environment of a process, and which solves are
logged.
-/

namespace StageQp

structure Environment where
  /-- The variables that are set, with their values. -/
  bindings : List (String × String) := []
deriving DecidableEq, Repr, Inhabited

namespace Environment

/-- The value of a variable, read by `read?`; `fallback` if it is not set or
does not read. -/
def readOr {α : Type} (env : Environment) (name : String) (read? : String → Option α)
    (fallback : α) : α :=
  ((env.bindings.lookup name).bind read?).getD fallback

end Environment

/-- Which solves leave a log record. -/
structure Diagnostics where
  enabled : Bool := false
  /-- Only solves whose number is a multiple of this. -/
  every : UInt64 := 1
deriving DecidableEq, Repr

namespace Diagnostics

/-- Whether the text of the switch turns logging on: anything but `0` and
`false`, the latter in any case.  Only the letters of `false` matter, and no
character beyond ASCII has one of them as its lower case. -/
def isOn (text : String) : Bool :=
  text != "0" && text.map Char.toLower != "false"

/-- The settings of an environment: off unless switched on, and every solve
unless a positive count says otherwise. -/
def ofEnvironment (env : Environment) : Diagnostics where
  enabled := env.readOr "XCOND_DIAGNOSTICS" (fun text => some (isOn text)) false
  every := env.readOr "XCOND_DIAGNOSTICS_EVERY"
    (fun text => (Numeral.count? text).filter (0 < ·)) 1

/-- Whether solve number `solve` is logged; no answer where logging is on for
the multiples of zero. -/
def logs? (d : Diagnostics) (solve : UInt64) : Option Bool :=
  if !d.enabled then some false
  else if d.every = 0 then none
  else some (solve % d.every == 0)

end Diagnostics

end StageQp
