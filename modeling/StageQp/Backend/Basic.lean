import StageQp.Procedure
import StageQp.Desk
import StageQp.Qp.Input
import StageQp.Qp.Output

/-!
# StageQp.Backend.Basic

A backend solves the condensed program.  Numerical trouble is a verdict; a
fault means that what was handed in does not fit.
-/

namespace StageQp

/-- A backend, with `ο` its options and `μ` its table of memory.  All shapes are
condensed ones. -/
structure Backend (ο μ : Type) where
  /-- Bytes of the options. -/
  optsSize : Shape → Nat
  /-- The options to start from. -/
  optsDefault : Shape → ο
  /-- Checks the options and brings derived ones up to date. -/
  optsUpdate : Shape → Procedure ο Unit
  /-- Sets an option; the key comes whole. -/
  optsSet : String → OptionValue → Procedure ο Unit
  /-- Bytes of the persistent region. -/
  memorySize : Shape → ο → Nat
  /-- Lays out the persistent region. -/
  memoryAssign : Shape → ο → Procedure Words μ
  /-- Bytes of scratch. -/
  workspaceSize : Shape → ο → Nat
  /-- Solves a program. -/
  evaluate : QpInput → ο → μ → BackendReadings → Procedure (Desk QpOutput) Status

end StageQp
