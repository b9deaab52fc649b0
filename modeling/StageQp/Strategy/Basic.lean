import StageQp.Procedure
import StageQp.Desk
import StageQp.Qp.Input
import StageQp.Qp.Output

/-!
# StageQp.Strategy.Basic

A condensing strategy turns a program into an equivalent one, and maps the
solution of that one back.  It owns the condensed shape, which everyone else
reaches by its key.

Every size belongs to an assignment: the assignment is handed a region of that
many bytes and lays out the whole of it.
-/

namespace StageQp

/-- The key of the full shape, in which a program is given. -/
def fullKey : String := "orig_dims"

/-- The key of the shape a program is condensed to. -/
def condensedKey : String := "xcond_dims"

/-- A condensing strategy, with `δ` its table of shapes, `ο` its options and `μ`
its table of memory. -/
structure Strategy (δ ο μ : Type) where
  /-- Opens the keys of the strategy's options. -/
  tag : String
  /-- Bytes of the record of shapes with horizon `n`. -/
  dimsSize : Nat → Nat
  /-- Lays out the record of shapes. -/
  dimsAssign : Nat → Procedure Words δ
  /-- Follows a change of one dimension of the full shape. -/
  dimsSet : δ → Nat → DimField → UInt64 → Procedure Words Unit
  /-- The shape that is kept under a key. -/
  dimsGet : δ → Words → String → Except Fault Shape
  /-- Bytes of the options. -/
  optsSize : ShapePair → Nat
  /-- The options to start from. -/
  optsDefault : ShapePair → ο
  /-- Checks the options and brings derived ones up to date. -/
  optsUpdate : ShapePair → Procedure ο Unit
  /-- Sets an option; the key comes without the tag. -/
  optsSet : String → OptionValue → Procedure ο Unit
  /-- Bytes of the persistent region. -/
  memorySize : ShapePair → ο → Nat
  /-- Lays out the persistent region. -/
  memoryAssign : ShapePair → ο → Procedure Words μ
  /-- Bytes of scratch. -/
  workspaceSize : ShapePair → ο → Nat
  /-- Writes the condensed program. -/
  condense : QpInput → ο → μ → Procedure (Desk QpInput) Unit
  /-- Writes the solution of the full program, given that of the condensed one. -/
  expand : QpOutput → ο → μ → Procedure (Desk QpOutput) Unit

end StageQp
