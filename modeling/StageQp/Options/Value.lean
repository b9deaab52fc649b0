import StageQp.Decimal.Style
import StageQp.Fault

/-!
# StageQp.Options.Value

The value handed to an option setter, and what each reader of it accepts.
-/

namespace StageQp

inductive OptionValue where
  | int (value : Int64)
  | float (value : Binary64)
  | bool (value : Bool)
deriving DecidableEq

namespace OptionValue

/-- An unsigned word as a value: the same bits, read as a signed integer. -/
def ofWord (word : UInt64) : OptionValue := .int word.toInt64

/-- A number: a float as it is, an integer rounded to the nearest double. -/
def toFloat (key : String) : OptionValue → Except Fault Binary64
  | float x => .ok x
  | int i => .ok (Binary64.ofInt i.toInt)
  | bool _ => .error (.optionType key .number)

/-- A non-negative integer: an integer, or a float without a fraction part.  A
float past the largest word gives the largest word. -/
def toWord (key : String) : OptionValue → Except Fault UInt64
  | int i => if 0 ≤ i then .ok i.toUInt64 else .error (.optionType key .nonNegativeInteger)
  | float x =>
    match x.toNat? with
    | some n => .ok (UInt64.ofNat (min n (2 ^ 64 - 1)))
    | none => .error (.optionType key .nonNegativeInteger)
  | bool _ => .error (.optionType key .nonNegativeInteger)

/-- A flag: a truth value, or an integer that is read as whether it is not zero. -/
def toFlag (key : String) : OptionValue → Except Fault Bool
  | bool b => .ok b
  | int i => .ok (i != 0)
  | float _ => .error (.optionType key .flag)

/-- The value as it stands in log lines. -/
def text : OptionValue → String
  | int i => toString i.toInt
  | float x => Decimal.exponential.render x
  | bool b => Text.truth b

end OptionValue

end StageQp
