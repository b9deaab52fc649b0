import StageQp.Number.Binary64

/-!
# StageQp.Decimal.Shortest

The fewest decimal digits that identify a double.  Every real of an interval
around the value rounds to it; among the decimals of that interval the shortest
is taken, of two equally short ones the nearer, and on an exact tie the larger.

The search runs in exact natural arithmetic.  The value and the two ends of its
interval are integers on one common power of ten, so a grid of `n` digits is a
multiple of a power of ten, and the value's two neighbours on it decide whether
the grid has a point in the interval.
-/

namespace StageQp

/-- The decimal number `digits * 10 ^ exponent`. -/
structure Decimal where
  digits : Nat
  exponent : Int
deriving DecidableEq, Repr

namespace Decimal

/-- The decimal digits of a number, the leading one first. -/
def digitChars (n : Nat) : List Char := Nat.toDigits 10 n

def digitCount (n : Nat) : Nat := (digitChars n).length

/-- Moves one trailing zero of the digits into the exponent, if there is one. -/
def dropZero (d : Decimal) : Decimal :=
  if d.digits ≠ 0 ∧ d.digits % 10 = 0 then ⟨d.digits / 10, d.exponent + 1⟩ else d

/-- Moves up to `count` trailing zeros of the digits into the exponent. -/
def dropZeros : Nat → Decimal → Decimal
  | 0, d => d
  | count + 1, d => dropZeros count d.dropZero

/-- A value with the interval of reals that round to it, all three as integers
in units of `10 ^ exponent`. -/
structure Interval where
  lower : Nat
  value : Nat
  upper : Nat
  /-- The ends belong to the interval. -/
  closed : Bool
  exponent : Int
deriving DecidableEq, Repr

namespace Interval

/-- The interval of a finite magnitude.  In quarters of the unit in the last
place the value is `4 m`, the upper end `4 m + 2`, and the lower end `4 m - 2`,
or `4 m - 1` where the gap below is half as wide.  The ends round to the value
exactly when its significand is even. -/
def ofMagnitude (x : Binary64) : Interval :=
  let quarter := x.scale - 2
  let unit := if 0 ≤ quarter then 2 ^ quarter.toNat else 5 ^ (-quarter).toNat
  let m := x.significand
  { lower := (4 * m - if x.narrowBelow then 1 else 2) * unit
    value := 4 * m * unit
    upper := (4 * m + 2) * unit
    closed := m % 2 == 0
    exponent := min quarter 0 }

/-- Whether the integer `n` lies in the interval. -/
def holds (i : Interval) (n : Nat) : Bool :=
  if i.closed then decide (i.lower ≤ n ∧ n ≤ i.upper) else decide (i.lower < n ∧ n < i.upper)

/-- The better of the value's two neighbours on the multiples of `step`, if one
lies in the interval: the nearer, and the larger on a tie. -/
def onGrid? (i : Interval) (step : Nat) : Option Nat :=
  let below := i.value / step
  let above := below + 1
  match i.holds (below * step), i.holds (above * step) with
  | true, true =>
    if i.value - below * step < above * step - i.value then some below else some above
  | true, false => some below
  | false, true => some above
  | false, false => none

/-- The first grid with a point in the interval, from one digit on.  The grid of
all digits holds the value itself, so the search always ends with a point. -/
def shortest (i : Interval) : Decimal :=
  let count := digitCount i.value
  let onGrid? (n : Nat) : Option Decimal :=
    let zeros := count - (n + 1)
    (i.onGrid? (10 ^ zeros)).map fun digits => ⟨digits, i.exponent + zeros⟩
  let found := (List.range count).findSome? onGrid?
  let d := found.getD ⟨i.value, i.exponent⟩
  dropZeros (digitCount d.digits) d

end Interval

/-- The shortest decimal that identifies the magnitude of a finite nonzero double. -/
def shortest (x : Binary64) : Decimal := (Interval.ofMagnitude x).shortest

end Decimal

end StageQp
