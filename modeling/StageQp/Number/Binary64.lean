import StageQp.Number.Scalar

/-!
# StageQp.Number.Binary64

IEEE-754 double precision values, held as their 64 bits so that moving one
keeps every bit of it.  Arithmetic is the machine's, one rounding to an
operation.  Sign changes are bit operations.

The second half reads a value as an exact integer `significand * 2 ^ scale`
and rounds an exact quotient back, to nearest with ties to even; conversions
between integers, decimals and doubles go through these two.
-/

namespace StageQp

/-- Powers of natural numbers are their own, also where an algebra library with
powers of monoids is in scope. -/
@[default_instance 20000]
instance (priority := 2000) natPow : Pow Nat Nat := instPowNat

/-- A double precision value, by its bits. -/
structure Binary64 where
  /-- Sign, eleven bits of exponent, fifty-two bits of fraction. -/
  bits : UInt64
deriving DecidableEq, Repr, Inhabited

namespace Binary64

/-! ## Arithmetic -/

/-- The machine value with these bits. -/
def toFloat (x : Binary64) : Float := Float.ofBits x.bits

/-- The bits of a machine value. -/
def ofFloat (x : Float) : Binary64 := ⟨x.toBits⟩

def signBit : UInt64 := 0x8000000000000000

/-- The value with the other sign, a not-a-number included: adding the top
bit modulo `2 ^ 64` flips it and nothing else. -/
def neg (x : Binary64) : Binary64 := ⟨x.bits + signBit⟩

def abs (x : Binary64) : Binary64 := ⟨x.bits % signBit⟩

def exponentBits (x : Binary64) : Nat := x.bits.toNat / 2 ^ 52 % 2 ^ 11

def fractionBits (x : Binary64) : Nat := x.bits.toNat % 2 ^ 52

def isNegative (x : Binary64) : Bool := decide (2 ^ 63 ≤ x.bits.toNat)

def isFinite (x : Binary64) : Bool := x.exponentBits != 0x7FF

def isNaN (x : Binary64) : Bool := x.exponentBits == 0x7FF && x.fractionBits != 0

instance : Scalar Binary64 where
  zero := ⟨0⟩
  one := ⟨0x3FF0000000000000⟩
  neg := neg
  add x y := ofFloat (x.toFloat + y.toFloat)
  sub x y := ofFloat (x.toFloat - y.toFloat)
  mul x y := ofFloat (x.toFloat * y.toFloat)
  div x y := ofFloat (x.toFloat / y.toFloat)
  abs := abs
  lt x y := x.toFloat < y.toFloat
  le x y := x.toFloat ≤ y.toFloat
  eq x y := x.toFloat == y.toFloat
  isFinite := isFinite

/-! ## Exact values -/

/-- The integer part of the exact form: a finite magnitude is `significand * 2 ^ scale`. -/
def significand (x : Binary64) : Nat :=
  if x.exponentBits = 0 then x.fractionBits else 2 ^ 52 + x.fractionBits

/-- The power of two of the exact form. -/
def scale (x : Binary64) : Int :=
  if x.exponentBits = 0 then -1074 else (x.exponentBits : Int) - 1075

/-- The gap to the next smaller magnitude is half the gap to the next larger. -/
def narrowBelow (x : Binary64) : Bool := x.fractionBits == 0 && x.exponentBits > 1

/-- The natural number the value denotes, if it denotes one.  Both zeros denote `0`. -/
def toNat? (x : Binary64) : Option Nat :=
  if !x.isFinite then none
  else if x.significand = 0 then some 0
  else if x.isNegative then none
  else if 0 ≤ x.scale then some (x.significand * 2 ^ x.scale.toNat)
  else
    let unit := 2 ^ (-x.scale).toNat
    if x.significand % unit = 0 then some (x.significand / unit) else none

/-- The quotient rounded to the nearest integer, a tie to the even neighbour. -/
def roundQuotient (num den : Nat) : Nat :=
  let q := num / den
  let r := num % den
  if 2 * r < den then q
  else if den < 2 * r then q + 1
  else q + q % 2

/-- The quotient `num / den` in units of `2 ^ e`, as a fraction of naturals. -/
def inUnits (num den : Nat) (e : Int) : Nat × Nat :=
  if 0 ≤ e then (num, den * 2 ^ e.toNat) else (num * 2 ^ (-e).toNat, den)

/-- The power of two that is one unit in the last place of `num / den`: the
quotient lies between `2 ^ 52` and `2 ^ 53` such units, unless the least unit
is already `2 ^ (-1074)`. -/
def unitExponent (num den : Nat) : Int :=
  let guess : Int := (num.log2 : Int) - (den.log2 : Int) - 52
  let scaled := inUnits num den guess
  let e := if scaled.1 < 2 ^ 52 * scaled.2 then guess - 1 else guess
  max e (-1074)

/-- The double nearest to `num / den`, a tie to the one with the even last bit;
infinity from half a unit past the largest finite value on.  The sign is put on
afterwards, so a negative quotient that rounds to zero gives a negative zero. -/
def ofQuotient (negative : Bool) (num den : Nat) : Binary64 :=
  let sign : UInt64 := if negative then signBit else 0
  if num = 0 then ⟨sign⟩
  else
    let e := unitExponent num den
    let scaled := inUnits num den e
    let m := roundQuotient scaled.1 scaled.2
    -- The exponent counts units from the smallest double, so a carry out of
    -- the fraction lands in the exponent by itself.
    let image := (e + 1074).toNat * 2 ^ 52 + m
    ⟨sign + UInt64.ofNat (min image 0x7FF0000000000000)⟩

/-- The double nearest to a natural number. -/
def ofNat (n : Nat) : Binary64 := ofQuotient false n 1

/-- The double nearest to an integer. -/
def ofInt (i : Int) : Binary64 := ofQuotient (i < 0) i.natAbs 1

end Binary64

end StageQp
