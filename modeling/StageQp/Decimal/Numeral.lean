import StageQp.Number.Binary64

/-!
# StageQp.Decimal.Numeral

Reading numbers from text.  A numeral is the whole text, without blanks.

* a count: an optional plus sign and decimal digits, of a number below `2 ^ 64`;
* a double: an optional sign, then `inf`, `infinity` or `nan` in any case, or
  digits with at most one point and at least one digit, then optionally `e` or
  `E`, an optional sign and digits.
-/

namespace StageQp.Numeral

def digit? (c : Char) : Option Nat :=
  if '0' ≤ c ∧ c ≤ '9' then some (c.toNat - '0'.toNat) else none

/-- The number written by a list of digits, continuing `acc`; `none` if another
character stands among them. -/
def digitsFrom? (acc : Nat) : List Char → Option Nat
  | [] => some acc
  | c :: cs => do
    let d ← digit? c
    digitsFrom? (10 * acc + d) cs

/-- A nonempty list of digits, as a number. -/
def digits? (cs : List Char) : Option Nat :=
  if cs.isEmpty then none else digitsFrom? 0 cs

/-- The count a text denotes, if it denotes one below `2 ^ 64`. -/
def count? (text : String) : Option UInt64 := do
  let digits := match text.toList with
    | '+' :: cs => cs
    | cs => cs
  let n ← digits? digits
  if n < 2 ^ 64 then some (UInt64.ofNat n) else none

/-! ## Doubles -/

/-- An optional sign, and what follows it; `true` is minus. -/
def sign : List Char → Bool × List Char
  | '-' :: cs => (true, cs)
  | '+' :: cs => (false, cs)
  | cs => (false, cs)

/-- The exponent part of a numeral: nothing, or a mark, an optional sign and digits. -/
def exponent? : List Char → Option Int
  | [] => some 0
  | mark :: cs => do
    if mark ≠ 'e' ∧ mark ≠ 'E' then none
    let (negative, ds) := sign cs
    let n ← digits? ds
    some (if negative then -(n : Int) else n)

/-- The digits before and behind the point, as one number and the count of
those behind it, and the exponent part. -/
def fields? (cs : List Char) : Option (Nat × Nat × Int) := do
  let whole := cs.takeWhile fun c => (digit? c).isSome
  let rest := cs.drop whole.length
  let (fraction, rest) := match rest with
    | '.' :: ds =>
      let fraction := ds.takeWhile fun c => (digit? c).isSome
      (fraction, ds.drop fraction.length)
    | ds => ([], ds)
  let n ← digits? (whole ++ fraction)
  let e ← exponent? rest
  some (n, fraction.length, e)

/-- The double nearest to `n * 10 ^ e`.  Past four hundred places on either side
of the digits the answer is known to be infinity or zero, and no power is formed. -/
def nearest (negative : Bool) (n : Nat) (e : Int) : Binary64 :=
  let top := e + (Nat.toDigits 10 n).length
  if n = 0 ∨ top < -400 then Binary64.ofQuotient negative 0 1
  else if 400 < top then Binary64.ofQuotient negative (2 ^ 1024) 1
  else if 0 ≤ e then Binary64.ofQuotient negative (n * 10 ^ e.toNat) 1
  else Binary64.ofQuotient negative n (10 ^ (-e).toNat)

/-- The names that stand for a double, in lower case. -/
def named? (word : String) : Option Binary64 :=
  if word = "inf" ∨ word = "infinity" then some ⟨0x7FF0000000000000⟩
  else if word = "nan" then some ⟨0x7FF8000000000000⟩
  else none

/-- The double a text denotes, if it denotes one. -/
def double? (text : String) : Option Binary64 :=
  let (negative, cs) := sign text.toList
  match named? (String.ofList (cs.map Char.toLower)) with
  | some x => some (if negative then x.neg else x)
  | none => (fields? cs).map fun (n, places, e) => nearest negative n (e - places)

end StageQp.Numeral
