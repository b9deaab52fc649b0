import StageQp.Decimal.Shortest

/-!
# StageQp.Decimal.Style

How the digits of a double are laid out as text.  `Style` holds the decisions,
`Style.render` applies them; the two styles of this library are `exponential`,
for option values in log lines, and `general`, for the fields of inspected
records.  `rounded` writes a fixed number of places instead of the shortest
digits.
-/

namespace StageQp.Decimal

/-- The layout decisions for a double. -/
structure Style where
  /-- Least decimal exponent of the leading digit that is written positionally. -/
  plainFrom : Int
  /-- First decimal exponent past the positional range. -/
  plainBelow : Int
  /-- Text of a zero magnitude. -/
  zero : String
deriving DecidableEq, Repr

/-- One digit, a point if more follow, the other digits, and the exponent: `1.2345e2`. -/
def exponential : Style := { plainFrom := 0, plainBelow := 0, zero := "0e0" }

/-- Positional from `0.0001` up to below `1e16`, always with a fraction part;
otherwise in exponent form. -/
def general : Style := { plainFrom := -4, plainBelow := 16, zero := "0.0" }

/-- Digits as one leading digit and the rest behind a point. -/
def pointed : List Char → String
  | [] => ""
  | [d] => String.ofList [d]
  | d :: ds => String.ofList (d :: '.' :: ds)

/-- Digits and exponent in exponent form. -/
def scientific (digits : List Char) (exponent : Int) : String :=
  pointed digits ++ "e" ++ toString exponent

/-- Digits in positional form with a fraction part; the leading digit counts `10 ^ exponent`. -/
def positional (digits : List Char) (exponent : Int) : String :=
  let zeros (n : Nat) : List Char := List.replicate n '0'
  if exponent < 0 then
    String.ofList ('0' :: '.' :: zeros (-exponent - 1).toNat ++ digits)
  else
    let whole := exponent.toNat + 1
    if digits.length ≤ whole then
      String.ofList (digits ++ zeros (whole - digits.length) ++ ['.', '0'])
    else
      String.ofList (digits.take whole ++ '.' :: digits.drop whole)

/-- A sign in front where the sign bit is set. -/
def signed (x : Binary64) (magnitude : String) : String :=
  if x.isNegative then "-" ++ magnitude else magnitude

/-- The text of the magnitude of a finite nonzero double. -/
def Style.magnitude (style : Style) (x : Binary64) : String :=
  let d := shortest x
  let digits := digitChars d.digits
  let exponent := d.exponent + digits.length - 1
  if style.plainFrom ≤ exponent ∧ exponent < style.plainBelow then positional digits exponent
  else scientific digits exponent

/-- The text of a double: the shortest digits that identify it, laid out by the style. -/
def Style.render (style : Style) (x : Binary64) : String :=
  if x.isNaN then "NaN"
  else if !x.isFinite then signed x "inf"
  else if x.significand = 0 then signed x style.zero
  else signed x (style.magnitude x)

/-! ## A fixed number of places -/

/-- The exponent form of a finite double with `places` digits behind the point,
rounded from its exact value, a tie to the even digit. -/
def rounded (places : Nat) (x : Binary64) : String :=
  if x.isNaN then "NaN"
  else if !x.isFinite then signed x "inf"
  else if x.significand = 0 then
    signed x (scientific (List.replicate (places + 1) '0') 0)
  else
    let unit := if 0 ≤ x.scale then 2 ^ x.scale.toNat else 5 ^ (-x.scale).toNat
    let value := x.significand * unit
    let count := digitCount value
    let exponent := min x.scale 0 + count - 1
    let kept := Binary64.roundQuotient (value * 10 ^ (places + 1)) (10 ^ count)
    -- A carry past the leading digit gives one digit more, the last of them zero.
    if digitCount kept ≤ places + 1 then
      signed x (scientific (digitChars kept) exponent)
    else
      signed x (scientific (digitChars (kept / 10)) (exponent + 1))

end StageQp.Decimal
