import Tomasulo.Decimal.Shortest

/-!
# Laying out decimal numbers

Selected digits become text in one of two shapes: positional, with zeros filling the places up to
the point, or with an explicit power of ten.  Which shape is used, and what else a format decides,
is a record; the formats themselves stand beside the output that uses them.  Numbers with a fixed
count of places are rounded from the exact value of the double, a half going to the even neighbour.
-/

namespace Tomasulo.Decimal

/-- The choices of a format that writes the fewest digits that read back. -/
structure Layout where
  /-- Decides between two equally near decimals. -/
  tie : Tie
  /-- Power of the leading digit from which on numbers are written positionally, if bounded. -/
  positionalFrom : Option Int
  /-- Last power of the leading digit that is written positionally, if bounded. -/
  positionalTo : Option Int
  /-- Whether an integral number written positionally ends in a point and a zero. -/
  pointZero : Bool
  /-- Stands for not-a-number. -/
  notANumber : String
  /-- Stands for positive infinity. -/
  infinity : String
  /-- Stands for negative infinity. -/
  negativeInfinity : String

/-- Decimal digits of a natural, most significant first. -/
def digitsOf (n : Nat) : List Char :=
  Nat.toDigits 10 n

/-- A run of zeros. -/
def zeros (n : Nat) : List Char :=
  List.replicate n '0'

/-- Writes a decimal with every place down to the units or to its last digit. -/
def Scaled.positional (d : Scaled) (pointZero : Bool) : List Char :=
  let digits := digitsOf d.digits
  if 0 ≤ d.exponent then
    digits ++ zeros d.exponent.toNat ++ (if pointZero then ['.', '0'] else [])
  else
    let places := (-d.exponent).toNat
    if places < digits.length then
      digits.take (digits.length - places) ++ '.' :: digits.drop (digits.length - places)
    else
      '0' :: '.' :: (zeros (places - digits.length) ++ digits)

/-- Power of ten of the leading digit. -/
def Scaled.leadingPower (d : Scaled) : Int :=
  d.exponent + ((digitsOf d.digits).length - 1 : Nat)

/-- Writes a decimal as one digit, further digits after a point, and a signed power of ten. -/
def Scaled.scientific (d : Scaled) : List Char :=
  let power := d.leadingPower
  let mantissa :=
    match digitsOf d.digits with
    | [] => []
    | [digit] => [digit]
    | digit :: rest => digit :: '.' :: rest
  mantissa ++ 'e' :: (if power < 0 then '-' else '+') :: digitsOf power.natAbs

/-- Whether a layout writes numbers with this leading power positionally. -/
def Layout.isPositional (layout : Layout) (power : Int) : Bool :=
  layout.positionalFrom.all (· ≤ power) && layout.positionalTo.all (power ≤ ·)

/-- The text of a double under a layout. -/
def Layout.render (layout : Layout) (x : Float) : String :=
  if x.isNaN then layout.notANumber
  else if x.isInf then
    if isNegative x then layout.negativeInfinity else layout.infinity
  else
    let d := (Magnitude.ofFloat x).shortest layout.tie
    let text :=
      if layout.isPositional d.leadingPower then d.positional layout.pointZero
      else d.scientific
    String.ofList (if isNegative x then '-' :: text else text)

/-- A finite double rounded to `places` digits after the point. -/
def fixed (places : Nat) (x : Float) : String :=
  let m := Magnitude.ofFloat x
  let units := roundDiv (m.numerator * power 10 places) m.denominator
  let digits := digitsOf units
  let padded := zeros (places + 1 - digits.length) ++ digits
  let whole := padded.take (padded.length - places)
  let text := if places = 0 then whole else whole ++ '.' :: padded.drop whole.length
  String.ofList (if isNegative x then '-' :: text else text)

end Tomasulo.Decimal
