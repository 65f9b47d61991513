import Tomasulo.Text.Cut

/-!
# Numerals

An integer literal is an optional sign and decimal digits, bounded by the machine word that it has
to fit in.  A decimal fraction is an optional minus sign and digits with at most one point among,
before or after them; it is read as the nearest double, an exact half going to the even one.
-/

/-! ## Machine words -/

namespace Tomasulo.Word

/-- The number of 64-bit words, `2 ^ 64`. -/
def limit : Nat :=
  0x10000000000000000

/-- The number of 32-bit words, `2 ^ 32`. -/
def halfLimit : Nat :=
  0x100000000

/-- The least signed 64-bit word. -/
def least : Int :=
  -0x8000000000000000

/-- The greatest signed 64-bit word. -/
def greatest : Int :=
  0x7FFFFFFFFFFFFFFF

end Tomasulo.Word

/-! ## Integer literals -/

namespace Tomasulo.Text

/-- The number that a run of decimal digits denotes. -/
def decimalValue (digits : List Char) : Nat :=
  digits.foldl (fun n c => 10 * n + (c.toNat - '0'.toNat)) 0

/-- Whether a text is a non-empty run of ASCII decimal digits. -/
def isDecimal (text : List Char) : Bool :=
  !text.isEmpty && text.all Char.isDigit

/-- Reads an optional sign and digits as an integer of any size. -/
def integer? : List Char → Option Int
  | '-' :: digits => if isDecimal digits then some (-decimalValue digits) else none
  | '+' :: digits => if isDecimal digits then some (decimalValue digits) else none
  | digits => if isDecimal digits then some (decimalValue digits) else none

/-- Reads a literal whose value fits in a signed 64-bit word. -/
def signedWord? (text : List Char) : Option Int :=
  (integer? text).filter fun n => Word.least ≤ n && n ≤ Word.greatest

/-- Reads a literal, not written with a minus sign, whose value fits in an unsigned 64-bit word. -/
def unsignedWord? : List Char → Option Nat
  | '-' :: _ => none
  | text => (integer? text).bind fun n => if n < Word.limit then some n.toNat else none

end Tomasulo.Text

/-! ## Decimal fractions -/

namespace Tomasulo.Decimal

/-- Reads digits with at most one point; at least one digit is needed. -/
def unsigned? (text : List Char) : Option Float :=
  match Text.cutOnce '.' text with
  | none =>
      if Text.isDecimal text then some (Float.ofScientific (Text.decimalValue text) false 0)
      else none
  | some (whole, places) =>
      if Text.isDecimal (whole ++ places) then
        some (Float.ofScientific (Text.decimalValue (whole ++ places)) true places.length)
      else none

/-- Reads a decimal fraction. -/
def read? : List Char → Option Float
  | '-' :: text => (unsigned? text).map (- ·)
  | text => unsigned? text

end Tomasulo.Decimal
