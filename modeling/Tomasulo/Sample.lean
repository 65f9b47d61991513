import Tomasulo.Instruction
import Tomasulo.Text.Numeral
import Tomasulo.Value

/-!
# Sample values

A program that reads a register or a memory cell before anything was written there still has to run.
Such places get a small value that depends on a name alone, so the same text always runs the same.
The value is drawn from the sixteen-bit units of the name: a character below `U+10000` is one unit,
any other is a pair of surrogates that carry ten bits each.
-/

namespace Tomasulo.Text

/-- The sixteen-bit units of one character. -/
def unitsOf (c : Char) : List Nat :=
  let code := c.toNat
  if code < 0x10000 then [code]
  else [0xD800 + (code - 0x10000) / 0x400, 0xDC00 + (code - 0x10000) % 0x400]

/-- The sixteen-bit units of a text. -/
def units (text : String) : List Nat :=
  text.toList.flatMap unitsOf

end Tomasulo.Text

namespace Tomasulo.Sample

/-- Folds the sixteen-bit units of a name into a 32-bit word: the first unit starts it, each later
one is shifted up by seventeen bits, where high bits fall off, and joined by exclusive or. -/
def word (name : String) : UInt32 :=
  match Text.units name with
  | [] => 0
  | first :: later =>
      later.foldl (fun acc unit => acc ^^^ (UInt32.ofNat unit <<< 17)) (UInt32.ofNat first)

/-- The word of a name, read as a signed number. -/
def number (name : String) : Int :=
  (word name).toInt32.toInt

/-- A whole number below 999. -/
def whole (name : String) : Float :=
  Float.ofInt (max (number name) 1 % 999)

/-- The second and third digit of a number's square, written with at least four digits. -/
def middleDigits (n : Int) : Nat :=
  let square := (Value.full (Float.ofInt n * Float.ofInt n)).toList
  let padded := List.replicate (4 - square.length) '0' ++ square
  Text.decimalValue ((padded.drop 1).take 2)

/-- A number below 99 with one digit after the point. -/
def tenths (name : String) : Float :=
  let n := number name
  let units := (max n 1 % 99).toNat
  let tenth := max (middleDigits n) 1 % 9
  Float.ofScientific (10 * units + tenth) true 1

/-- Whether a word begins with an `f`, as floating-point mnemonics and registers do. -/
def isFloating (text : String) : Bool :=
  text.toList.head? == some 'f'

/-- The value of a place that an instruction touches.  Floating-point instructions get tenths; but a
floating-point load or store uses whole numbers for registers that are not floating-point. -/
def value (name mnemonic : String) (opClass : OpClass) : Float :=
  if isFloating mnemonic && (!opClass.isMemory || isFloating name) then tenths name
  else whole name

end Tomasulo.Sample
