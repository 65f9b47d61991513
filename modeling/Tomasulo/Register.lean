import Tomasulo.OrderedMap
import Tomasulo.Text.Numeral
import Tomasulo.Value

/-!
# Registers

A register file holds a register for every name that a program mentions.  A register has no value
yet, holds one, or waits for the station that will produce its next one.  Files list their registers
in display order: by the characters that are no digits, then by the number that the digits form,
then by the whole name, so that `f2` stands before `f10`.
-/

namespace Tomasulo

/-- The content of a register. -/
inductive Register where
  | empty
  | ready (value : Float)
  | pending (station : Nat)
deriving BEq

namespace Register

/-- The value, if the register holds one. -/
def value? : Register → Option Float
  | ready value => some value
  | _ => none

/-- The station that will produce the register's value, if one will. -/
def producer? : Register → Option Nat
  | pending station => some station
  | _ => none

/-- The text of a register: a dash, its value, or the number of the station that it waits for. -/
def text : Register → String
  | empty => "-"
  | ready value => Value.short value
  | pending station => s!"[#{station}]"

/-- The register after a station has published a value. -/
def receive (producer : Nat) (value : Float) : Register → Register
  | pending station => if station = producer then ready value else pending station
  | register => register

end Register

/-- The characters of a name that are no ASCII digits. -/
def nameLetters (name : String) : String :=
  String.ofList (name.toList.filter fun c => !c.isDigit)

/-- The number formed by the ASCII digits of a name; zero if it does not fit in 64 bits. -/
def nameNumber (name : String) : Nat :=
  let n := Text.decimalValue (name.toList.filter Char.isDigit)
  if n < Word.limit then n else 0

/-- The order in which registers are listed. -/
def displayOrder : String → String → Ordering :=
  compareLex (compareOn nameLetters) (compareLex (compareOn nameNumber) compare)

instance : Std.TransCmp displayOrder :=
  inferInstanceAs (Std.TransCmp (compareLex _ (compareLex _ _)))

instance : Std.LawfulEqCmp displayOrder where
  eq_of_compare h := by
    simp only [displayOrder, compareLex, Ordering.then_eq_eq] at h
    exact Std.LawfulEqCmp.eq_of_compare h.2.2

/-- The registers of a machine state by name. -/
abbrev RegisterFile := OrderedMap String Register displayOrder

namespace RegisterFile

/-- The content of a register; a name that is not in the file has no value. -/
def get (file : RegisterFile) (name : String) : Register :=
  (file.find? name).getD .empty

/-- Gives a register a value. -/
def write (file : RegisterFile) (name : String) (value : Float) : RegisterFile :=
  file.insert name (.ready value)

/-- Makes a register wait for a station. -/
def await (file : RegisterFile) (name : String) (station : Nat) : RegisterFile :=
  file.insert name (.pending station)

/-- The names of the registers that wait for a station, in display order. -/
def awaiting (file : RegisterFile) (station : Nat) : List String :=
  (file.entries.filter fun entry => entry.2.producer? == some station).map Prod.fst

/-- Gives every register that waits for a station the value that the station published. -/
def receive (file : RegisterFile) (producer : Nat) (value : Float) : RegisterFile :=
  file.mapValues (Register.receive producer value)

end RegisterFile

end Tomasulo
