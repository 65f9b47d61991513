import Tomasulo.Assembly.Mnemonic
import Tomasulo.Text.Alphanumeric
import Tomasulo.Text.Cut
import Tomasulo.Text.Numeral

/-!
# Statements

A statement is a mnemonic and, after the first space, operands between commas and blanks.  Operands
are read by the family of the mnemonic; operands beyond those that the family takes are ignored.
A word that reads as a 64-bit integer literal is an immediate and never names a register.
-/

namespace Tomasulo.Assembly

/-- A mnemonic as written, and what the statement does. -/
structure Statement where
  mnemonic : String
  operation : Operation

/-- An immediate: a literal that fits in a signed 64-bit word. -/
def immediate? (token : List Char) : Option Int :=
  Text.signedWord? token

/-- A word: letters, numbers and underscores, at least one. -/
def word? (token : List Char) : Option String :=
  if !token.isEmpty && token.all (fun c => Text.isAlphanumeric c || c == '_') then
    some (String.ofList token)
  else none

/-- A register: a word that is no immediate. -/
def register? (token : List Char) : Option String :=
  if (immediate? token).isSome then none else word? token

/-- Base and offset, written `offset(base)` in one token or as two tokens. -/
def place? : List (List Char) → Option (String × Int)
  | [] => none
  | first :: rest =>
      match Text.cutOnce '(' first with
      | some (offset, base) => do
          guard (base.getLast? == some ')')
          return (← register? base.dropLast, ← immediate? offset)
      | none => do
          return (← register? first, ← immediate? (← rest.head?))

/-- Reads the operands that a family takes. -/
def operation? : Family → List (List Char) → Option Operation
  | .load, dest :: place => do
      let dest ← register? dest
      let (base, offset) ← place? place
      return .load dest base offset
  | .loadImmediate, dest :: value :: _ => do
      return .loadImmediate (← register? dest) (← immediate? value)
  | .store, source :: place => do
      let source ← register? source
      let (base, offset) ← place? place
      return .store source base offset
  | .arithmetic op, dest :: lhs :: rhs :: _ => do
      let dest ← register? dest
      let lhs ← register? lhs
      match immediate? rhs with
      | some value => return .arithmeticImmediate op dest lhs value
      | none => return .arithmetic op dest lhs (← register? rhs)
  | .arithmeticImmediate op, dest :: lhs :: value :: _ => do
      return .arithmeticImmediate op (← register? dest) (← register? lhs) (← immediate? value)
  | .branch comparison, lhs :: rhs :: target :: _ => do
      return .branch comparison (← register? lhs) (← register? rhs) (← word? target)
  | .jump, target :: _ => do
      return .jump (← word? target)
  | _, _ => none

/-- The operands after a mnemonic. -/
def operandTokens (text : List Char) : List (List Char) :=
  Text.pieces (fun c => c == ',' || Text.isBlank c) text

/-- Reads one normalised line without its label. -/
def statement? (line : List Char) : Option Statement := do
  let (mnemonic, operands) := (Text.cutOnce ' ' line).getD (line, [])
  let family ← family? mnemonic
  let operation ← operation? family (operandTokens operands)
  return ⟨String.ofList mnemonic, operation⟩

end Tomasulo.Assembly
