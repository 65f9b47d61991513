import Tomasulo.Assembly.Statement
import Tomasulo.Listing
import Tomasulo.Text.Numeral

/-!
# Source text

A source is read line by line.  What follows the first `#` of a line is a comment, which may hold a
directive that gives a register its initial value.  What stands before it is code: an optional label
with a colon, then at most one statement.  A label opens the section that this and later statements
belong to; statements before the first label belong to a section of their own.  Lines that hold no
statement of the language are passed over.

A carriage return before a line break is blank, so lines may end in either way.
-/

namespace Tomasulo.Assembly

/-- The section of statements that no label precedes. -/
def implicitSection : String :=
  "main"

/-- The lines of a source. -/
def linesOf (source : List Char) : List (List Char) :=
  Text.cut (· == '\n') source

/-- Code and comment of a line. -/
def splitComment (line : List Char) : List Char × Option (List Char) :=
  match Text.cutOnce '#' line with
  | some (code, comment) => (code, some comment)
  | none => (line, none)

/-- The words of a code part, with one space between them. -/
def normalise (code : List Char) : List Char :=
  [' '].intercalate (Text.words code)

/-- The normalised code of the lines that have any. -/
def codeLines (source : List Char) : List (List Char) :=
  ((linesOf source).map fun line => normalise (splitComment line).1).filter fun code =>
    !code.isEmpty

/-- The longest start of a text that has the characters of a decimal fraction. -/
def numeral : List Char → List Char
  | '-' :: rest => '-' :: rest.takeWhile fun c => c.isDigit || c == '.'
  | text => text.takeWhile fun c => c.isDigit || c == '.'

/-- Reads a comment as a directive: a name without blanks, an equals sign and a number.  What follows
the number is ignored. -/
def directive? (comment : List Char) : Option (String × Float) := do
  let (name, value) ← Text.cutOnce '=' comment
  let name := Text.trim name
  guard (!name.isEmpty && !name.any Text.isBlank)
  return (String.ofList name, ← Decimal.read? (numeral (Text.trimStart value)))

/-- The directives of a source in the order of their lines. -/
def directives (source : List Char) : List (String × Float) :=
  (linesOf source).filterMap fun line => (splitComment line).2.bind directive?

/-- Label and body of a code line.  A colon with nothing before it makes no label. -/
def splitLabel (line : List Char) : Option String × List Char :=
  match Text.cutOnce ':' line with
  | some (label, body) =>
      if (Text.trim label).isEmpty then (none, line)
      else (some (String.ofList (Text.trim label)), Text.trim body)
  | none => (none, line)

/-- Body of a code line under the section that it belongs to. -/
structure Placed where
  sectionName : String
  body : List Char

/-- Places code lines under sections, the first of them under `current` unless it has a label. -/
def place (current : String) : List (List Char) → List Placed
  | [] => []
  | line :: rest =>
      let (label, body) := splitLabel line
      let sectionName := label.getD current
      ⟨sectionName, body⟩ :: place sectionName rest

/-- Instructions under the section that they belong to, numbered from `codeOrder` on. -/
def number (codeOrder : Nat) : List Placed → List (String × Instruction)
  | [] => []
  | placed :: rest =>
      match statement? placed.body with
      | none => number codeOrder rest
      | some statement =>
          let instruction : Instruction :=
            { line := String.ofList placed.body
              mnemonic := statement.mnemonic
              codeOrder
              operation := statement.operation }
          (placed.sectionName, instruction) :: number (codeOrder + 1) rest

/-- The sections of placed lines, each with the instructions that belong to it. -/
def sectionsOf (placed : List Placed) (numbered : List (String × Instruction)) : List Section :=
  (placed.map Placed.sectionName).eraseDups.map fun name =>
    { name
      members := (numbered.filter (·.1 == name)).map (·.2.codeOrder) }

end Tomasulo.Assembly

namespace Tomasulo

/-- Reads a program; a source without a single statement is none. -/
def Listing.ofSource? (source : String) : Option Listing :=
  let text := source.toList
  let placed := Assembly.place Assembly.implicitSection (Assembly.codeLines text)
  let numbered := Assembly.number 0 placed
  if numbered.isEmpty then none
  else
    some
      { instructions := numbered.map Prod.snd
        sections := Assembly.sectionsOf placed numbered
        initialValues := .ofList (Assembly.directives text) }

end Tomasulo
