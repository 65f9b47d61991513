import Tomasulo.Json.Escape

/-!
# Writing JSON

Two spellings of a value: compact, without any blank, and indented, with each item and member on a
line of its own, two spaces deeper than what encloses it.
-/

namespace Tomasulo.Json

mutual

/-- The text of a value without blanks. -/
def compact : Json → String
  | .null => "null"
  | .bool value => if value then "true" else "false"
  | .number literal => literal
  | .string literal => "\"" ++ literal ++ "\""
  | .array items => "[" ++ ",".intercalate (compactItems items) ++ "]"
  | .object members => "\x7b" ++ ",".intercalate (compactMembers members) ++ "\x7d"

/-- The compact texts of the items of an array. -/
def compactItems : List Json → List String
  | [] => []
  | item :: rest => compact item :: compactItems rest

/-- The compact texts of the members of an object. -/
def compactMembers : List (String × Json) → List String
  | [] => []
  | (name, value) :: rest => ("\"" ++ name ++ "\":" ++ compact value) :: compactMembers rest

end

/-- The blanks before a line at some depth. -/
def indentation (depth : Nat) : String :=
  String.ofList (List.replicate (2 * depth) ' ')

/-- Encloses lines that stand one step deeper than `depth`; without lines the brackets touch. -/
def enclose (depth : Nat) (opening closing : String) (lines : List String) : String :=
  match lines with
  | [] => opening ++ closing
  | lines =>
      opening ++ "\n" ++ ",\n".intercalate (lines.map (indentation (depth + 1) ++ ·)) ++ "\n" ++
        indentation depth ++ closing

mutual

/-- The indented text of a value that stands at some depth. -/
def indented (depth : Nat) : Json → String
  | .array items => enclose depth "[" "]" (indentedItems (depth + 1) items)
  | .object members => enclose depth "\x7b" "\x7d" (indentedMembers (depth + 1) members)
  | .null => "null"
  | .bool value => if value then "true" else "false"
  | .number literal => literal
  | .string literal => "\"" ++ literal ++ "\""

/-- The indented texts of the items of an array. -/
def indentedItems (depth : Nat) : List Json → List String
  | [] => []
  | item :: rest => indented depth item :: indentedItems depth rest

/-- The indented texts of the members of an object. -/
def indentedMembers (depth : Nat) : List (String × Json) → List String
  | [] => []
  | (name, value) :: rest =>
      ("\"" ++ name ++ "\": " ++ indented depth value) :: indentedMembers depth rest

end

/-- The text of a document with one item or member a line. -/
def pretty (value : Json) : String :=
  indented 0 value

end Tomasulo.Json
