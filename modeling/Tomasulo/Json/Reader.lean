import Tomasulo.Json.Escape

/-!
# Reading JSON

A strict reader: one value with blanks around it and between its tokens, and nothing else.  Numbers
have no leading zeros or signs other than a minus, strings hold no raw control characters, and
nesting may be of any depth.  The number of recursive steps is bounded by the length of the text.
-/

namespace Tomasulo.Json

/-- The four characters that may stand between tokens. -/
def isGap (c : Char) : Bool :=
  c == ' ' || c == '\n' || c == '\r' || c == '\t'

/-- Drops what may stand before a token. -/
def skipGap (text : List Char) : List Char :=
  text.dropWhile isGap

/-- Splits a string after its opening quote into its literal and what follows its closing quote. -/
def readString : List Char → Option (List Char × List Char)
  | [] => none
  | '"' :: rest => some ([], rest)
  | '\\' :: 'u' :: a :: b :: c :: d :: rest => do
      guard (unit? a b c d).isSome
      let (literal, rest) ← readString rest
      return ('\\' :: 'u' :: a :: b :: c :: d :: literal, rest)
  | '\\' :: c :: rest => do
      guard (shortEscape? c).isSome
      let (literal, rest) ← readString rest
      return ('\\' :: c :: literal, rest)
  | c :: rest => do
      guard (0x20 ≤ c.toNat && c != '\\')
      let (literal, rest) ← readString rest
      return (c :: literal, rest)

/-- Splits off a non-empty run of digits. -/
def readDigits (text : List Char) : Option (List Char × List Char) :=
  let digits := text.takeWhile Char.isDigit
  if digits.isEmpty then none else some (digits, text.dropWhile Char.isDigit)

/-- Splits off the whole part of a number: a zero, or digits that do not begin with one. -/
def readWhole : List Char → Option (List Char × List Char)
  | '0' :: rest => some (['0'], rest)
  | text => readDigits text

/-- Splits off a fraction if a point follows. -/
def readFraction : List Char → Option (List Char × List Char)
  | '.' :: rest => do
      let (digits, rest) ← readDigits rest
      return ('.' :: digits, rest)
  | text => some ([], text)

/-- Splits off a power of ten if its mark follows. -/
def readPower : List Char → Option (List Char × List Char)
  | mark :: rest =>
      if mark = 'e' || mark = 'E' then
        match rest with
        | '+' :: rest => do
            let (digits, rest) ← readDigits rest
            return (mark :: '+' :: digits, rest)
        | '-' :: rest => do
            let (digits, rest) ← readDigits rest
            return (mark :: '-' :: digits, rest)
        | rest => do
            let (digits, rest) ← readDigits rest
            return (mark :: digits, rest)
      else some ([], mark :: rest)
  | [] => some ([], [])

/-- Splits off a number literal. -/
def readNumber (text : List Char) : Option (List Char × List Char) := do
  let (sign, text) := match text with
    | '-' :: rest => (['-'], rest)
    | text => ([], text)
  let (whole, text) ← readWhole text
  let (fraction, text) ← readFraction text
  let (power, text) ← readPower text
  return (sign ++ whole ++ fraction ++ power, text)

mutual

/-- Splits off a value. -/
def readValue : Nat → List Char → Option (Json × List Char)
  | 0, _ => none
  | fuel + 1, text =>
      match skipGap text with
      | 'n' :: 'u' :: 'l' :: 'l' :: rest => some (.null, rest)
      | 't' :: 'r' :: 'u' :: 'e' :: rest => some (.bool true, rest)
      | 'f' :: 'a' :: 'l' :: 's' :: 'e' :: rest => some (.bool false, rest)
      | '"' :: rest => do
          let (literal, rest) ← readString rest
          return (.string (String.ofList literal), rest)
      | '[' :: rest =>
          match skipGap rest with
          | ']' :: rest => some (.array [], rest)
          | rest => do
              let (items, rest) ← readItems fuel rest
              return (.array items, rest)
      | '{' :: rest =>
          match skipGap rest with
          | '}' :: rest => some (.object [], rest)
          | rest => do
              let (members, rest) ← readMembers fuel rest
              return (.object members, rest)
      | rest => do
          let (literal, rest) ← readNumber rest
          return (.number (String.ofList literal), rest)

/-- Splits off the items of an array that has some, with the closing bracket. -/
def readItems : Nat → List Char → Option (List Json × List Char)
  | 0, _ => none
  | fuel + 1, text => do
      let (item, rest) ← readValue fuel text
      match skipGap rest with
      | ']' :: rest => return ([item], rest)
      | ',' :: rest =>
          let (items, rest) ← readItems fuel rest
          return (item :: items, rest)
      | _ => none

/-- Splits off the members of an object that has some, with the closing brace. -/
def readMembers : Nat → List Char → Option (List (String × Json) × List Char)
  | 0, _ => none
  | fuel + 1, text =>
      match skipGap text with
      | '"' :: rest => do
          let (name, rest) ← readString rest
          match skipGap rest with
          | ':' :: rest =>
              let (value, rest) ← readValue fuel rest
              match skipGap rest with
              | '}' :: rest => return ([(String.ofList name, value)], rest)
              | ',' :: rest =>
                  let (members, rest) ← readMembers fuel rest
                  return ((String.ofList name, value) :: members, rest)
              | _ => none
          | _ => none
      | _ => none

end

/-- Reads a document. -/
def read? (document : String) : Option Json := do
  let text := document.toList
  let (value, rest) ← readValue (2 * text.length + 2) text
  guard (skipGap rest).isEmpty
  return value

end Tomasulo.Json
