import Tomasulo.Json.Basic

/-!
# Escapes in JSON strings

Between the quotes of a string, the quote, the backslash and the control characters are written as
escapes.  Reading back also knows an escape for every sixteen-bit unit; a unit that is half of a
surrogate pair denotes no character unless the other half follows.  What was written reads back as the
same text, by `unescape?_escape`.
-/

namespace Tomasulo.Json

/-- The value of a hexadecimal digit in either case. -/
def hexValue? (c : Char) : Option Nat :=
  if c.isDigit then some (c.toNat - '0'.toNat)
  else if 'a' ≤ c && c ≤ 'f' then some (c.toNat - 'a'.toNat + 10)
  else if 'A' ≤ c && c ≤ 'F' then some (c.toNat - 'A'.toNat + 10)
  else none

/-- The value of four hexadecimal digits. -/
def unit? (a b c d : Char) : Option Nat := do
  return (← hexValue? a) * 0x1000 + (← hexValue? b) * 0x100 + (← hexValue? c) * 0x10 +
    (← hexValue? d)

/-- The character that a one-letter escape stands for. -/
def shortEscape? : Char → Option Char
  | '"' => some '"'
  | '\\' => some '\\'
  | '/' => some '/'
  | 'b' => some '\x08'
  | 'f' => some '\x0c'
  | 'n' => some '\n'
  | 'r' => some '\r'
  | 't' => some '\t'
  | _ => none

/-- Writes one character between quotes. -/
def escapeChar (c : Char) : List Char :=
  if c = '"' then ['\\', '"']
  else if c = '\\' then ['\\', '\\']
  else if c = '\x08' then ['\\', 'b']
  else if c = '\x0c' then ['\\', 'f']
  else if c = '\n' then ['\\', 'n']
  else if c = '\r' then ['\\', 'r']
  else if c = '\t' then ['\\', 't']
  else if c.toNat < 0x20 then
    ['\\', 'u', '0', '0', Nat.digitChar (c.toNat / 16), Nat.digitChar (c.toNat % 16)]
  else [c]

/-- What is written between quotes for a text. -/
def escape (text : String) : String :=
  String.ofList (text.toList.flatMap escapeChar)

/-- The text that is written between quotes, unless a surrogate stands alone or an escape is
unknown. -/
def unescapeChars? : List Char → Option (List Char)
  | [] => some []
  | '\\' :: 'u' :: a :: b :: c :: d :: rest => do
      let high ← unit? a b c d
      if high < 0xD800 || 0xDFFF < high then
        return Char.ofNat high :: (← unescapeChars? rest)
      else if 0xDC00 ≤ high then none
      else
        match rest with
        | '\\' :: 'u' :: a :: b :: c :: d :: rest => do
            let low ← unit? a b c d
            if 0xDC00 ≤ low && low ≤ 0xDFFF then
              let code := 0x10000 + (high - 0xD800) * 0x400 + (low - 0xDC00)
              return Char.ofNat code :: (← unescapeChars? rest)
            else none
        | _ => none
  | '\\' :: c :: rest => do
      return (← shortEscape? c) :: (← unescapeChars? rest)
  | c :: rest => do
      if c = '\\' then none else return c :: (← unescapeChars? rest)

/-- Reads what is written between quotes. -/
def unescape? (literal : String) : Option String :=
  (unescapeChars? literal.toList).map String.ofList

theorem unit?_control {n : Nat} (h : n < 0x20) :
    unit? '0' '0' (Nat.digitChar (n / 16)) (Nat.digitChar (n % 16)) = some n := by
  revert n
  decide

theorem unescapeChars?_escapeChar_append (c : Char) (rest : List Char) :
    unescapeChars? (escapeChar c ++ rest) = (unescapeChars? rest).map (c :: ·) := by
  have short (a c : Char) (h : shortEscape? a = some c) (ha : a ≠ 'u') :
      unescapeChars? ('\\' :: a :: rest) = (unescapeChars? rest).map (c :: ·) := by
    rw [unescapeChars?]
    · rw [h]
      cases unescapeChars? rest <;> rfl
    · simp [ha]
  rw [escapeChar]
  repeat' split
  all_goals rename_i h
  · subst h; exact short '"' _ rfl (by decide)
  · subst h; exact short '\\' _ rfl (by decide)
  · subst h; exact short 'b' _ rfl (by decide)
  · subst h; exact short 'f' _ rfl (by decide)
  · subst h; exact short 'n' _ rfl (by decide)
  · subst h; exact short 'r' _ rfl (by decide)
  · subst h; exact short 't' _ rfl (by decide)
  · have low : c.toNat < 0xD800 := by omega
    rw [List.cons_append, List.cons_append, List.cons_append, List.cons_append, List.cons_append,
      List.cons_append, List.nil_append, unescapeChars?, unit?_control h]
    change (if (c.toNat < 0xD800 || 0xDFFF < c.toNat) = true then _ else _) = _
    rw [if_pos (by simp [low]), Char.ofNat_toNat]
    cases unescapeChars? rest <;> rfl
  · rename_i plain _ _ _ _ _
    rw [List.singleton_append, unescapeChars?]
    · rw [if_neg plain]
      cases unescapeChars? rest <;> rfl
    all_goals simp [plain]

/-- Reading back what was written gives the text. -/
theorem unescape?_escape (text : String) : unescape? (escape text) = some text := by
  have chars (text : List Char) : unescapeChars? (text.flatMap escapeChar) = some text := by
    induction text with
    | nil => rfl
    | cons c rest ih => simp [List.flatMap_cons, unescapeChars?_escapeChar_append, ih]
  simp [unescape?, escape, chars]

/-- A string value that denotes a text. -/
def ofString (text : String) : Json :=
  .string (escape text)

/-- An object from names and values. -/
def ofFields (fields : List (String × Json)) : Json :=
  .object (fields.map fun field => (escape field.1, field.2))

end Tomasulo.Json
