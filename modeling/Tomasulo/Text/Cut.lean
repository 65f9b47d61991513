/-!
# Cutting text into pieces

Text is a list of characters.  Cutting at separators keeps every stretch between them, also an empty
one; pieces are the stretches that are not empty.  Words are the pieces between blanks, which are the
characters with the Unicode property White_Space: twenty-five code points in ten ranges.
-/

namespace Tomasulo.Text

/-- Ranges of blank code points, each by its first and last one, in ascending order. -/
def blankRanges : List (Nat × Nat) :=
  [(0x9, 0xD), (0x20, 0x20), (0x85, 0x85), (0xA0, 0xA0), (0x1680, 0x1680), (0x2000, 0x200A),
   (0x2028, 0x2029), (0x202F, 0x202F), (0x205F, 0x205F), (0x3000, 0x3000)]

/-- Whether a character is blank. -/
def isBlank (c : Char) : Bool :=
  blankRanges.any fun range => range.1 ≤ c.toNat && c.toNat ≤ range.2

theorem isBlank_of_isWhitespace {c : Char} (h : c.isWhitespace) : isBlank c := by
  simp only [Char.isWhitespace, Bool.or_eq_true, decide_eq_true_eq] at h
  rcases h with ((rfl | rfl) | rfl) | rfl <;> decide

/-- The stretches before, between and after the separators, at least one of them. -/
def cut (isSeparator : Char → Bool) : List Char → List (List Char)
  | [] => [[]]
  | c :: rest =>
      if isSeparator c then [] :: cut isSeparator rest
      else (cut isSeparator rest).modifyHead (c :: ·)

/-- No stretch holds a separator. -/
theorem not_isSeparator_of_mem_cut {isSeparator : Char → Bool} {text stretch : List Char}
    {c : Char} (h : stretch ∈ cut isSeparator text) (hc : c ∈ stretch) : isSeparator c = false := by
  induction text generalizing stretch with
  | nil => simp_all [cut]
  | cons d rest ih =>
    rw [cut] at h
    split at h
    case isTrue separator =>
      rcases List.mem_cons.1 h with rfl | h
      · simp at hc
      · exact ih h hc
    case isFalse plain =>
      cases found : cut isSeparator rest with
      | nil => simp [found] at h
      | cons first others =>
        rw [found, List.modifyHead_cons, List.mem_cons] at h
        rcases h with rfl | h
        · rcases List.mem_cons.1 hc with rfl | hc
          · simpa using plain
          · exact ih (found ▸ .head _) hc
        · exact ih (found ▸ .tail _ h) hc

/-- The non-empty stretches between separators. -/
def pieces (isSeparator : Char → Bool) (text : List Char) : List (List Char) :=
  (cut isSeparator text).filter fun stretch => !stretch.isEmpty

/-- The pieces between blanks. -/
def words (text : List Char) : List (List Char) :=
  pieces isBlank text

/-- What stands before and after the first occurrence of a character. -/
def cutOnce (mark : Char) : List Char → Option (List Char × List Char)
  | [] => none
  | c :: rest =>
      if c = mark then some ([], rest)
      else (cutOnce mark rest).map fun parts => (c :: parts.1, parts.2)

theorem cutOnce_eq_some_iff {mark : Char} {text before after : List Char} :
    cutOnce mark text = some (before, after) ↔
      text = before ++ mark :: after ∧ mark ∉ before := by
  induction text generalizing before with
  | nil => simp [cutOnce]
  | cons c rest ih =>
    rw [cutOnce]
    split
    case isTrue same =>
      cases before with
      | nil => simp [same]
      | cons b before =>
        simp only [same, Option.some.injEq, Prod.mk.injEq, List.nil_eq, reduceCtorEq, false_and,
          List.cons_append, List.cons.injEq, List.mem_cons, not_or, false_iff]
        exact fun whole => whole.2.1 whole.1.1
    case isFalse apart =>
      cases before with
      | nil => simp [apart, Option.map_eq_some_iff]
      | cons b before =>
        simp only [Option.map_eq_some_iff, Prod.exists, Prod.mk.injEq, List.cons.injEq,
          List.cons_append, List.mem_cons, not_or]
        constructor
        · rintro ⟨x, y, found, ⟨rfl, rfl⟩, rfl⟩
          obtain ⟨whole, absent⟩ := ih.1 found
          exact ⟨⟨rfl, whole⟩, Ne.symm apart, absent⟩
        · rintro ⟨⟨rfl, whole⟩, -, absent⟩
          exact ⟨before, after, ih.2 ⟨whole, absent⟩, ⟨rfl, rfl⟩, rfl⟩

theorem cutOnce_eq_none_iff {mark : Char} {text : List Char} :
    cutOnce mark text = none ↔ mark ∉ text := by
  induction text with
  | nil => simp [cutOnce]
  | cons c rest ih =>
    rw [cutOnce]
    split
    case isTrue same => simp [same]
    case isFalse apart => simp [ih, Ne.symm apart]

/-- Drops blanks at the start. -/
def trimStart (text : List Char) : List Char :=
  text.dropWhile isBlank

/-- Drops blanks at both ends. -/
def trim (text : List Char) : List Char :=
  (trimStart (trimStart text).reverse).reverse

end Tomasulo.Text
