import Mathlib.Logic.Relation
import Mathlib.Tactic
import Tomasulo.Proofs.Pieces
import Tomasulo.Proofs.Source

/-!
# Noise in a source

A source can be laid out in many ways.  `Edit` lists the changes that make no difference: lines without code
and without a directive, lines of code that are passed over, other blanks between words, around a line and in
front of a comment, comments behind code, and either way of ending a line.  However many of them are made or
taken back, the source reads as the same listing (`ofSource?_eq_of_edits`).

The first line of code is special, because it opens the implicit section if it has no label.  A line that is
passed over is therefore noise only behind another line of code.
-/

namespace Tomasulo

namespace Assembly

/-- Lines with line breaks between them. -/
def joined (lines : List (List Char)) : List Char :=
  ['\n'].intercalate lines

/-- The words of a line in front of its comment, with one space between them. -/
def codeOf (line : List Char) : List Char :=
  normalise (splitComment line).1

/-- The directive of a line. -/
def directiveOf? (line : List Char) : Option (String × Float) :=
  (splitComment line).2.bind directive?

/-- Whether there is anything but blanks in front of a line's comment. -/
def HasCode (line : List Char) : Prop :=
  ∃ front c rest, line = front ++ c :: rest ∧ '#' ∉ front ++ [c] ∧ Text.isBlank c = false

/-- Whether a line is blank, or holds only a comment that is no directive. -/
inductive Void : List Char → Prop
  | blank {line : List Char} (hblank : ∀ c ∈ line, Text.isBlank c = true) : Void line
  | comment {front comment : List Char} (hfront : ∀ c ∈ front, Text.isBlank c = true)
      (hcomment : directive? comment = none) : Void (front ++ '#' :: comment)

/-- Whether a line has no label, is no statement and carries no directive. -/
structure PassedOver (line : List Char) : Prop where
  label : label? (codeOf line) = none
  statement : statement? (codeOf line) = none
  directive : directiveOf? line = none

/-- Whether one line differs from another in blanks, also around a directive, or in a comment that is no
directive. -/
inductive Respelled : List Char → List Char → Prop
  | between (left run other right : List Char) (hleft : '#' ∉ left)
      (hrun : run ≠ [] ∧ ∀ c ∈ run, Text.isBlank c = true)
      (hother : other ≠ [] ∧ ∀ c ∈ other, Text.isBlank c = true) :
      Respelled (left ++ run ++ right) (left ++ other ++ right)
  | leading (line run : List Char) (hrun : ∀ c ∈ run, Text.isBlank c = true) :
      Respelled line (run ++ line)
  | trailing (line run : List Char) (hrun : ∀ c ∈ run, Text.isBlank c = true) :
      Respelled line (line ++ run)
  | beforeComment (front comment run : List Char) (hfront : '#' ∉ front)
      (hrun : ∀ c ∈ run, Text.isBlank c = true) :
      Respelled (front ++ '#' :: comment) (front ++ run ++ '#' :: comment)
  | commented (line comment : List Char) (hline : '#' ∉ line) (hcomment : directive? comment = none) :
      Respelled line (line ++ '#' :: comment)

/-- Changes of a source that make no difference. -/
inductive Edit : List Char → List Char → Prop
  | void (before after : List (List Char)) (line : List Char)
      (hlines : ∀ l ∈ before ++ line :: after, '\n' ∉ l) (hvoid : Void line) :
      Edit (joined (before ++ after)) (joined (before ++ line :: after))
  /-- Not in front of all code; a line that holds only a comment counts as blank here. -/
  | passedOver (before after : List (List Char)) (line : List Char)
      (hlines : ∀ l ∈ before ++ line :: after, '\n' ∉ l) (hpassed : PassedOver line)
      (hfirst : ∃ earlier ∈ before, HasCode earlier) :
      Edit (joined (before ++ after)) (joined (before ++ line :: after))
  | respelled (before after : List (List Char)) {line other : List Char}
      (hlines : ∀ l ∈ before ++ line :: other :: after, '\n' ∉ l) (hrespelled : Respelled line other) :
      Edit (joined (before ++ line :: after)) (joined (before ++ other :: after))
  | lineEnd (before after : List Char) : Edit (before ++ '\n' :: after) (before ++ '\r' :: '\n' :: after)

/-! ## Comments -/

section Comments

variable {front line comment run : List Char}

theorem splitComment_of_not_mem (hline : '#' ∉ line) : splitComment line = (line, none) := by
  rw [splitComment, Text.cutOnce_eq_none_iff.mpr hline]

theorem splitComment_append (hfront : '#' ∉ front) (comment : List Char) :
    splitComment (front ++ '#' :: comment) = (front, some comment) := by
  rw [splitComment, Text.cutOnce_eq_some_iff.mpr ⟨rfl, hfront⟩]

/-- A line has no comment or is divided by its first sign of one. -/
theorem comment_cases (line : List Char) :
    '#' ∉ line ∨ ∃ front comment, '#' ∉ front ∧ line = front ++ '#' :: comment := by
  cases hcut : Text.cutOnce '#' line with
  | none => exact .inl (Text.cutOnce_eq_none_iff.mp hcut)
  | some parts =>
      obtain ⟨hline, hfront⟩ := Text.cutOnce_eq_some_iff.mp hcut
      exact .inr ⟨parts.1, parts.2, hfront, hline⟩

/-- What is put in front of a line belongs to its code. -/
theorem splitComment_front_append (hfront : '#' ∉ front) (line : List Char) :
    splitComment (front ++ line) = (front ++ (splitComment line).1, (splitComment line).2) := by
  rcases comment_cases line with hline | ⟨code, comment, hcode, rfl⟩
  · rw [splitComment_of_not_mem hline, splitComment_of_not_mem (by simp [hfront, hline])]
  · rw [splitComment_append hcode, ← List.append_assoc, splitComment_append (by simp [hfront, hcode])]

theorem not_mem_of_blank (mark : Char) (hmark : Text.isBlank mark = false)
    (hrun : ∀ c ∈ run, Text.isBlank c = true) : mark ∉ run := by
  intro hmem
  simp [hrun mark hmem] at hmark

/-! ### Directives -/

theorem cutOnce_append {mark : Char} (hrun : mark ∉ run) (text : List Char) :
    Text.cutOnce mark (text ++ run) =
      (Text.cutOnce mark text).map fun parts => (parts.1, parts.2 ++ run) := by
  cases hcut : Text.cutOnce mark text with
  | none =>
      rw [Text.cutOnce_eq_none_iff] at hcut
      rw [Text.cutOnce_eq_none_iff.mpr (by simp [hcut, hrun]), Option.map_none]
  | some parts =>
      obtain ⟨rfl, hfront⟩ := Text.cutOnce_eq_some_iff.mp hcut
      rw [List.append_assoc, List.cons_append, Text.cutOnce_eq_some_iff.mpr ⟨rfl, hfront⟩,
        Option.map_some]

/-- Blanks are no part of a numeral. -/
theorem numeral_char_of_blank {c : Char} (hblank : Text.isBlank c = true) :
    (c.isDigit || c == '.') = false := by
  simp only [Text.isBlank, Text.blankRanges, List.any_cons, List.any_nil, Bool.or_eq_true,
    Bool.and_eq_true, decide_eq_true_eq, Bool.or_false] at hblank
  rw [Bool.or_eq_false_iff, beq_eq_false_iff_ne]
  constructor
  · have hdigit : c.isDigit = true ↔ 48 ≤ c.toNat ∧ c.toNat ≤ 57 := by
      simp [Char.isDigit, UInt32.le_iff_toNat_le]
    rw [Bool.eq_false_iff, ne_eq, hdigit]
    omega
  · rintro rfl
    revert hblank
    decide

theorem takeWhile_append_blanks (hrun : ∀ c ∈ run, Text.isBlank c = true) (text : List Char) :
    (text ++ run).takeWhile (fun c => c.isDigit || c == '.') =
      text.takeWhile fun c => c.isDigit || c == '.' := by
  have hnone : run.takeWhile (fun c => c.isDigit || c == '.') = [] := by
    cases run with
    | nil => rfl
    | cons c rest => simp [numeral_char_of_blank (hrun c (List.mem_cons_self ..))]
  rw [List.takeWhile_append, hnone, List.append_nil]
  split
  case isTrue hall => rw [(List.takeWhile_prefix _).eq_of_length hall]
  case isFalse => rfl

/-- Blanks behind a value are not part of its numeral. -/
theorem numeral_append (hrun : ∀ c ∈ run, Text.isBlank c = true) (text : List Char) :
    numeral (Text.trimStart (text ++ run)) = numeral (Text.trimStart text) := by
  rw [Text.trimStart, Text.trimStart, List.dropWhile_append]
  cases htrimmed : text.dropWhile Text.isBlank with
  | nil =>
      have hnothing : run.dropWhile Text.isBlank = [] := List.dropWhile_eq_nil_iff.mpr hrun
      rw [hnothing]
      rfl
  | cons c rest =>
      rw [List.isEmpty_cons, if_neg Bool.false_ne_true]
      by_cases hminus : c = '-'
      · subst hminus
        exact congrArg ('-' :: ·) (takeWhile_append_blanks hrun rest)
      · rw [numeral.eq_2 _ (by simpa using hminus), numeral.eq_2 _ (by simpa using hminus)]
        exact takeWhile_append_blanks hrun (c :: rest)

theorem directive?_append (hrun : ∀ c ∈ run, Text.isBlank c = true) (comment : List Char) :
    directive? (comment ++ run) = directive? comment := by
  rw [directive?, directive?, cutOnce_append (not_mem_of_blank '=' (by decide) hrun)]
  cases Text.cutOnce '=' comment with
  | none => rfl
  | some parts => simp only [Option.map_some, Option.bind_eq_bind, Option.bind_some, numeral_append hrun]

end Comments

/-! ## Lines -/

section Lines

variable {front line other run : List Char} {lines : List (List Char)}

theorem codeOf_eq_of_words {a b : List Char} (hwords : Text.words a = Text.words b) :
    normalise a = normalise b := by
  rw [normalise, normalise, hwords]

/-- Other blanks in front of a comment, around it or behind it, or a new one, leave code and directive. -/
theorem Respelled.same (hrespelled : Respelled line other) :
    codeOf line = codeOf other ∧ directiveOf? line = directiveOf? other := by
  cases hrespelled with
  | between left run other right hleft hrun hother =>
      have hmark {run : List Char} (hrun : ∀ c ∈ run, Text.isBlank c = true) : '#' ∉ left ++ run := by
        simp [hleft, not_mem_of_blank '#' (by decide) hrun]
      have hsplit := splitComment_front_append (hmark hrun.2) right
      have hsplit' := splitComment_front_append (hmark hother.2) right
      refine ⟨?_, by rw [directiveOf?, directiveOf?, hsplit, hsplit']⟩
      rw [codeOf, codeOf, hsplit, hsplit']
      refine codeOf_eq_of_words ?_
      rw [Text.words, Text.words, Text.pieces_append_run hrun.2 hrun.1,
        Text.pieces_append_run hother.2 hother.1]
  | leading line run hrun =>
      have hsplit := splitComment_front_append (not_mem_of_blank '#' (by decide) hrun) line
      refine ⟨?_, by rw [directiveOf?, directiveOf?, hsplit]⟩
      rw [codeOf, codeOf, hsplit]
      exact codeOf_eq_of_words (Text.pieces_run_append hrun _).symm
  | trailing line run hrun =>
      rcases comment_cases line with hline | ⟨code, comment, hcode, rfl⟩
      · have hmore := not_mem_of_blank '#' (by decide) hrun
        rw [codeOf, codeOf, directiveOf?, directiveOf?, splitComment_of_not_mem hline,
          splitComment_of_not_mem (List.not_mem_append hline hmore)]
        exact ⟨codeOf_eq_of_words (Text.pieces_append_of_separators hrun _).symm, rfl⟩
      · rw [List.append_assoc, List.cons_append, codeOf, codeOf, directiveOf?, directiveOf?,
          splitComment_append hcode, splitComment_append hcode]
        exact ⟨rfl, (directive?_append hrun comment).symm⟩
  | beforeComment front comment run hfront hrun =>
      have hmore := not_mem_of_blank '#' (by decide) hrun
      rw [codeOf, codeOf, directiveOf?, directiveOf?, splitComment_append hfront,
        splitComment_append (List.not_mem_append hfront hmore)]
      exact ⟨codeOf_eq_of_words (Text.pieces_append_of_separators hrun _).symm, rfl⟩
  | commented line comment hline hcomment =>
      rw [codeOf, codeOf, directiveOf?, directiveOf?, splitComment_of_not_mem hline,
        splitComment_append hline]
      exact ⟨rfl, hcomment.symm⟩

theorem normalise_eq_nil_iff {code : List Char} :
    normalise code = [] ↔ ∀ c ∈ code, Text.isBlank c = true := by
  rw [← (Text.pieces_pieces Text.isBlank code).eq_nil_iff]
  change [' '].intercalate (Text.pieces Text.isBlank code) = [] ↔ _
  cases hwords : Text.pieces Text.isBlank code with
  | nil => simp
  | cons word words =>
      have hword : word ≠ [] := Text.ne_nil_of_mem_pieces (hwords ▸ List.mem_cons_self ..)
      cases words <;> simp [List.intercalate, hword]

theorem Void.same (hvoid : Void line) : codeOf line = [] ∧ directiveOf? line = none := by
  cases hvoid with
  | blank hblank =>
      have hsplit := splitComment_of_not_mem (not_mem_of_blank '#' (by decide) hblank)
      exact ⟨by rw [codeOf, hsplit, normalise_eq_nil_iff.mpr hblank], by rw [directiveOf?, hsplit]; rfl⟩
  | comment hfront hcomment =>
      have hsplit := splitComment_append (not_mem_of_blank '#' (by decide) hfront)
      exact ⟨by rw [codeOf, hsplit, normalise_eq_nil_iff.mpr hfront],
        by rw [directiveOf?, hsplit]; exact hcomment⟩

theorem HasCode.codeOf_ne_nil (hcode : HasCode line) : codeOf line ≠ [] := by
  obtain ⟨front, c, rest, rfl, hfront, hplain⟩ := hcode
  have hsplit := splitComment_front_append hfront rest
  rw [List.append_assoc, List.singleton_append] at hsplit
  rw [codeOf, hsplit, ne_eq, normalise_eq_nil_iff]
  intro hblank
  have hc := hblank c (by simp)
  simp [hplain] at hc

/-! ### Lines of a text -/

theorem linesOf_eq_splitOn (text : List Char) : linesOf text = text.splitOn '\n' :=
  Text.cut_eq_splitOnP _ text

/-- Every text is its lines with line breaks between them. -/
theorem joined_linesOf (text : List Char) : joined (linesOf text) = text := by
  rw [joined, linesOf_eq_splitOn, List.intercalate_splitOn]

theorem linesOf_joined (hlines : ∀ l ∈ lines, '\n' ∉ l) (hnonempty : lines ≠ []) :
    linesOf (joined lines) = lines := by
  rw [joined, linesOf_eq_splitOn, List.splitOn_intercalate _ hlines hnonempty]

theorem codeLines_joined (hlines : ∀ l ∈ lines, '\n' ∉ l) :
    codeLines (joined lines) = (lines.map codeOf).filter fun code => !code.isEmpty := by
  rcases eq_or_ne lines [] with rfl | hnonempty
  · rfl
  · rw [codeLines, linesOf_joined hlines hnonempty]
    rfl

theorem directives_joined (hlines : ∀ l ∈ lines, '\n' ∉ l) :
    directives (joined lines) = lines.filterMap directiveOf? := by
  rcases eq_or_ne lines [] with rfl | hnonempty
  · rfl
  · rw [directives, linesOf_joined hlines hnonempty]
    rfl

end Lines

/-! ## Lines that are passed over -/

section PassedOver

variable {line : List Char} {front rest : List (List Char)} {current : String}

/-- The section that is running behind some lines. -/
def sectionAfter (current : String) : List (List Char) → String
  | [] => current
  | line :: rest => sectionAfter ((label? line).getD current) rest

theorem place_append (current : String) (front rest : List (List Char)) :
    place current (front ++ rest) = place current front ++ place (sectionAfter current front) rest := by
  induction front generalizing current with
  | nil => rfl
  | cons line front ih =>
      show _ :: place ((label? line).getD current) (front ++ rest) = _
      rw [ih]
      rfl

/-- The running section is that of the last line. -/
theorem sectionAfter_mem (hfront : front ≠ []) :
    sectionAfter current front ∈ (place current front).map Placed.sectionName := by
  induction front generalizing current with
  | nil => exact absurd rfl hfront
  | cons line front ih =>
      show sectionAfter ((label? line).getD current) front ∈
        (label? line).getD current :: (place ((label? line).getD current) front).map Placed.sectionName
      cases front with
      | nil => exact List.mem_cons_self ..
      | cons next others => exact List.mem_cons_of_mem _ (ih (by simp))

/-- A body without a statement is not counted. -/
theorem number_append_cons {entry : Placed} (hentry : statement? entry.body = none)
    (before after : List Placed) (codeOrder : Nat) :
    number codeOrder (before ++ entry :: after) = number codeOrder (before ++ after) := by
  induction before generalizing codeOrder with
  | nil => rw [List.nil_append, List.nil_append, number, hentry]
  | cons first before ih =>
      rw [List.cons_append, List.cons_append, number, number]
      cases statement? first.body with
      | none => exact ih codeOrder
      | some statement => exact congrArg _ (ih (codeOrder + 1))

/-- What occurred before does not appear once more. -/
theorem eraseDups_append_cons {α : Type} [BEq α] [LawfulBEq α] {x : α} {before : List α}
    (hx : x ∈ before) (after : List α) :
    (before ++ x :: after).eraseDups = (before ++ after).eraseDups := by
  rw [List.eraseDups_append, List.eraseDups_append, List.cons_removeAll, if_neg]
  simpa using hx

theorem label?_eq_none_iff : label? line = none ↔ splitLabel line = (none, line) := by
  rw [label?]
  refine ⟨fun hlabel => ?_, fun hsplit => by rw [hsplit]⟩
  unfold splitLabel at hlabel ⊢
  split
  case h_2 => rfl
  case h_1 label rest hcut =>
    simp only [hcut] at hlabel
    split
    case isTrue => rfl
    case isFalse hnamed => simp [hnamed] at hlabel

/-- Behind another line of code, a line that is passed over is placed in a section that is there already, and
holds nothing. -/
theorem placed_passedOver (hlabel : label? line = none) (hstatement : statement? line = none)
    (hfront : front ≠ []) (rest : List (List Char)) :
    numbered (front ++ line :: rest) = numbered (front ++ rest) ∧
      (sectionNames (front ++ line :: rest)).eraseDups = (sectionNames (front ++ rest)).eraseDups := by
  let before := place implicitSection front
  let name := sectionAfter implicitSection front
  have hwith : placed (front ++ line :: rest) = before ++ ⟨name, line⟩ :: place name rest := by
    rw [placed, place_append, place, label?_eq_none_iff.mp hlabel]
    rfl
  have hwithout : placed (front ++ rest) = before ++ place name rest := place_append _ _ _
  constructor
  · rw [numbered, numbered, hwith, hwithout, number_append_cons hstatement]
  · rw [sectionNames, sectionNames, hwith, hwithout, List.map_append, List.map_cons, List.map_append]
    exact eraseDups_append_cons (sectionAfter_mem hfront) _

end PassedOver

/-! ## Main statement -/

/-- Whether two texts read alike: the same instructions in the same sections, and the same directives. -/
structure ReadsAlike (text other : List Char) : Prop where
  numbered : numbered (codeLines text) = numbered (codeLines other)
  names : (sectionNames (codeLines text)).eraseDups = (sectionNames (codeLines other)).eraseDups
  directives : directives text = directives other

theorem ReadsAlike.of_lines {text other : List Char} (hcode : codeLines text = codeLines other)
    (hdirectives : Assembly.directives text = Assembly.directives other) : ReadsAlike text other :=
  ⟨by rw [hcode], by rw [hcode], hdirectives⟩

theorem readsAlike_of_void {before after : List (List Char)} {line : List Char}
    (hlines : ∀ l ∈ before ++ line :: after, '\n' ∉ l) (hcode : codeOf line = [])
    (hdirective : directiveOf? line = none) :
    ReadsAlike (joined (before ++ after)) (joined (before ++ line :: after)) := by
  have hothers : ∀ l ∈ before ++ after, '\n' ∉ l := fun l hl => hlines l (by grind)
  refine .of_lines ?_ ?_
  · rw [codeLines_joined hlines, codeLines_joined hothers]
    simp [hcode]
  · rw [directives_joined hlines, directives_joined hothers]
    simp [hdirective]

theorem readsAlike_of_passedOver {before after : List (List Char)} {line : List Char}
    (hlines : ∀ l ∈ before ++ line :: after, '\n' ∉ l) (hpassed : PassedOver line)
    (hfirst : ∃ earlier ∈ before, HasCode earlier) :
    ReadsAlike (joined (before ++ after)) (joined (before ++ line :: after)) := by
  by_cases hcode : codeOf line = []
  · exact readsAlike_of_void hlines hcode hpassed.directive
  have hothers : ∀ l ∈ before ++ after, '\n' ∉ l := fun l hl => hlines l (by grind)
  -- The lines of code in front of the line, and behind it.
  let front := (before.map codeOf).filter fun code => !code.isEmpty
  let rest := (after.map codeOf).filter fun code => !code.isEmpty
  have hfront : front ≠ [] := by
    obtain ⟨earlier, hmem, hearlier⟩ := hfirst
    refine List.ne_nil_of_mem (List.mem_filter.mpr ⟨List.mem_map_of_mem hmem, ?_⟩)
    simpa using hearlier.codeOf_ne_nil
  have hwith : codeLines (joined (before ++ line :: after)) = front ++ codeOf line :: rest := by
    rw [codeLines_joined hlines, List.map_append, List.map_cons, List.filter_append,
      List.filter_cons_of_pos (by simpa using hcode)]
  have hwithout : codeLines (joined (before ++ after)) = front ++ rest := by
    rw [codeLines_joined hothers, List.map_append, List.filter_append]
  obtain ⟨hnumbered, hnames⟩ := placed_passedOver hpassed.label hpassed.statement hfront rest
  refine ⟨by rw [hwith, hwithout, hnumbered], by rw [hwith, hwithout, hnames], ?_⟩
  rw [directives_joined hlines, directives_joined hothers]
  simp [hpassed.directive]

theorem readsAlike_of_respelled {before after : List (List Char)} {line other : List Char}
    (hlines : ∀ l ∈ before ++ line :: other :: after, '\n' ∉ l) (hrespelled : Respelled line other) :
    ReadsAlike (joined (before ++ line :: after)) (joined (before ++ other :: after)) := by
  obtain ⟨hcode, hdirective⟩ := hrespelled.same
  have hline : ∀ l ∈ before ++ line :: after, '\n' ∉ l := fun l hl => hlines l (by grind)
  have hother : ∀ l ∈ before ++ other :: after, '\n' ∉ l := fun l hl => hlines l (by grind)
  refine .of_lines ?_ ?_
  · rw [codeLines_joined hline, codeLines_joined hother]
    simp [hcode]
  · rw [directives_joined hline, directives_joined hother]
    simp [List.filterMap_cons, hdirective]

theorem not_mem_of_mem_linesOf {text line : List Char} (hline : line ∈ linesOf text) : '\n' ∉ line := by
  intro hbreak
  have hplain := Text.not_isSeparator_of_mem_cut hline hbreak
  simp at hplain

/-- A carriage return before a line break is a blank at the end of the line. -/
theorem readsAlike_of_lineEnd (before after : List Char) :
    ReadsAlike (before ++ '\n' :: after) (before ++ '\r' :: '\n' :: after) := by
  obtain ⟨lines, last, hbefore, hreturn⟩ :=
    Text.exists_cut_append (· == '\n') ['\r'] (List.forall_mem_singleton.mpr rfl) before
  have hwithout : linesOf (before ++ '\n' :: after) = lines ++ last :: linesOf after := by
    rw [linesOf, Text.cut_append_separator (by decide), hbefore, List.append_assoc]
    rfl
  have hwith : linesOf (before ++ '\r' :: '\n' :: after) =
      lines ++ (last ++ ['\r']) :: linesOf after := by
    rw [linesOf, List.append_cons, Text.cut_append_separator (by decide), hreturn,
      List.append_assoc]
    rfl
  rw [← joined_linesOf (before ++ '\n' :: after), ← joined_linesOf (before ++ '\r' :: '\n' :: after),
    hwithout, hwith]
  refine readsAlike_of_respelled (fun l hl => ?_) (.trailing last ['\r'] (List.forall_mem_singleton.mpr rfl))
  have hline : l ∈ linesOf before ∨ l ∈ linesOf (before ++ ['\r']) ∨ l ∈ linesOf after := by
    rw [linesOf, linesOf, hbefore, hreturn]
    grind
  rcases hline with hmem | hmem | hmem <;> exact not_mem_of_mem_linesOf hmem

theorem Edit.readsAlike {text other : List Char} (hedit : Edit text other) : ReadsAlike text other := by
  cases hedit with
  | void before after line hlines hvoid => exact readsAlike_of_void hlines hvoid.same.1 hvoid.same.2
  | passedOver before after line hlines hpassed hfirst =>
      exact readsAlike_of_passedOver hlines hpassed hfirst
  | respelled before after hlines hrespelled => exact readsAlike_of_respelled hlines hrespelled
  | lineEnd before after => exact readsAlike_of_lineEnd before after

end Assembly

open Assembly

theorem Listing.ofSource?_of_readsAlike {source other : String}
    (halike : ReadsAlike source.toList other.toList) :
    Listing.ofSource? source = Listing.ofSource? other := by
  have hnames := halike.names
  rw [sectionNames, sectionNames] at hnames
  rw [ofSource?_eq, ofSource?_eq, listingOf, listingOf, sectionsOf, sectionsOf, halike.numbered,
    halike.directives, hnames]

theorem Assembly.equivalence_readsAlike : Equivalence ReadsAlike where
  refl _ := ⟨rfl, rfl, rfl⟩
  symm h := ⟨h.numbered.symm, h.names.symm, h.directives.symm⟩
  trans h h' := ⟨h.numbered.trans h'.numbered, h.names.trans h'.names, h.directives.trans h'.directives⟩

/-- However many edits are made or taken back, a source reads as the same listing, or still as none. -/
theorem ofSource?_eq_of_edits {source other : String}
    (hedits : Relation.EqvGen Edit source.toList other.toList) :
    Listing.ofSource? source = Listing.ofSource? other := by
  have halike := hedits.mono fun _ _ => Edit.readsAlike
  exact Listing.ofSource?_of_readsAlike (equivalence_readsAlike.eqvGen_iff.mp halike)

namespace Untidy

/-- A loop without noise. -/
def tidy : String :=
  "li x1, 1\nblt x1, x2, main"

/-- The same loop with blanks, a comment, another line end, and lines that hold nothing. -/
def source : String :=
  "  li x1,\t1 # one\r\nnop\nblt x1, x2, main\n"

theorem edits : Relation.EqvGen Edit tidy.toList source.toList := by
  have hleading : Edit tidy.toList "  li x1, 1\nblt x1, x2, main".toList :=
    .respelled [] ["blt x1, x2, main".toList] (by decide)
      (.leading "li x1, 1".toList [' ', ' '] (List.all_eq_true.mp rfl))
  have hbetween : Edit "  li x1, 1\nblt x1, x2, main".toList "  li x1,\t1\nblt x1, x2, main".toList :=
    .respelled [] ["blt x1, x2, main".toList] (by decide)
      (.between "  li x1,".toList [' '] ['\t'] ['1'] (by decide)
        ⟨List.cons_ne_nil _ _, List.forall_mem_singleton.mpr rfl⟩
        ⟨List.cons_ne_nil _ _, List.forall_mem_singleton.mpr rfl⟩)
  have hcommented : Edit "  li x1,\t1\nblt x1, x2, main".toList
      "  li x1,\t1# one\nblt x1, x2, main".toList :=
    .respelled [] ["blt x1, x2, main".toList] (by decide)
      (.commented "  li x1,\t1".toList " one".toList (by decide) rfl)
  have hbefore : Edit "  li x1,\t1# one\nblt x1, x2, main".toList
      "  li x1,\t1 # one\nblt x1, x2, main".toList :=
    .respelled [] ["blt x1, x2, main".toList] (by decide)
      (.beforeComment "  li x1,\t1".toList " one".toList [' '] (by decide)
        (List.forall_mem_singleton.mpr rfl))
  have hlineEnd : Edit "  li x1,\t1 # one\nblt x1, x2, main".toList
      "  li x1,\t1 # one\r\nblt x1, x2, main".toList :=
    .lineEnd "  li x1,\t1 # one".toList "blt x1, x2, main".toList
  have hpassedOver : Edit "  li x1,\t1 # one\r\nblt x1, x2, main".toList
      "  li x1,\t1 # one\r\nnop\nblt x1, x2, main".toList :=
    .passedOver ["  li x1,\t1 # one\r".toList] ["blt x1, x2, main".toList] "nop".toList (by decide)
      ⟨rfl, rfl, rfl⟩ ⟨_, List.mem_cons_self .., [' ', ' '], 'l', _, rfl, by decide, by decide⟩
  have hvoid : Edit "  li x1,\t1 # one\r\nnop\nblt x1, x2, main".toList source.toList :=
    .void ["  li x1,\t1 # one\r".toList, "nop".toList, "blt x1, x2, main".toList] [] []
      (by decide) (.blank (List.forall_mem_nil _))
  exact ((((((Relation.EqvGen.rel _ _ hleading).trans _ _ _ (.rel _ _ hbetween)).trans _ _ _
    (.rel _ _ hcommented)).trans _ _ _ (.rel _ _ hbefore)).trans _ _ _ (.rel _ _ hlineEnd)).trans _ _ _
      (.rel _ _ hpassedOver)).trans _ _ _ (.rel _ _ hvoid)

end Untidy

theorem ofSource?_eq_of_edits_untidy :
    Relation.EqvGen Edit Untidy.tidy.toList Untidy.source.toList ∧
      Listing.ofSource? Untidy.tidy = Listing.ofSource? Untidy.source ∧
      (Listing.ofSource? Untidy.source).map Listing.sections = some [⟨"main", [0, 1]⟩] :=
  ⟨Untidy.edits, ofSource?_eq_of_edits Untidy.edits, rfl⟩

end Tomasulo
