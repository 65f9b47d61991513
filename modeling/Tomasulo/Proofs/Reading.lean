import Tomasulo.Proofs.Spelling

/-!
# What the reader of JSON reads

The reader of JSON follows the grammar of `Proofs.Spelling`.  What it splits off a text is spelled there
(`Json.Sound`), and it reads every spelling with whatever stands behind it (`Json.Complete`), provided that its
fuel is twice the length of the text: the fuel is spent by the nesting and by the items and members before,
which all take characters.  Both are shown for values, items and members together, by induction on the fuel.

Main statement: a document is read if and only if it spells a value, and then as that value
(`Json.read?_eq_some_iff`).
-/

namespace Tomasulo.Json

/-! ## Values -/

section Values

variable {fuel : Nat} {text before rest literal : List Char} {value : Json} {items : List Json}
  {members : List (String × Json)}

theorem isGap_eq_false_of_isDigit {c : Char} (hdigit : c.isDigit = true) : isGap c = false := by
  by_contra hgap
  simp only [isGap, Bool.not_eq_false, Bool.or_eq_true, beq_iff_eq] at hgap
  obtain ((rfl | rfl) | rfl) | rfl := hgap <;> exact absurd hdigit (by decide)

theorem endsNumber_of_isGap {c : Char} (hgap : isGap c = true) : EndsNumber c := by
  simp only [isGap, Bool.or_eq_true, beq_iff_eq] at hgap
  obtain ((rfl | rfl) | rfl) | rfl := hgap <;> decide

theorem Gap.begins (hbefore : Gap before) (htext : Begins EndsNumber text) :
    Begins EndsNumber (before ++ text) := by
  cases before with
  | nil => exact htext
  | cons c before =>
      rintro _ ⟨⟩
      exact endsNumber_of_isGap (hbefore c (List.mem_cons_self ..))

/-- The first character of a number is a minus or a digit. -/
theorem NumberLiteral.exists_cons (hliteral : NumberLiteral literal) :
    ∃ c others, literal = c :: others ∧ (c = '-' ∨ c.isDigit = true) := by
  obtain ⟨rfl | rfl, hwhole, -, -⟩ := hliteral
  · cases hwhole with
    | zero => exact ⟨'0', _, rfl, .inr rfl⟩
    | positive hdigits => exact ⟨_, _, rfl, .inr (hdigits.2 _ (List.mem_cons_self ..))⟩
  · exact ⟨'-', _, rfl, .inl rfl⟩

/-- The first character of a value is no blank and does not end an array. -/
theorem Spelled.exists_cons (hspelled : Spelled value text) :
    ∃ c others, text = c :: others ∧ isGap c = false ∧ c ≠ ']' := by
  cases hspelled with
  | number hliteral =>
      obtain ⟨c, others, rfl, rfl | hdigit⟩ := hliteral.exists_cons
      · exact ⟨'-', others, rfl, rfl, by decide⟩
      · refine ⟨c, others, rfl, isGap_eq_false_of_isDigit hdigit, ?_⟩
        rintro rfl
        exact absurd hdigit (by decide)
  | _ => exact ⟨_, _, rfl, rfl, by decide⟩

theorem readValue_append (hbefore : Gap before) : readValue fuel (before ++ text) = readValue fuel text := by
  cases fuel with
  | zero => rfl
  | succ fuel =>
      rw [readValue.eq_def, readValue.eq_def]
      dsimp only
      rw [skipGap_append hbefore]

theorem readItems_append (hbefore : Gap before) : readItems fuel (before ++ text) = readItems fuel text := by
  cases fuel with
  | zero => rfl
  | succ fuel => rw [readItems, readItems, readValue_append hbefore]

theorem readMembers_append (hbefore : Gap before) :
    readMembers fuel (before ++ text) = readMembers fuel text := by
  cases fuel with
  | zero => rfl
  | succ fuel =>
      rw [readMembers.eq_def, readMembers.eq_def]
      dsimp only
      rw [skipGap_append hbefore]

theorem readItems_skipGap (fuel : Nat) (text : List Char) :
    readItems fuel (skipGap text) = readItems fuel text := by
  rw [← readItems_append (gap_takeWhile text), takeWhile_append_skipGap]

theorem readMembers_skipGap (fuel : Nat) (text : List Char) :
    readMembers fuel (skipGap text) = readMembers fuel text := by
  rw [← readMembers_append (gap_takeWhile text), takeWhile_append_skipGap]

/-- A number is what a value is that begins with a minus or a digit. -/
theorem readValue_number (hread : readNumber text = some (literal, rest))
    (htext : ∃ c others, text = c :: others ∧ (c = '-' ∨ c.isDigit = true)) :
    readValue (fuel + 1) text = some (.number (String.ofList literal), rest) := by
  obtain ⟨c, others, rfl, hc⟩ := htext
  have hgap : isGap c = false := hc.elim (fun hminus => hminus ▸ rfl) isGap_eq_false_of_isDigit
  -- No other value begins with such a character.
  have hother (other : Char) (hother : other ≠ '-' ∧ other.isDigit = false) : c ≠ other := by
    rintro rfl
    simp [hother] at hc
  rw [readValue.eq_def]
  dsimp only
  rw [skipGap_cons hgap]
  split
  case h_7 =>
    rw [hread]
    rfl
  all_goals
    rename_i hsame
    exact absurd (List.cons.inj hsame).1 (hother _ (by decide))

theorem readValue_string (hread : readString text = some (literal, rest)) :
    readValue (fuel + 1) ('"' :: text) = some (.string (String.ofList literal), rest) := by
  change (readString text >>= fun found => some (Json.string (String.ofList found.1), found.2)) = _
  rw [hread]
  rfl

theorem readValue_emptyArray (htail : skipGap text = ']' :: rest) :
    readValue (fuel + 1) ('[' :: text) = some (.array [], rest) := by
  simp only [readValue, skipGap_cons (rfl : isGap '[' = false), htail]

theorem readValue_array (htail : Begins (· ≠ ']') (skipGap text))
    (hitems : readItems fuel text = some (items, rest)) :
    readValue (fuel + 1) ('[' :: text) = some (.array items, rest) := by
  simp only [readValue, skipGap_cons (rfl : isGap '[' = false)]
  split
  case h_1 hclosed => exact absurd rfl (htail ']' (by rw [hclosed]; rfl))
  case h_2 =>
    rw [readItems_skipGap, hitems]
    rfl

theorem readValue_emptyObject (htail : skipGap text = '}' :: rest) :
    readValue (fuel + 1) ('{' :: text) = some (.object [], rest) := by
  simp only [readValue, skipGap_cons (rfl : isGap '{' = false), htail]

theorem readValue_object (htail : Begins (· ≠ '}') (skipGap text))
    (hmembers : readMembers fuel text = some (members, rest)) :
    readValue (fuel + 1) ('{' :: text) = some (.object members, rest) := by
  simp only [readValue, skipGap_cons (rfl : isGap '{' = false)]
  split
  case h_1 hclosed => exact absurd rfl (htail '}' (by rw [hclosed]; rfl))
  case h_2 =>
    rw [readMembers_skipGap, hmembers]
    rfl

/-- Behind an item the list is closed, or others follow behind a comma. -/
def Continues {α : Type} (closing : Char) (read : List Char → Option (List α × List Char)) (item : α)
    (after : List Char) (items : List α) (rest : List Char) : Prop :=
  items = [item] ∧ skipGap after = closing :: rest ∨
    ∃ tail others, skipGap after = ',' :: tail ∧ read tail = some (others, rest) ∧ items = item :: others

theorem bind_cons_eq_some_iff {α : Type} {item : α} {items : List α} {read : Option (List α × List Char)} :
    (read.bind fun found => some (item :: found.1, found.2)) = some (items, rest) ↔
      ∃ others, read = some (others, rest) ∧ items = item :: others := by
  simp only [Option.bind_eq_some_iff, Option.some_inj, Prod.exists, Prod.mk.injEq]
  constructor
  · rintro ⟨others, after, hread, rfl, rfl⟩
    exact ⟨others, hread, rfl⟩
  · rintro ⟨others, hread, rfl⟩
    exact ⟨others, rest, hread, rfl, rfl⟩

theorem readItems_succ_eq_some_iff : readItems (fuel + 1) text = some (items, rest) ↔
    ∃ item after, readValue fuel text = some (item, after) ∧
      Continues ']' (readItems fuel) item after items rest := by
  rw [readItems]
  simp only [Option.bind_eq_bind, Option.bind_eq_some_iff, Prod.exists, Continues]
  refine exists_congr fun item => exists_congr fun after => and_congr_right fun _ => ?_
  split
  case h_1 hafter => simp [hafter, eq_comm]
  case h_2 hafter => simp [hafter, bind_cons_eq_some_iff]
  case h_3 hclosing hcomma =>
    refine iff_of_false (by simp) ?_
    rintro (⟨-, hafter⟩ | ⟨tail, -, hafter, -⟩)
    · exact hclosing _ hafter
    · exact hcomma _ hafter

/-- A member is split off: its name, a colon and its value. -/
def ReadsMember (fuel : Nat) (text : List Char) (name : String) (value : Json) (after : List Char) : Prop :=
  ∃ label literal colon tail, skipGap text = '"' :: label ∧ readString label = some (literal, colon) ∧
    skipGap colon = ':' :: tail ∧ readValue fuel tail = some (value, after) ∧ String.ofList literal = name

theorem exists_readsMember_iff {label : List Char} (htext : skipGap text = '"' :: label)
    {condition : String → Json → List Char → Prop} :
    (∃ name value after, ReadsMember fuel text name value after ∧ condition name value after) ↔
      ∃ literal colon, readString label = some (literal, colon) ∧
        ∃ tail, skipGap colon = ':' :: tail ∧
          ∃ value after, readValue fuel tail = some (value, after) ∧
            condition (String.ofList literal) value after := by
  constructor
  · rintro ⟨_, value, after, hmember, hcondition⟩
    obtain ⟨_, literal, colon, tail, hlabel, hliteral, htail, hvalue, rfl⟩ := hmember
    obtain rfl := (List.cons.inj (htext.symm.trans hlabel)).2
    exact ⟨literal, colon, hliteral, tail, htail, value, after, hvalue, hcondition⟩
  · rintro ⟨literal, colon, hliteral, tail, htail, value, after, hvalue, hcondition⟩
    exact ⟨_, value, after, ⟨_, literal, colon, tail, htext, hliteral, htail, hvalue, rfl⟩, hcondition⟩

theorem readMembers_succ_eq_some_iff : readMembers (fuel + 1) text = some (members, rest) ↔
    ∃ name value after, ReadsMember fuel text name value after ∧
      Continues '}' (readMembers fuel) (name, value) after members rest := by
  rw [readMembers.eq_def]
  dsimp only
  split
  case h_2 hquote =>
    refine iff_of_false (by simp) ?_
    rintro ⟨-, -, -, ⟨label, -, -, -, htext, -⟩, -⟩
    exact hquote _ htext
  case h_1 label htext =>
    rw [exists_readsMember_iff htext]
    simp only [Option.bind_eq_bind, Option.bind_eq_some_iff, Prod.exists]
    refine exists_congr fun literal => exists_congr fun colon => and_congr_right fun _ => ?_
    split
    case h_2 hcolon =>
      refine iff_of_false (by simp) ?_
      rintro ⟨tail, htail, -⟩
      exact hcolon _ htail
    case h_1 tail htail =>
      simp only [htail, List.cons.injEq, true_and, exists_eq_left', Option.bind_eq_some_iff, Prod.exists,
        Continues]
      refine exists_congr fun value => exists_congr fun after => and_congr_right fun _ => ?_
      split
      case h_1 hafter => simp [hafter, eq_comm]
      case h_2 hafter => simp [hafter, bind_cons_eq_some_iff]
      case h_3 hclosing hcomma =>
        refine iff_of_false (by simp) ?_
        rintro (⟨-, hafter⟩ | ⟨tail, -, hafter, -⟩)
        · exact hclosing _ hafter
        · exact hcomma _ hafter

end Values

/-! ## What is read is spelled -/

/-- What readings with some fuel return is spelled by what they split off. -/
structure Sound (fuel : Nat) : Prop where
  value : ∀ text value rest, readValue fuel text = some (value, rest) →
    ∃ before inner, Gap before ∧ Spelled value inner ∧ text = before ++ inner ++ rest
  items : ∀ text items rest, readItems fuel text = some (items, rest) →
    ∃ inner, SpelledItems items inner ∧ text = inner ++ ']' :: rest
  members : ∀ text members rest, readMembers fuel text = some (members, rest) →
    ∃ inner, SpelledMembers members inner ∧ text = inner ++ '}' :: rest

section Soundness

variable {fuel : Nat} {text rest : List Char} {value : Json}

theorem exists_gap (text : List Char) : ∃ before, Gap before ∧ text = before ++ skipGap text :=
  ⟨_, gap_takeWhile text, (takeWhile_append_skipGap text).symm⟩

/-- What is read at a character that is no blank begins there.  The cases are the words, strings, arrays, objects
and numbers, told by that character. -/
theorem Sound.token (hsound : Sound fuel) (htext : skipGap text = text)
    (hread : readValue (fuel + 1) text = some (value, rest)) :
    ∃ inner, Spelled value inner ∧ text = inner ++ rest := by
  rw [readValue.eq_def] at hread
  dsimp only at hread
  rw [htext] at hread
  split at hread
  case h_1 =>
    cases hread
    exact ⟨_, .null, rfl⟩
  case h_2 =>
    cases hread
    exact ⟨_, .yes, rfl⟩
  case h_3 =>
    cases hread
    exact ⟨_, .no, rfl⟩
  case h_4 =>
    simp only [Option.bind_eq_bind, Option.bind_eq_some_iff, Option.pure_def, Option.some_inj, Prod.exists,
      Prod.mk.injEq] at hread
    obtain ⟨literal, after, hstring, rfl, rfl⟩ := hread
    obtain ⟨hliteral, rfl⟩ := stringLiteral_of_readString hstring
    exact ⟨_, .string hliteral, by simp⟩
  case h_5 _ tail =>
    obtain ⟨gap, hgap, htail⟩ := exists_gap tail
    split at hread
    case h_1 hclosed =>
      cases hread
      rw [hclosed] at htail
      exact ⟨_, .emptyArray hgap, by simp [htail]⟩
    case h_2 =>
      simp only [Option.bind_eq_bind, Option.bind_eq_some_iff, Option.pure_def, Option.some_inj, Prod.exists,
        Prod.mk.injEq, readItems_skipGap] at hread
      obtain ⟨items, after, hitems, rfl, rfl⟩ := hread
      obtain ⟨inner, hinner, rfl⟩ := hsound.items _ _ _ hitems
      exact ⟨_, .array hinner, by simp⟩
  case h_6 _ tail =>
    obtain ⟨gap, hgap, htail⟩ := exists_gap tail
    split at hread
    case h_1 hclosed =>
      cases hread
      rw [hclosed] at htail
      exact ⟨_, .emptyObject hgap, by simp [htail]⟩
    case h_2 =>
      simp only [Option.bind_eq_bind, Option.bind_eq_some_iff, Option.pure_def, Option.some_inj, Prod.exists,
        Prod.mk.injEq, readMembers_skipGap] at hread
      obtain ⟨members, after, hmembers, rfl, rfl⟩ := hread
      obtain ⟨inner, hinner, rfl⟩ := hsound.members _ _ _ hmembers
      exact ⟨_, .object hinner, by simp⟩
  case h_7 =>
    simp only [Option.bind_eq_bind, Option.bind_eq_some_iff, Option.pure_def, Option.some_inj, Prod.exists,
      Prod.mk.injEq] at hread
    obtain ⟨literal, after, hnumber, rfl, rfl⟩ := hread
    obtain ⟨hliteral, rfl⟩ := numberLiteral_of_readNumber hnumber
    exact ⟨_, .number hliteral, rfl⟩

theorem Sound.member (hsound : Sound fuel) {name : String} {after : List Char}
    (hread : ReadsMember fuel text name value after) :
    ∃ label before inner, Labelled name label ∧ Gap before ∧ Spelled value inner ∧
      text = label ++ before ++ inner ++ after := by
  obtain ⟨_, literal, colon, tail, htext, hname, hcolon, hvalue, rfl⟩ := hread
  obtain ⟨beforeName, hbeforeName, hstart⟩ := exists_gap text
  obtain ⟨hliteral, rfl⟩ := stringLiteral_of_readString hname
  obtain ⟨afterName, hafterName, hend⟩ := exists_gap colon
  obtain ⟨before, inner, hbefore, hinner, rfl⟩ := hsound.value _ _ _ hvalue
  rw [htext, hend, hcolon] at hstart
  exact ⟨_, before, inner, ⟨hbeforeName, hliteral, hafterName⟩, hbefore, hinner, by simp [hstart]⟩

theorem Sound.zero : Sound 0 where
  value _ _ _ hread := nomatch hread
  items _ _ _ hread := nomatch hread
  members _ _ _ hread := nomatch hread

theorem Sound.succ (hsound : Sound fuel) : Sound (fuel + 1) where
  value text value rest hread := by
    obtain ⟨before, hbefore, htext⟩ := exists_gap text
    rw [htext, readValue_append hbefore] at hread
    obtain ⟨inner, hinner, hskipped⟩ := hsound.token (skipGap_skipGap text) hread
    exact ⟨before, inner, hbefore, hinner, by rw [List.append_assoc, ← hskipped, ← htext]⟩
  items text items rest hread := by
    obtain ⟨item, after, hitem, hcontinues⟩ := readItems_succ_eq_some_iff.mp hread
    obtain ⟨before, inner, hbefore, hinner, rfl⟩ := hsound.value _ _ _ hitem
    obtain ⟨gap, hgap, hafter⟩ := exists_gap after
    obtain ⟨rfl, hclosed⟩ | ⟨tail, others, hcomma, hothers, rfl⟩ := hcontinues
    · rw [hclosed] at hafter
      exact ⟨_, .last hbefore hinner hgap, by simp [hafter]⟩
    · obtain ⟨innerTail, hinnerTail, rfl⟩ := hsound.items _ _ _ hothers
      rw [hcomma] at hafter
      exact ⟨_, .more hbefore hinner hgap hinnerTail, by simp [hafter]⟩
  members text members rest hread := by
    obtain ⟨name, value, after, hmember, hcontinues⟩ := readMembers_succ_eq_some_iff.mp hread
    obtain ⟨label, before, inner, hname, hbefore, hinner, rfl⟩ := hsound.member hmember
    obtain ⟨gap, hgap, hafter⟩ := exists_gap after
    obtain ⟨rfl, hclosed⟩ | ⟨tail, others, hcomma, hothers, rfl⟩ := hcontinues
    · rw [hclosed] at hafter
      exact ⟨_, .last hname hbefore hinner hgap, by simp [hafter]⟩
    · obtain ⟨innerTail, hinnerTail, rfl⟩ := hsound.members _ _ _ hothers
      rw [hcomma] at hafter
      exact ⟨_, .more hname hbefore hinner hgap hinnerTail, by simp [hafter]⟩

theorem sound (fuel : Nat) : Sound fuel := by
  induction fuel with
  | zero => exact .zero
  | succ fuel ih => exact ih.succ

end Soundness

/-! ## What is spelled is read -/

/-- A text is read if the fuel is twice its length; for items and members, one more. -/
structure Complete (fuel : Nat) : Prop where
  value : ∀ value text rest, Spelled value text → 2 * text.length ≤ fuel → Begins EndsNumber rest →
    readValue fuel (text ++ rest) = some (value, rest)
  items : ∀ items text rest, SpelledItems items text → 2 * text.length + 1 ≤ fuel →
    readItems fuel (text ++ ']' :: rest) = some (items, rest)
  members : ∀ members text rest, SpelledMembers members text → 2 * text.length + 1 ≤ fuel →
    readMembers fuel (text ++ '}' :: rest) = some (members, rest)

section Completeness

variable {fuel : Nat}

theorem Complete.zero : Complete 0 where
  value value text rest hspelled hfuel := by
    obtain ⟨c, others, rfl, -⟩ := hspelled.exists_cons
    cases hfuel
  items items text rest hspelled hfuel := nomatch hfuel
  members members text rest hspelled hfuel := nomatch hfuel

theorem Gap.begins_cons {gap rest : List Char} {c : Char} (hgap : Gap gap) (hc : EndsNumber c) :
    Begins EndsNumber (gap ++ c :: rest) :=
  hgap.begins <| by
    rintro _ ⟨⟩
    exact hc

theorem skipGap_gap_append {gap rest : List Char} {c : Char} (hgap : Gap gap) (hc : isGap c = false) :
    skipGap (gap ++ c :: rest) = c :: rest := by
  rw [skipGap_append hgap, skipGap_cons hc]

/-- Items do not begin with what ends an array. -/
theorem SpelledItems.begins {items : List Json} {inner : List Char} (hinner : SpelledItems items inner)
    (rest : List Char) : Begins (· ≠ ']') (skipGap (inner ++ rest)) := by
  obtain ⟨before, c, others, rfl, hbefore, hgap, hc⟩ : ∃ before c others,
      inner = before ++ c :: others ∧ Gap before ∧ isGap c = false ∧ c ≠ ']' := by
    cases hinner with
    | last hbefore hitem =>
        obtain ⟨c, others, rfl, hc⟩ := hitem.exists_cons
        exact ⟨_, c, _, by simp only [List.append_assoc, List.cons_append]; rfl, hbefore, hc⟩
    | more hbefore hitem =>
        obtain ⟨c, others, rfl, hc⟩ := hitem.exists_cons
        exact ⟨_, c, _, by simp only [List.append_assoc, List.cons_append]; rfl, hbefore, hc⟩
  rw [List.append_assoc, List.cons_append, skipGap_gap_append hbefore hgap]
  rintro _ ⟨⟩
  exact hc

/-- Members do not begin with what ends an object. -/
theorem SpelledMembers.begins {members : List (String × Json)} {inner : List Char}
    (hinner : SpelledMembers members inner) (rest : List Char) :
    Begins (· ≠ '}') (skipGap (inner ++ rest)) := by
  obtain ⟨before, others, rfl, hbefore⟩ : ∃ before others,
      inner = before ++ '"' :: others ∧ Gap before := by
    cases hinner with
    | last hname =>
        obtain ⟨hbefore, -, -⟩ := hname
        exact ⟨_, _, by simp only [List.append_assoc, List.cons_append]; rfl, hbefore⟩
    | more hname =>
        obtain ⟨hbefore, -, -⟩ := hname
        exact ⟨_, _, by simp only [List.append_assoc, List.cons_append]; rfl, hbefore⟩
  rw [List.append_assoc, List.cons_append, skipGap_gap_append hbefore rfl]
  rintro _ ⟨⟩
  decide

theorem Complete.value_succ (hcomplete : Complete fuel) {value : Json} {text rest : List Char}
    (hspelled : Spelled value text) (hfuel : 2 * text.length ≤ fuel + 1) (hrest : Begins EndsNumber rest) :
    readValue (fuel + 1) (text ++ rest) = some (value, rest) := by
  cases hspelled with
  | null => rfl
  | yes => rfl
  | no => rfl
  | number hliteral =>
      obtain ⟨c, others, hfirst, hc⟩ := hliteral.exists_cons
      exact readValue_number (hliteral.readNumber_eq hrest) ⟨c, others ++ rest, by rw [hfirst]; rfl, hc⟩
  | string hliteral =>
      rw [List.append_assoc]
      exact readValue_string (hliteral.readString_eq rest)
  | emptyArray hgap =>
      rw [List.append_assoc]
      exact readValue_emptyArray (skipGap_gap_append hgap rfl)
  | @array items inner hinner =>
      have hlength : 2 * inner.length + 1 ≤ fuel := by
        simp only [List.length_append, List.length_cons, List.length_nil] at hfuel
        omega
      rw [List.append_assoc]
      exact readValue_array (hinner.begins _) (hcomplete.items items inner rest hinner hlength)
  | emptyObject hgap =>
      rw [List.append_assoc]
      exact readValue_emptyObject (skipGap_gap_append hgap rfl)
  | @object members inner hinner =>
      have hlength : 2 * inner.length + 1 ≤ fuel := by
        simp only [List.length_append, List.length_cons, List.length_nil] at hfuel
        omega
      rw [List.append_assoc]
      exact readValue_object (hinner.begins _) (hcomplete.members members inner rest hinner hlength)

theorem Complete.item (hcomplete : Complete fuel) {item : Json} {before inner rest : List Char}
    (hbefore : Gap before) (hitem : Spelled item inner) (hfuel : 2 * inner.length ≤ fuel)
    (hrest : Begins EndsNumber rest) :
    readValue fuel (before ++ (inner ++ rest)) = some (item, rest) := by
  rw [readValue_append hbefore]
  exact hcomplete.value _ _ _ hitem hfuel hrest

theorem Complete.member (hcomplete : Complete fuel) {name : String} {value : Json}
    {label before inner rest : List Char} (hname : Labelled name label) (hbefore : Gap before)
    (hvalue : Spelled value inner) (hfuel : 2 * inner.length ≤ fuel) (hrest : Begins EndsNumber rest) :
    ReadsMember fuel (label ++ (before ++ (inner ++ rest))) name value rest := by
  obtain @⟨beforeName, literal, afterName, hbeforeName, hliteral, hafterName⟩ := hname
  refine ⟨literal ++ '"' :: (afterName ++ ':' :: (before ++ (inner ++ rest))), literal, _, _, ?_,
    hliteral.readString_eq _, skipGap_gap_append hafterName rfl,
    hcomplete.item hbefore hvalue hfuel hrest, rfl⟩
  simp only [List.append_assoc, List.cons_append, List.nil_append]
  exact skipGap_gap_append hbeforeName rfl

theorem Complete.succ (hcomplete : Complete fuel) : Complete (fuel + 1) where
  value value text rest := hcomplete.value_succ
  items items text rest hspelled hfuel := by
    rw [readItems_succ_eq_some_iff]
    cases hspelled with
    | @last item before inner after hbefore hitem hafter =>
        simp only [List.length_append] at hfuel
        simp only [List.append_assoc]
        exact ⟨item, _, hcomplete.item hbefore hitem (by omega) (hafter.begins_cons (by decide)),
          .inl ⟨rfl, skipGap_gap_append hafter rfl⟩⟩
    | @more item items before inner after tail hbefore hitem hafter hitems =>
        simp only [List.length_append, List.length_cons] at hfuel
        simp only [List.append_assoc, List.cons_append]
        exact ⟨item, _, hcomplete.item hbefore hitem (by omega) (hafter.begins_cons (by decide)),
          .inr ⟨_, items, skipGap_gap_append hafter rfl, hcomplete.items _ _ _ hitems (by omega), rfl⟩⟩
  members members text rest hspelled hfuel := by
    rw [readMembers_succ_eq_some_iff]
    cases hspelled with
    | @last name value label before inner after hname hbefore hvalue hafter =>
        simp only [List.length_append] at hfuel
        simp only [List.append_assoc]
        exact ⟨name, value, _, hcomplete.member hname hbefore hvalue (by omega)
          (hafter.begins_cons (by decide)), .inl ⟨rfl, skipGap_gap_append hafter rfl⟩⟩
    | @more name value members label before inner after tail hname hbefore hvalue hafter hmembers =>
        simp only [List.length_append, List.length_cons] at hfuel
        simp only [List.append_assoc, List.cons_append]
        exact ⟨name, value, _, hcomplete.member hname hbefore hvalue (by omega)
          (hafter.begins_cons (by decide)), .inr ⟨_, members, skipGap_gap_append hafter rfl,
            hcomplete.members _ _ _ hmembers (by omega), rfl⟩⟩

theorem complete (fuel : Nat) : Complete fuel := by
  induction fuel with
  | zero => exact .zero
  | succ fuel ih => exact ih.succ

end Completeness

/-! ## Documents -/

/-- A document is read if and only if it spells a value, and then as that value. -/
theorem read?_eq_some_iff {document : String} {value : Json} :
    read? document = some value ↔ value.SpelledIn document := by
  simp only [read?, Option.bind_eq_bind, Option.bind_eq_some_iff, Option.guard_eq_some', Option.pure_def,
    Option.some_inj, Prod.exists, List.isEmpty_iff, SpelledIn]
  constructor
  · rintro ⟨value, rest, hread, -, hend, rfl⟩
    obtain ⟨before, text, hbefore, htext, hdocument⟩ := (sound _).value _ _ _ hread
    obtain ⟨after, hafter, hrest⟩ := exists_gap rest
    rw [hend, List.append_nil] at hrest
    exact ⟨before, text, after, hbefore, htext, hafter, hrest ▸ hdocument⟩
  · rintro ⟨before, text, after, hbefore, htext, hafter, hdocument⟩
    refine ⟨value, after, ?_, (), skipGap_of_gap hafter, rfl⟩
    rw [hdocument, List.append_assoc, readValue_append hbefore]
    refine (complete _).value _ _ _ htext ?_ ?_
    · simp only [List.length_append]
      omega
    · have hend : Begins EndsNumber [] := by rintro _ ⟨⟩
      simpa using hafter.begins hend

end Tomasulo.Json
