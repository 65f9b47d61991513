import Mathlib.Data.List.DropRight
import Mathlib.Tactic
import Tomasulo.Json.Reader

/-!
# How JSON is spelled

The grammar of JSON texts, said without a reader: a text spells a value (`Json.Spelled`) by the tokens of its
literals, with blanks between the tokens of arrays and objects.  A literal stands for itself, as the values keep
their numbers and strings as they are spelled.

The parts of the reader split one token off a text, and each is said here by two lemmas: what it splits off is
a token of the grammar, and it splits off every token of the grammar.  Strings end with a character of their
own; a number ends before the first character that does not go on with it (`Json.EndsNumber`).
-/

namespace Tomasulo.Json

/-! ## Grammar -/

/-- What may stand between tokens. -/
def Gap (text : List Char) : Prop :=
  ∀ c ∈ text, isGap c = true

/-- What may stand between the quotes of a string. -/
inductive StringLiteral : List Char → Prop where
  | empty : StringLiteral []
  | plain {c : Char} {rest : List Char} (hprintable : 0x20 ≤ c.toNat) (hquote : c ≠ '"')
      (hslash : c ≠ '\\') (hrest : StringLiteral rest) : StringLiteral (c :: rest)
  | short {c : Char} {rest : List Char} (hescape : (shortEscape? c).isSome) (hrest : StringLiteral rest) :
      StringLiteral ('\\' :: c :: rest)
  | unit {a b c d : Char} {rest : List Char} (hunit : (unit? a b c d).isSome) (hrest : StringLiteral rest) :
      StringLiteral ('\\' :: 'u' :: a :: b :: c :: d :: rest)

/-- A run of digits. -/
def Digits (text : List Char) : Prop :=
  text ≠ [] ∧ ∀ c ∈ text, c.isDigit = true

/-- The whole part of a number. -/
inductive Whole : List Char → Prop where
  | zero : Whole ['0']
  | positive {first : Char} {rest : List Char} (hdigits : Digits (first :: rest)) (hfirst : first ≠ '0') :
      Whole (first :: rest)

/-- The fraction of a number, which may be absent. -/
inductive Fraction : List Char → Prop where
  | absent : Fraction []
  | present {digits : List Char} (hdigits : Digits digits) : Fraction ('.' :: digits)

/-- The power of ten in a number, which may be absent. -/
inductive Power : List Char → Prop where
  | absent : Power []
  | present {mark : Char} {sign digits : List Char} (hmark : mark = 'e' ∨ mark = 'E')
      (hsign : sign = [] ∨ sign = ['+'] ∨ sign = ['-']) (hdigits : Digits digits) :
      Power (mark :: (sign ++ digits))

/-- A number. -/
inductive NumberLiteral : List Char → Prop where
  | mk {sign whole fraction power : List Char} (hsign : sign = [] ∨ sign = ['-']) (hwhole : Whole whole)
      (hfraction : Fraction fraction) (hpower : Power power) :
      NumberLiteral (sign ++ whole ++ fraction ++ power)

/-- The name of a member with its colon. -/
inductive Labelled : String → List Char → Prop where
  | mk {before name after : List Char} (hbefore : Gap before) (hname : StringLiteral name)
      (hafter : Gap after) :
      Labelled (String.ofList name) (before ++ '"' :: name ++ '"' :: after ++ [':'])

mutual

/-- A text, with nothing around it, spells a value. -/
inductive Spelled : Json → List Char → Prop where
  | null : Spelled .null ['n', 'u', 'l', 'l']
  | yes : Spelled (.bool true) ['t', 'r', 'u', 'e']
  | no : Spelled (.bool false) ['f', 'a', 'l', 's', 'e']
  | number {literal : List Char} (hliteral : NumberLiteral literal) :
      Spelled (.number (String.ofList literal)) literal
  | string {literal : List Char} (hliteral : StringLiteral literal) :
      Spelled (.string (String.ofList literal)) ('"' :: literal ++ ['"'])
  | emptyArray {gap : List Char} (hgap : Gap gap) : Spelled (.array []) ('[' :: gap ++ [']'])
  | array {items : List Json} {inner : List Char} (hinner : SpelledItems items inner) :
      Spelled (.array items) ('[' :: inner ++ [']'])
  | emptyObject {gap : List Char} (hgap : Gap gap) : Spelled (.object []) ('{' :: gap ++ ['}'])
  | object {members : List (String × Json)} {inner : List Char} (hinner : SpelledMembers members inner) :
      Spelled (.object members) ('{' :: inner ++ ['}'])

/-- A text spells the items of an array that has some. -/
inductive SpelledItems : List Json → List Char → Prop where
  | last {item : Json} {before text after : List Char} (hbefore : Gap before) (hitem : Spelled item text)
      (hafter : Gap after) : SpelledItems [item] (before ++ text ++ after)
  | more {item : Json} {items : List Json} {before text after rest : List Char} (hbefore : Gap before)
      (hitem : Spelled item text) (hafter : Gap after) (hitems : SpelledItems items rest) :
      SpelledItems (item :: items) (before ++ text ++ after ++ ',' :: rest)

/-- A text spells the members of an object that has some. -/
inductive SpelledMembers : List (String × Json) → List Char → Prop where
  | last {name : String} {value : Json} {label before text after : List Char} (hname : Labelled name label)
      (hbefore : Gap before) (hvalue : Spelled value text) (hafter : Gap after) :
      SpelledMembers [(name, value)] (label ++ before ++ text ++ after)
  | more {name : String} {value : Json} {members : List (String × Json)}
      {label before text after rest : List Char} (hname : Labelled name label) (hbefore : Gap before)
      (hvalue : Spelled value text) (hafter : Gap after) (hmembers : SpelledMembers members rest) :
      SpelledMembers ((name, value) :: members) (label ++ before ++ text ++ after ++ ',' :: rest)

end

/-- A document spells a value, with blanks around it. -/
def SpelledIn (value : Json) (document : String) : Prop :=
  ∃ before text after, Gap before ∧ Spelled value text ∧ Gap after ∧
    document.toList = before ++ text ++ after

/-! ## Blanks -/

section Gaps

variable {text before : List Char} {c : Char}

theorem gap_takeWhile (text : List Char) : Gap (text.takeWhile isGap) := fun _ => List.mem_takeWhile_imp

theorem takeWhile_append_skipGap (text : List Char) : text.takeWhile isGap ++ skipGap text = text :=
  List.takeWhile_append_dropWhile

theorem skipGap_append (hbefore : Gap before) : skipGap (before ++ text) = skipGap text :=
  List.dropWhile_append_of_pos hbefore

theorem skipGap_of_gap (htext : Gap text) : skipGap text = [] :=
  List.dropWhile_eq_nil_iff.mpr htext

theorem skipGap_cons (hc : isGap c = false) : skipGap (c :: text) = c :: text := by
  rw [skipGap, List.dropWhile_cons_of_neg (by simp [hc])]

@[simp]
theorem skipGap_skipGap (text : List Char) : skipGap (skipGap text) = skipGap text :=
  List.dropWhile_idempotent isGap text

end Gaps

/-! ## Strings -/

section Strings

variable {text literal rest : List Char}

theorem StringLiteral.readString_eq (hliteral : StringLiteral literal) (rest : List Char) :
    readString (literal ++ '"' :: rest) = some (literal, rest) := by
  induction hliteral with
  | empty => rfl
  | plain hprintable hquote hslash _ ih =>
      rw [List.cons_append, readString, ih]
      · simp [hprintable, hslash]
      all_goals simp [hquote, hslash]
  | short hescape _ ih =>
      rw [List.cons_append, List.cons_append, readString, ih]
      · simp [hescape]
      · rintro a b c d rest' rfl
        cases hescape
  | unit hunit _ ih =>
      simp only [List.cons_append]
      rw [readString, ih]
      simp [hunit]

theorem stringLiteral_of_readString (hread : readString text = some (literal, rest)) :
    StringLiteral literal ∧ text = literal ++ '"' :: rest := by
  fun_induction readString text generalizing literal rest with
  | case1 => cases hread
  | case2 tail =>
      cases hread
      exact ⟨.empty, rfl⟩
  | case3 a b c d tail ih =>
      simp only [Option.bind_eq_bind, Option.bind_eq_some_iff, Option.guard_eq_some', Option.pure_def,
        Option.some_inj, Prod.exists, Prod.mk.injEq] at hread
      obtain ⟨-, hunit, inner, after, hinner, rfl, rfl⟩ := hread
      obtain ⟨hliteral, rfl⟩ := ih hinner
      exact ⟨.unit hunit hliteral, rfl⟩
  | case4 c tail _ ih =>
      simp only [Option.bind_eq_bind, Option.bind_eq_some_iff, Option.guard_eq_some', Option.pure_def,
        Option.some_inj, Prod.exists, Prod.mk.injEq] at hread
      obtain ⟨-, hescape, inner, after, hinner, rfl, rfl⟩ := hread
      obtain ⟨hliteral, rfl⟩ := ih hinner
      exact ⟨.short hescape hliteral, rfl⟩
  | case5 c tail hquote _ _ ih =>
      simp only [Option.bind_eq_bind, Option.bind_eq_some_iff, Option.guard_eq_some', Option.pure_def,
        Option.some_inj, Prod.exists, Prod.mk.injEq, Bool.and_eq_true, decide_eq_true_eq, bne_iff_ne] at hread
      obtain ⟨-, ⟨hprintable, hslash⟩, inner, after, hinner, rfl, rfl⟩ := hread
      obtain ⟨hliteral, rfl⟩ := ih hinner
      exact ⟨.plain hprintable hquote hslash hliteral, rfl⟩

end Strings

/-! ## Numbers -/

/-- The first character of a text, if there is one, satisfies a condition. -/
def Begins (condition : Char → Prop) (text : List Char) : Prop :=
  ∀ c ∈ text.head?, condition c

/-- What does not go on with a number. -/
def EndsNumber (c : Char) : Prop :=
  c.isDigit = false ∧ c ≠ '.' ∧ c ≠ 'e' ∧ c ≠ 'E'

instance : DecidablePred EndsNumber :=
  fun _ => inferInstanceAs (Decidable (_ ∧ _))

section Numbers

variable {text digits whole fraction power literal rest : List Char}

theorem Digits.readDigits_eq (hdigits : Digits digits) (hrest : Begins (·.isDigit = false) rest) :
    readDigits (digits ++ rest) = some (digits, rest) := by
  have htake : rest.takeWhile Char.isDigit = [] ∧ rest.dropWhile Char.isDigit = rest := by
    cases rest with
    | nil => exact ⟨rfl, rfl⟩
    | cons c rest =>
        have hc : ¬ c.isDigit = true := by simpa using hrest c rfl
        exact ⟨List.takeWhile_cons_of_neg hc, List.dropWhile_cons_of_neg hc⟩
  rw [readDigits, List.takeWhile_append_of_pos hdigits.2, List.dropWhile_append_of_pos hdigits.2,
    htake.1, htake.2, List.append_nil]
  simp [hdigits.1]

theorem digits_of_readDigits (hread : readDigits text = some (digits, rest)) :
    Digits digits ∧ text = digits ++ rest := by
  unfold readDigits at hread
  dsimp only at hread
  split at hread
  case isTrue => cases hread
  case isFalse hsome =>
    cases hread
    exact ⟨⟨by simpa using hsome, fun _ => List.mem_takeWhile_imp⟩,
      List.takeWhile_append_dropWhile.symm⟩

theorem Whole.readWhole_eq (hwhole : Whole whole) (hrest : Begins (·.isDigit = false) rest) :
    readWhole (whole ++ rest) = some (whole, rest) := by
  cases hwhole with
  | zero => rfl
  | positive hdigits hfirst =>
      rw [List.cons_append, readWhole, ← List.cons_append, hdigits.readDigits_eq hrest]
      exact fun _ hzero => hfirst (List.cons.inj hzero).1

theorem whole_of_readWhole (hread : readWhole text = some (whole, rest)) :
    Whole whole ∧ text = whole ++ rest := by
  unfold readWhole at hread
  split at hread
  case h_1 =>
    cases hread
    exact ⟨.zero, rfl⟩
  case h_2 hzero =>
    obtain ⟨hdigits, rfl⟩ := digits_of_readDigits hread
    cases whole with
    | nil => exact absurd rfl hdigits.1
    | cons first whole =>
        refine ⟨.positive hdigits ?_, rfl⟩
        rintro rfl
        exact hzero _ rfl

theorem Fraction.readFraction_eq (hfraction : Fraction fraction)
    (hrest : Begins (fun c => c.isDigit = false ∧ c ≠ '.') rest) :
    readFraction (fraction ++ rest) = some (fraction, rest) := by
  cases hfraction with
  | absent =>
      rw [List.nil_append, readFraction]
      rintro rest' rfl
      exact (hrest '.' rfl).2 rfl
  | present hdigits =>
      rw [List.cons_append, readFraction, hdigits.readDigits_eq fun c hc => (hrest c hc).1]
      rfl

theorem fraction_of_readFraction (hread : readFraction text = some (fraction, rest)) :
    Fraction fraction ∧ text = fraction ++ rest := by
  unfold readFraction at hread
  split at hread
  case h_1 =>
    simp only [Option.bind_eq_bind, Option.bind_eq_some_iff, Option.pure_def, Option.some_inj, Prod.exists,
      Prod.mk.injEq] at hread
    obtain ⟨digits, after, hafter, rfl, rfl⟩ := hread
    obtain ⟨hdigits, rfl⟩ := digits_of_readDigits hafter
    exact ⟨.present hdigits, rfl⟩
  case h_2 =>
    cases hread
    exact ⟨.absent, rfl⟩

theorem Power.readPower_eq (hpower : Power power) (hrest : Begins EndsNumber rest) :
    readPower (power ++ rest) = some (power, rest) := by
  cases hpower with
  | absent =>
      cases rest with
      | nil => rfl
      | cons c rest =>
          obtain ⟨-, -, hlower, hupper⟩ := hrest c rfl
          rw [List.nil_append, readPower.eq_def]
          dsimp only
          rw [if_neg (by simp [hlower, hupper])]
  | @present mark sign digits hmark hsign hdigits =>
      have hread := hdigits.readDigits_eq fun c hc => (hrest c hc).1
      rw [List.cons_append, readPower.eq_def]
      dsimp only
      rw [if_pos (by simpa using hmark)]
      obtain rfl | rfl | rfl := hsign
      · -- A sign is no digit.
        have hfirst (c : Char) (hsign : c.isDigit = false) (tail : List Char) :
            [] ++ digits ++ rest ≠ c :: tail := by
          obtain ⟨first, others, rfl⟩ := List.exists_cons_of_ne_nil hdigits.1
          intro hsame
          obtain ⟨rfl, -⟩ := List.cons.inj hsame
          exact absurd (hdigits.2 _ (List.mem_cons_self ..)) (by simp [hsign])
        split
        case h_1 hplus => exact absurd hplus (hfirst '+' rfl _)
        case h_2 hminus => exact absurd hminus (hfirst '-' rfl _)
        case h_3 =>
          rw [List.nil_append, hread]
          rfl
      · change (readDigits (digits ++ rest) >>= fun found => some (mark :: '+' :: found.1, found.2)) = _
        rw [hread]
        rfl
      · change (readDigits (digits ++ rest) >>= fun found => some (mark :: '-' :: found.1, found.2)) = _
        rw [hread]
        rfl

theorem power_of_readPower (hread : readPower text = some (power, rest)) :
    Power power ∧ text = power ++ rest := by
  unfold readPower at hread
  split at hread
  case h_2 =>
    cases hread
    exact ⟨.absent, rfl⟩
  case h_1 mark tail =>
    split at hread
    case isFalse =>
      cases hread
      exact ⟨.absent, rfl⟩
    case isTrue hmark =>
      rw [Bool.or_eq_true, decide_eq_true_eq, decide_eq_true_eq] at hmark
      split at hread <;>
      simp only [Option.bind_eq_bind, Option.bind_eq_some_iff, Option.pure_def, Option.some_inj, Prod.exists,
        Prod.mk.injEq] at hread <;>
      obtain ⟨digits, after, hafter, rfl, rfl⟩ := hread <;>
      obtain ⟨hdigits, rfl⟩ := digits_of_readDigits hafter
      · exact ⟨.present hmark (.inr (.inl rfl)) hdigits, rfl⟩
      · exact ⟨.present hmark (.inr (.inr rfl)) hdigits, rfl⟩
      · exact ⟨.present hmark (.inl rfl) hdigits, rfl⟩

theorem Fraction.begins (hfraction : Fraction fraction) (hrest : Begins (·.isDigit = false) rest) :
    Begins (·.isDigit = false) (fraction ++ rest) := by
  cases hfraction with
  | absent => exact hrest
  | present => simp [Begins]

theorem Power.begins (hpower : Power power) (hrest : Begins EndsNumber rest) :
    Begins (fun c => c.isDigit = false ∧ c ≠ '.') (power ++ rest) := by
  cases hpower with
  | absent => exact fun c hc => ⟨(hrest c hc).1, (hrest c hc).2.1⟩
  | present hmark => obtain rfl | rfl := hmark <;> simp [Begins]

/-- The parts of a number are split off one after the other, behind its sign. -/
theorem readNumber_eq_some_iff_of_sign {sign unsigned : List Char} (hsign : sign = [] ∨ sign = ['-'])
    (hunsigned : sign = [] → Begins (· ≠ '-') unsigned) :
    readNumber (sign ++ unsigned) = some (literal, rest) ↔
      ∃ whole fraction power afterWhole afterFraction, readWhole unsigned = some (whole, afterWhole) ∧
        readFraction afterWhole = some (fraction, afterFraction) ∧
        readPower afterFraction = some (power, rest) ∧ literal = sign ++ whole ++ fraction ++ power := by
  have hsplit : readNumber (sign ++ unsigned) =
      (readWhole unsigned).bind fun whole => (readFraction whole.2).bind fun fraction =>
        (readPower fraction.2).bind fun power =>
          some (sign ++ whole.1 ++ fraction.1 ++ power.1, power.2) := by
    obtain rfl | rfl := hsign
    · rw [List.nil_append, readNumber.eq_def]
      split
      rename_i hsame
      split at hsame
      case h_1 => exact absurd rfl (hunsigned rfl '-' (by simp))
      case h_2 =>
        cases hsame
        rfl
    · rfl
  rw [hsplit]
  simp only [Option.bind_eq_some_iff, Option.some_inj, Prod.exists, Prod.mk.injEq]
  constructor
  · rintro ⟨whole, afterWhole, hwhole, fraction, afterFraction, hfraction, power, after, hpower, rfl, rfl⟩
    exact ⟨whole, fraction, power, afterWhole, afterFraction, hwhole, hfraction, hpower, rfl⟩
  · rintro ⟨whole, fraction, power, afterWhole, afterFraction, hwhole, hfraction, hpower, rfl⟩
    exact ⟨whole, afterWhole, hwhole, fraction, afterFraction, hfraction, power, rest, hpower, rfl, rfl⟩

theorem NumberLiteral.readNumber_eq (hliteral : NumberLiteral literal) (hrest : Begins EndsNumber rest) :
    readNumber (literal ++ rest) = some (literal, rest) := by
  obtain @⟨sign, whole, fraction, power, hsign, hwhole, hfraction, hpower⟩ := hliteral
  have hpowers := hpower.begins hrest
  have hfractions := hfraction.begins fun c hc => (hpowers c hc).1
  simp only [List.append_assoc]
  rw [readNumber_eq_some_iff_of_sign hsign]
  · exact ⟨whole, fraction, power, _, _, hwhole.readWhole_eq hfractions, hfraction.readFraction_eq hpowers,
      hpower.readPower_eq hrest, by simp only [List.append_assoc]⟩
  · intro _
    cases hwhole with
    | zero => simp [Begins]
    | positive hdigits =>
        rintro c hc rfl
        obtain rfl : _ = '-' := by simpa using hc
        exact absurd (hdigits.2 '-' (List.mem_cons_self ..)) (by decide)

theorem numberLiteral_of_readNumber (hread : readNumber text = some (literal, rest)) :
    NumberLiteral literal ∧ text = literal ++ rest := by
  obtain ⟨sign, unsigned, hsign, hunsigned, rfl⟩ : ∃ sign unsigned, (sign = [] ∨ sign = ['-']) ∧
      (sign = [] → Begins (· ≠ '-') unsigned) ∧ text = sign ++ unsigned := by
    by_cases hminus : Begins (· ≠ '-') text
    · exact ⟨[], text, .inl rfl, fun _ => hminus, rfl⟩
    · -- Here the number has a sign, whatever follows it.
      simp only [Begins, not_forall, Decidable.not_not, exists_prop, exists_eq_right] at hminus
      obtain ⟨unsigned, rfl⟩ := List.head?_eq_some_iff.mp hminus
      exact ⟨['-'], unsigned, .inr rfl, (absurd · (by simp)), rfl⟩
  obtain ⟨whole, fraction, power, _, _, hwholes, hfractions, hpowers, rfl⟩ :=
    (readNumber_eq_some_iff_of_sign hsign hunsigned).mp hread
  obtain ⟨hwhole, rfl⟩ := whole_of_readWhole hwholes
  obtain ⟨hfraction, rfl⟩ := fraction_of_readFraction hfractions
  obtain ⟨hpower, rfl⟩ := power_of_readPower hpowers
  exact ⟨⟨hsign, hwhole, hfraction, hpower⟩, by simp only [List.append_assoc]⟩

end Numbers

end Tomasulo.Json
