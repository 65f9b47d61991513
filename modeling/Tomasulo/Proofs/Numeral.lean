import Mathlib.Tactic
import Tomasulo.Proofs.Statement
import Tomasulo.Proofs.Noise

/-!
# Numbers as names

A token is taken for a number if it is an immediate, that is if its value fits in a signed 64-bit word.
Digits that write a greater number are a word like any other, and so they name a register
(`Literal.isRegister_iff`): an arithmetic statement whose third operand is such a literal reads a register
of that name instead of being passed over.  Every other literal in that place is the constant that it
denotes, or the line is no statement (`ArithmeticLine.operation_eq`).
-/

namespace Tomasulo

/-- The registers that an operation names. -/
def Operation.registers (operation : Operation) : List String :=
  operation.dest?.toList ++ operation.operands

namespace Assembly

/-- Whether a line is an arithmetic statement by its mnemonic, with these as its first three operands. -/
inductive ArithmeticLine (mnemonic : List Char) (op : AluOp) (dest lhs rhs line : List Char) : Prop
  | intro (operands : List Char) (rest : List (List Char)) (hline : Divides line mnemonic operands)
      (hmnemonic : Mnemonic mnemonic (.arithmetic op))
      (htokens : Text.Pieces isDelimiter operands (dest :: lhs :: rhs :: rest))

/-! ## Literals and registers -/

section Tokens

variable {token digits : List Char} {value other : Int} {n : Nat}

theorem Literal.value_eq (hliteral : Literal token value) (hother : Literal token other) : value = other := by
  have hvalue := integer?_eq_some_iff.mpr hliteral
  rw [integer?_eq_some_iff.mpr hother] at hvalue
  exact (Option.some.inj hvalue).symm

theorem Writes.isWord (hdigits : Writes digits n) : IsWord digits where
  nonempty := hdigits.nonempty
  letters c hc := by
    obtain ⟨hlow, hhigh⟩ := hdigits.decimal c hc
    have hcode : 48 ≤ c.toNat ∧ c.toNat ≤ 57 := by
      simpa [Char.le_def, UInt32.le_iff_toNat_le] using And.intro hlow hhigh
    refine .inl ?_
    rw [Text.isAlphanumeric, if_pos (by omega)]
    simp [Char.isAlphanum, isDigit_iff.mpr ⟨hlow, hhigh⟩]

/-- Digits name a register exactly if their value is beyond the range of immediates. -/
theorem Writes.isRegister_iff (hdigits : Writes digits n) : IsRegister digits ↔ Word.greatest < n := by
  constructor
  · intro hregister
    by_contra hsmall
    refine hregister.noImmediate n ⟨.unsigned hdigits, ?_, by omega⟩
    have hleast : Word.least ≤ 0 := by decide
    omega
  · intro hlarge
    refine ⟨hdigits.isWord, fun value himmediate => ?_⟩
    obtain rfl := himmediate.literal.value_eq (.unsigned hdigits)
    have hgreatest := himmediate.greatest
    omega

/-- A literal names a register exactly if it is written without a sign and its value is beyond the range of
immediates. -/
theorem Literal.isRegister_iff (hliteral : Literal token value) :
    IsRegister token ↔ ∃ n : Nat, value = n ∧ Writes token n ∧ Word.greatest < value := by
  have hsign (sign : Char) {digits : List Char} (hletter : Text.isAlphanumeric sign = false)
      (hunderscore : sign ≠ '_') (hdigit : ¬ ('0' ≤ sign ∧ sign ≤ '9')) :
      ¬ IsRegister (sign :: digits) ∧ ∀ n, ¬ Writes (sign :: digits) n := by
    refine ⟨fun hregister => ?_, fun n hdigits => hdigit (hdigits.decimal sign (List.mem_cons_self ..))⟩
    exact hregister.isWord.not_mem sign hletter hunderscore (List.mem_cons_self ..)
  cases hliteral with
  | unsigned hdigits =>
      rw [hdigits.isRegister_iff]
      exact ⟨fun hlarge => ⟨_, rfl, hdigits, hlarge⟩, fun ⟨_, _, _, hlarge⟩ => hlarge⟩
  | positive hdigits =>
      obtain ⟨hregister, hwrites⟩ := hsign '+' (by decide) (by decide) (by decide)
      exact iff_of_false hregister fun ⟨m, _, hm, _⟩ => hwrites m hm
  | negative hdigits =>
      obtain ⟨hregister, hwrites⟩ := hsign '-' (by decide) (by decide) (by decide)
      exact iff_of_false hregister fun ⟨m, _, hm, _⟩ => hwrites m hm

end Tokens

/-! ## Operands that are literals -/

section Lines

variable {mnemonic dest lhs rhs line : List Char} {op : AluOp} {value : Int} {statement : Statement}

theorem Place.isRegister {tokens : List (List Char)} {base : String} {offset : Int}
    (hplace : Place tokens base offset) : IsRegister base.toList := by
  cases hplace with
  | joined _ hbase _ | apart _ hbase _ => rwa [String.toList_ofList]

/-- Every register that a statement names is one by its spelling. -/
theorem Operands.isRegister {family : Family} {tokens : List (List Char)} {operation : Operation}
    (hoperands : Operands family tokens operation) {name : String} (hname : name ∈ operation.registers) :
    IsRegister name.toList := by
  cases hoperands with
  | load hfirst hplace | store hfirst hplace =>
      simp only [Operation.registers, Operation.dest?, Operation.operands, Option.toList_some,
        Option.toList_none, List.nil_append, List.singleton_append, List.mem_cons, List.not_mem_nil,
        or_false] at hname
      rcases hname with rfl | rfl
      · rwa [String.toList_ofList]
      · exact hplace.isRegister
  | loadImmediate _ hdest _ =>
      obtain rfl : name = _ := by simpa [Operation.registers, Operation.dest?, Operation.operands] using hname
      rwa [String.toList_ofList]
  | arithmetic _ _ hdest hlhs hrhs =>
      simp only [Operation.registers, Operation.dest?, Operation.operands, Option.toList_some,
        List.singleton_append, List.mem_cons, List.not_mem_nil, or_false] at hname
      rcases hname with rfl | rfl | rfl <;> rwa [String.toList_ofList]
  | arithmeticConstant _ _ hdest hlhs _ | arithmeticImmediate _ _ hdest hlhs _ =>
      simp only [Operation.registers, Operation.dest?, Operation.operands, Option.toList_some,
        List.singleton_append, List.mem_cons, List.not_mem_nil, or_false] at hname
      rcases hname with rfl | rfl <;> rwa [String.toList_ofList]
  | branch _ _ hlhs hrhs _ =>
      simp only [Operation.registers, Operation.dest?, Operation.operands, Option.toList_none,
        List.nil_append, List.mem_cons, List.not_mem_nil, or_false] at hname
      rcases hname with rfl | rfl <;> rwa [String.toList_ofList]
  | jump => simp [Operation.registers, Operation.dest?, Operation.operands] at hname

/-- An arithmetic statement has a constant or a register as its third operand. -/
theorem ArithmeticLine.statement?_eq_some_iff_operation
    (hline : ArithmeticLine mnemonic op dest lhs rhs line) :
    statement? line = some statement ↔
      statement.mnemonic = String.ofList mnemonic ∧ IsRegister dest ∧ IsRegister lhs ∧
        ((∃ value, Immediate rhs value ∧ statement.operation =
            .arithmeticImmediate op (String.ofList dest) (String.ofList lhs) value) ∨
          IsRegister rhs ∧ statement.operation =
            .arithmetic op (String.ofList dest) (String.ofList lhs) (String.ofList rhs)) := by
  obtain ⟨_, _, hdivides, hmnemonic, htokens⟩ := hline
  rw [statement?_of_divides hdivides hmnemonic htokens, Option.map_eq_some_iff]
  constructor
  · rintro ⟨operation, hread, rfl⟩
    refine ⟨rfl, ?_⟩
    cases operation?_eq_some_iff.mp hread with
    | arithmetic _ _ hdest hlhs hrhs => exact ⟨hdest, hlhs, .inr ⟨hrhs, rfl⟩⟩
    | arithmeticConstant _ _ hdest hlhs hvalue => exact ⟨hdest, hlhs, .inl ⟨_, hvalue, rfl⟩⟩
  · rintro ⟨hname, hdest, hlhs, hthird⟩
    refine ⟨statement.operation, operation?_eq_some_iff.mpr ?_, by rw [← hname]⟩
    rcases hthird with ⟨value, hvalue, hoperation⟩ | ⟨hrhs, hoperation⟩ <;> rw [hoperation]
    · exact .arithmeticConstant op _ hdest hlhs hvalue
    · exact .arithmetic op _ hdest hlhs hrhs

/-- A literal as third operand is a constant if it fits in a word, and otherwise at most a name. -/
theorem ArithmeticLine.operation_eq (hline : ArithmeticLine mnemonic op dest lhs rhs line)
    (hliteral : Literal rhs value) (hread : statement? line = some statement) :
    statement.operation =
      if value ≤ Word.greatest then
        .arithmeticImmediate op (String.ofList dest) (String.ofList lhs) value
      else .arithmetic op (String.ofList dest) (String.ofList lhs) (String.ofList rhs) := by
  obtain ⟨-, -, -, hthird⟩ := hline.statement?_eq_some_iff_operation.mp hread
  rcases hthird with ⟨constant, hconstant, hoperation⟩ | ⟨hregister, hoperation⟩ <;> rw [hoperation]
  · obtain rfl := hliteral.value_eq hconstant.literal
    rw [if_pos hconstant.greatest]
  · obtain ⟨n, -, -, hlarge⟩ := hliteral.isRegister_iff.mp hregister
    rw [if_neg (by omega)]

end Lines

/-! ## Programs -/

section Programs

/-- What an instruction of a listing does is said by a line of its source. -/
theorem exists_says_of_mem {source : String} {listing : Listing} {instruction : Instruction}
    (hread : Listing.ofSource? source = some listing) (hmember : instruction ∈ listing.instructions) :
    ∃ line statement, Says line statement ∧ instruction.operation = statement.operation := by
  rw [ofSource?_eq] at hread
  obtain ⟨-, hlisting⟩ := Option.ite_none_left_eq_some.mp hread
  obtain rfl := Option.some.inj hlisting
  obtain ⟨entry, hentry, rfl⟩ := List.mem_map.mp hmember
  obtain ⟨codeOrder, hthere⟩ := List.mem_iff_getElem?.mp hentry
  rw [getElem?_numbered] at hthere
  obtain ⟨placed, hplaced, rfl⟩ := Option.map_eq_some_iff.mp hthere
  obtain ⟨n, -, hn⟩ := Option.bind_eq_some_iff.mp hplaced
  rw [placedAt?_eq] at hn
  obtain ⟨line, -, hline⟩ := Option.bind_eq_some_iff.mp hn
  obtain ⟨statement, hstatement, rfl⟩ := Option.map_eq_some_iff.mp hline
  exact ⟨body line, statement, says_of_statement? hstatement, rfl⟩

/-- The program `add x y` with given digits as its third operand. -/
def sumWith (digits : List Char) : List Char :=
  ['a', 'd', 'd'] ++ ' ' :: (['x'] ++ ' ' :: (['y'] ++ ' ' :: digits))

variable {digits : List Char} {n : Nat}

theorem Writes.not_mem_sumWith (hdigits : Writes digits n) (mark : Char)
    (hmark : mark ∉ ['a', 'd', 'd', ' ', 'x', ' ', 'y', ' ']) (hdigit : ¬ ('0' ≤ mark ∧ mark ≤ '9')) :
    mark ∉ sumWith digits :=
  List.not_mem_append (s := ['a', 'd', 'd', ' ', 'x', ' ', 'y', ' ']) hmark
    fun hmem => hdigit (hdigits.decimal mark hmem)

theorem Writes.isBlank_eq_false (hdigits : Writes digits n) : ∀ c ∈ digits, Text.isBlank c = false := by
  intro c hc
  by_contra hblank
  have hplain := numeral_char_of_blank (by simpa using hblank)
  simp [isDigit_iff.mpr (hdigits.decimal c hc)] at hplain

/-- The pieces between blanks are the same as those between blanks and commas. -/
theorem Writes.pieces_sumWith (hdigits : Writes digits n) (isSeparator : Char → Bool)
    (hspace : isSeparator ' ' = true) (hletters : ['a', 'd', 'x', 'y'].any isSeparator = false)
    (hplain : ∀ c ∈ digits, isSeparator c = false) :
    Text.pieces isSeparator (sumWith digits) = [['a', 'd', 'd'], ['x'], ['y'], digits] := by
  have hword {word : List Char} (hnonempty : word ≠ []) (hletter : word ⊆ ['a', 'd', 'x', 'y']) :
      Text.pieces isSeparator word = [word] := by
    refine Text.pieces_of_plain hnonempty fun c hc => ?_
    simpa using List.any_eq_false.mp hletters c (hletter hc)
  rw [sumWith, Text.pieces_append_separator hspace, Text.pieces_append_separator hspace,
    Text.pieces_append_separator hspace, hword (by simp) (by simp), hword (by simp) (by simp),
    hword (by simp) (by simp), Text.pieces_of_plain hdigits.nonempty hplain]
  rfl

theorem Writes.arithmeticLine_sumWith (hdigits : Writes digits n) :
    ArithmeticLine ['a', 'd', 'd'] .add ['x'] ['y'] digits (sumWith digits) := by
  have hdelimiter : ∀ c ∈ digits, isDelimiter c = false := fun c hc => by
    rw [isDelimiter, hdigits.isBlank_eq_false c hc, Bool.or_false, beq_eq_false_iff_ne]
    rintro rfl
    exact absurd (hdigits.decimal ',' hc) (by decide)
  have hall := hdigits.pieces_sumWith isDelimiter (by decide) (by decide) hdelimiter
  rw [sumWith, Text.pieces_append_separator (by decide)] at hall
  refine .intro _ [] (.spaced _ (by decide)) (.arithmetic .add) ?_
  rw [← Text.pieces_eq_iff]
  exact (List.cons.inj hall).2

theorem Writes.codeLines_sumWith (hdigits : Writes digits n) :
    codeLines (sumWith digits) = [sumWith digits] := by
  have hbreak := hdigits.not_mem_sumWith '\n' (by decide) (by decide)
  have hcomment := hdigits.not_mem_sumWith '#' (by decide) (by decide)
  have hnormal : normalise (sumWith digits) = sumWith digits := by
    rw [normalise, Text.words, hdigits.pieces_sumWith Text.isBlank (by decide) (by decide)
      hdigits.isBlank_eq_false]
    simp [sumWith, List.intercalate]
  have hlines : sumWith digits = joined [sumWith digits] := by simp [joined, List.intercalate]
  rw [hlines, codeLines_joined (by simpa using hbreak), List.map_singleton, codeOf,
    splitComment_of_not_mem hcomment, hnormal, ← hlines]
  rfl

/-- Digits that are no immediate name a register in some program. -/
theorem Writes.exists_source (hdigits : Writes digits n) (hlarge : Word.greatest < n) :
    ∃ listing instruction, Listing.ofSource? (String.ofList (sumWith digits)) = some listing ∧
      instruction ∈ listing.instructions ∧ String.ofList digits ∈ instruction.operation.registers := by
  let statement : Statement := ⟨"add", .arithmetic .add "x" "y" (String.ofList digits)⟩
  let instruction := instructionOf 0 (⟨implicitSection, sumWith digits⟩, statement)
  have hx : register? ['x'] = some "x" := rfl
  have hy : register? ['y'] = some "y" := rfl
  have hread : statement? (sumWith digits) = some statement :=
    hdigits.arithmeticLine_sumWith.statement?_eq_some_iff_operation.mpr
      ⟨rfl, (register?_eq_some_iff.mp hx).1, (register?_eq_some_iff.mp hy).1,
        .inr ⟨hdigits.isRegister_iff.mpr hlarge, rfl⟩⟩
  have hunlabelled : splitLabel (sumWith digits) = (none, sumWith digits) := by
    rw [splitLabel, Text.cutOnce_eq_none_iff.mpr (hdigits.not_mem_sumWith ':' (by decide) (by decide))]
  have hplaced : placed [sumWith digits] = [⟨implicitSection, sumWith digits⟩] := by
    rw [placed, place, hunlabelled]
    rfl
  have hnumbered : numbered [sumWith digits] = [(implicitSection, instruction)] := by
    rw [numbered, hplaced, number, hread]
    rfl
  refine ⟨listingOf [sumWith digits] (directives (sumWith digits)), instruction, ?_, ?_, ?_⟩
  · rw [ofSource?_eq, String.toList_ofList, hdigits.codeLines_sumWith, hnumbered, if_neg (by simp)]
  · rw [listingOf, hnumbered]
    exact List.mem_singleton_self _
  · simp [instruction, instructionOf, statement, Operation.registers, Operation.operands]

end Programs

end Assembly

open Assembly

/-- A literal names a register of some program exactly if it is written without a sign and its value is
beyond the range of immediates.  As the third operand of arithmetic a literal within the range is the
constant that it denotes, and one that is beyond it is read as a register. -/
theorem literal_names_register_iff {token : List Char} {value : Int} (hliteral : Literal token value) :
    ((∃ (source : String) (listing : Listing) (instruction : Instruction),
        Listing.ofSource? source = some listing ∧ instruction ∈ listing.instructions ∧
          String.ofList token ∈ instruction.operation.registers) ↔
      Word.greatest < value ∧ ∃ n, Writes token n) ∧
    ∀ (mnemonic : List Char) (op : AluOp) (dest lhs line : List Char) (statement : Statement),
      ArithmeticLine mnemonic op dest lhs token line → statement? line = some statement →
        statement.operation =
          if value ≤ Word.greatest then
            .arithmeticImmediate op (String.ofList dest) (String.ofList lhs) value
          else .arithmetic op (String.ofList dest) (String.ofList lhs) (String.ofList token) := by
  refine ⟨⟨?_, ?_⟩, fun _ _ _ _ _ _ hline hread => hline.operation_eq hliteral hread⟩
  · rintro ⟨source, listing, instruction, hread, hmember, hname⟩
    obtain ⟨line, statement, ⟨_, _, _, _, hoperands⟩, hsame⟩ := exists_says_of_mem hread hmember
    have hregister := hoperands.isRegister (hsame ▸ hname)
    rw [String.toList_ofList] at hregister
    obtain ⟨n, -, hdigits, hlarge⟩ := hliteral.isRegister_iff.mp hregister
    exact ⟨hlarge, n, hdigits⟩
  · rintro ⟨hlarge, n, hdigits⟩
    obtain rfl := hliteral.value_eq (.unsigned hdigits)
    exact ⟨_, hdigits.exists_source hlarge⟩

/-- Twenty nines are beyond the range of immediates. -/
def Nines.token : String :=
  "99999999999999999999"

theorem Nines.writes : Writes Nines.token.toList 99999999999999999999 :=
  writes_iff.mpr ⟨by decide, by decide⟩

theorem literal_names_register_iff_nines :
    Literal Nines.token.toList 99999999999999999999 ∧
      ∃ (source : String) (listing : Listing) (instruction : Instruction),
        Listing.ofSource? source = some listing ∧ instruction ∈ listing.instructions ∧
          String.ofList Nines.token.toList ∈ instruction.operation.registers := by
  have hliteral : Literal Nines.token.toList 99999999999999999999 := .unsigned Nines.writes
  exact ⟨hliteral, (literal_names_register_iff hliteral).1.mpr ⟨by decide, _, Nines.writes⟩⟩

/-- Registers may be named by digits alone. -/
theorem not_always_named_by_word :
    ¬ ∀ (source : String) (listing : Listing), Listing.ofSource? source = some listing →
      ∀ instruction ∈ listing.instructions, ∀ name ∈ instruction.operation.registers,
        ¬ ∃ n, Writes name.toList n := by
  intro hnever
  have hread : (Listing.ofSource? "add x1, x2, 99999999999999999999").map
      (fun listing => listing.instructions.map Instruction.operation) =
        some [.arithmetic .add "x1" "x2" Nines.token] := by
    rfl
  obtain ⟨listing, hlisting, hoperations⟩ := Option.map_eq_some_iff.mp hread
  have hthere : Operation.arithmetic .add "x1" "x2" Nines.token ∈
      listing.instructions.map Instruction.operation := by
    rw [hoperations]
    exact List.mem_singleton_self _
  obtain ⟨instruction, hmember, hoperation⟩ := List.mem_map.mp hthere
  refine hnever _ listing hlisting instruction hmember Nines.token ?_ ⟨_, Nines.writes⟩
  simp [hoperation, Operation.registers, Operation.operands]

end Tomasulo
