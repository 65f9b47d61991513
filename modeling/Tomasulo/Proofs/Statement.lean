import Mathlib.Tactic
import Mathlib.Data.Nat.Digits.Defs
import Tomasulo.Assembly.Statement
import Tomasulo.Proofs.Pieces

/-!
# The grammar of statements

Statements are read by trial: a token is tried as an immediate and then as a register, a memory operand as
one token and then as two.  This module gives the grammar of the language, form by form, and shows that
reading accepts exactly what it derives:

* `Immediate`, `IsWord` and `IsRegister` for tokens, `Place` for memory operands;
* `Mnemonic` for the words that statements begin with, each with its family;
* `Operands` for the operands that each family takes, whatever follows them;
* `Says` for whole lines (`statement?_eq_some_iff`).

The mnemonics overlap in their fronts and ends.  That taking them apart from the front still finds the family
of each, and of nothing else, is `family?_eq_some_iff`.
-/

namespace Tomasulo.Assembly

/-! ## Tokens -/

/-- Whether decimal digits write a number. -/
structure Writes (digits : List Char) (n : Nat) : Prop where
  nonempty : digits ≠ []
  decimal : ∀ c ∈ digits, '0' ≤ c ∧ c ≤ '9'
  value : n = Nat.ofDigits 10 (digits.map fun c => c.toNat - '0'.toNat).reverse

/-- Whether a token is an integer literal, of any size. -/
inductive Literal : List Char → Int → Prop
  | unsigned {digits : List Char} {n : Nat} (hdigits : Writes digits n) : Literal digits n
  | positive {digits : List Char} {n : Nat} (hdigits : Writes digits n) : Literal ('+' :: digits) n
  | negative {digits : List Char} {n : Nat} (hdigits : Writes digits n) : Literal ('-' :: digits) (-n)

/-- Whether a token is an immediate: a literal that fits in a signed 64-bit word. -/
structure Immediate (token : List Char) (value : Int) : Prop where
  literal : Literal token value
  least : Word.least ≤ value
  greatest : value ≤ Word.greatest

structure IsWord (token : List Char) : Prop where
  nonempty : token ≠ []
  letters : ∀ c ∈ token, Text.isAlphanumeric c = true ∨ c = '_'

/-- A register is a word that is no immediate. -/
structure IsRegister (token : List Char) : Prop where
  isWord : IsWord token
  noImmediate : ∀ value, ¬ Immediate token value

/-- Whether tokens begin with a memory operand, written as one token or as two. -/
inductive Place : List (List Char) → String → Int → Prop
  | joined {base offset : List Char} {value : Int} (rest : List (List Char)) (hbase : IsRegister base)
      (hoffset : Immediate offset value) :
      Place ((offset ++ '(' :: (base ++ [')'])) :: rest) (String.ofList base) value
  | apart {base offset : List Char} {value : Int} (rest : List (List Char)) (hbase : IsRegister base)
      (hoffset : Immediate offset value) : Place (base :: offset :: rest) (String.ofList base) value

/-! ## Mnemonics -/

/-- The words of the arithmetic operations. -/
inductive Operator : List Char → AluOp → Prop
  | add : Operator "add".toList .add
  | sub : Operator "sub".toList .sub
  | mul : Operator "mul".toList .mul
  | div : Operator "div".toList .div

/-- Whether a word is a mnemonic of a family. -/
inductive Mnemonic : List Char → Family → Prop
  | load {width : Char} (hwidth : width ∈ ['b', 'h', 'w', 'd', 'q']) : Mnemonic ['l', width] .load
  | loadUnsigned {width : Char} (hwidth : width ∈ ['b', 'h', 'w', 'd', 'q']) :
      Mnemonic ['l', width, 'u'] .load
  | loadFloating {width : Char} (hwidth : width ∈ ['w', 'd', 'q']) : Mnemonic ['f', 'l', width] .load
  | loadImmediate {name : List Char} (hname : name ∈ ["li".toList, "liu".toList]) :
      Mnemonic name .loadImmediate
  | store {width : Char} (hwidth : width ∈ ['b', 'h', 'w', 'd', 'q']) : Mnemonic ['s', width] .store
  | storeFloating {width : Char} (hwidth : width ∈ ['w', 'd', 'q']) : Mnemonic ['f', 's', width] .store
  | arithmetic {name : List Char} {op : AluOp} (hname : Operator name op) :
      Mnemonic name (.arithmetic op)
  | arithmeticWide {name : List Char} {op : AluOp} {width : Char} (hname : Operator name op)
      (hwidth : width ∈ ['w', 'd']) : Mnemonic (name ++ [width]) (.arithmetic op)
  | arithmeticFloating {name : List Char} {op : AluOp} {format : Char} (hname : Operator name op)
      (hformat : format ∈ ['s', 'd', 'q']) :
      Mnemonic ('f' :: name ++ ['.', format]) (.arithmetic op)
  | arithmeticImmediate {name : List Char}
      (hname : name ∈ ["addi".toList, "addiw".toList, "addid".toList]) :
      Mnemonic name (.arithmeticImmediate .add)
  | branchEqual : Mnemonic "beq".toList (.branch .equal)
  | branchNotEqual : Mnemonic "bne".toList (.branch .notEqual)
  | branchLessThan {name : List Char} (hname : name ∈ ["blt".toList, "bltu".toList]) :
      Mnemonic name (.branch .lessThan)
  | branchGreaterOrEqual {name : List Char} (hname : name ∈ ["bge".toList, "bgeu".toList]) :
      Mnemonic name (.branch .greaterOrEqual)
  | jump : Mnemonic "j".toList .jump

/-! ## Statements -/

/-- Whether tokens begin with the operands of a family, and what the statement then does. -/
inductive Operands : Family → List (List Char) → Operation → Prop
  | load {dest : List Char} {place : List (List Char)} {base : String} {offset : Int}
      (hdest : IsRegister dest) (hplace : Place place base offset) :
      Operands .load (dest :: place) (.load (String.ofList dest) base offset)
  | loadImmediate {dest token : List Char} {value : Int} (rest : List (List Char))
      (hdest : IsRegister dest) (hvalue : Immediate token value) :
      Operands .loadImmediate (dest :: token :: rest) (.loadImmediate (String.ofList dest) value)
  | store {source : List Char} {place : List (List Char)} {base : String} {offset : Int}
      (hsource : IsRegister source) (hplace : Place place base offset) :
      Operands .store (source :: place) (.store (String.ofList source) base offset)
  | arithmetic (op : AluOp) {dest lhs rhs : List Char} (rest : List (List Char))
      (hdest : IsRegister dest) (hlhs : IsRegister lhs) (hrhs : IsRegister rhs) :
      Operands (.arithmetic op) (dest :: lhs :: rhs :: rest)
        (.arithmetic op (String.ofList dest) (String.ofList lhs) (String.ofList rhs))
  | arithmeticConstant (op : AluOp) {dest lhs token : List Char} {value : Int}
      (rest : List (List Char)) (hdest : IsRegister dest) (hlhs : IsRegister lhs)
      (hvalue : Immediate token value) :
      Operands (.arithmetic op) (dest :: lhs :: token :: rest)
        (.arithmeticImmediate op (String.ofList dest) (String.ofList lhs) value)
  | arithmeticImmediate (op : AluOp) {dest lhs token : List Char} {value : Int}
      (rest : List (List Char)) (hdest : IsRegister dest) (hlhs : IsRegister lhs)
      (hvalue : Immediate token value) :
      Operands (.arithmeticImmediate op) (dest :: lhs :: token :: rest)
        (.arithmeticImmediate op (String.ofList dest) (String.ofList lhs) value)
  | branch (comparison : Comparison) {lhs rhs target : List Char} (rest : List (List Char))
      (hlhs : IsRegister lhs) (hrhs : IsRegister rhs) (htarget : IsWord target) :
      Operands (.branch comparison) (lhs :: rhs :: target :: rest)
        (.branch comparison (String.ofList lhs) (String.ofList rhs) (String.ofList target))
  | jump {target : List Char} (rest : List (List Char)) (htarget : IsWord target) :
      Operands .jump (target :: rest) (.jump (String.ofList target))

/-- Whether a line divides into a front and what stands behind its first space. -/
inductive Divides : List Char → List Char → List Char → Prop
  | spaced {front : List Char} (rest : List Char) (hfront : ' ' ∉ front) :
      Divides (front ++ ' ' :: rest) front rest
  | bare {line : List Char} (hline : ' ' ∉ line) : Divides line line []

/-- What stands between operands. -/
def isDelimiter (c : Char) : Bool :=
  c == ',' || Text.isBlank c

/-- Whether a line says a statement. -/
inductive Says (line : List Char) (statement : Statement) : Prop
  | intro {mnemonic operands : List Char} {tokens : List (List Char)} {family : Family}
      (hline : Divides line mnemonic operands) (hmnemonic : Mnemonic mnemonic family)
      (hsame : statement.mnemonic = String.ofList mnemonic)
      (htokens : Text.Pieces isDelimiter operands tokens)
      (hoperands : Operands family tokens statement.operation)

/-! ## Reading tokens -/

section Tokens

variable {token digits : List Char} {tokens : List (List Char)} {value : Int} {n : Nat} {name : String}

theorem decimalValue_eq_ofDigits (digits : List Char) : Text.decimalValue digits =
    Nat.ofDigits 10 (digits.map fun c => c.toNat - '0'.toNat).reverse := by
  rw [Nat.ofDigits_eq_foldr, List.foldr_reverse, List.foldl_map, Text.decimalValue]
  simp only [Nat.cast_id, Nat.add_comm]

theorem isDigit_iff {c : Char} : c.isDigit = true ↔ '0' ≤ c ∧ c ≤ '9' := by
  simp [Char.isDigit, Char.le_def]

theorem writes_iff : Writes digits n ↔ Text.isDecimal digits = true ∧ n = Text.decimalValue digits := by
  have hdecimal : Text.isDecimal digits = true ↔
      digits ≠ [] ∧ ∀ c ∈ digits, '0' ≤ c ∧ c ≤ '9' := by
    simp [Text.isDecimal, isDigit_iff]
  rw [hdecimal, decimalValue_eq_ofDigits]
  exact ⟨fun h => ⟨⟨h.nonempty, h.decimal⟩, h.value⟩, fun ⟨⟨h, h'⟩, hvalue⟩ => ⟨h, h', hvalue⟩⟩

theorem integer?_eq_some_iff : Text.integer? token = some value ↔ Literal token value := by
  constructor
  · intro hread
    unfold Text.integer? at hread
    split at hread <;> obtain ⟨hdecimal, hvalue⟩ := Option.ite_none_right_eq_some.mp hread <;>
      obtain rfl := Option.some.inj hvalue
    · exact .negative (writes_iff.mpr ⟨hdecimal, rfl⟩)
    · exact .positive (writes_iff.mpr ⟨hdecimal, rfl⟩)
    · exact .unsigned (writes_iff.mpr ⟨hdecimal, rfl⟩)
  · intro hliteral
    cases hliteral with
    | negative hdigits | positive hdigits =>
        obtain ⟨hdecimal, rfl⟩ := writes_iff.mp hdigits
        exact if_pos hdecimal
    | unsigned hdigits =>
        -- A digit is no sign.
        have hsign (sign : Char) (hsign : ¬ ('0' ≤ sign ∧ sign ≤ '9')) (rest : List Char) :
            token ≠ sign :: rest := by
          rintro rfl
          exact hsign (hdigits.decimal sign (List.mem_cons_self ..))
        obtain ⟨hdecimal, rfl⟩ := writes_iff.mp hdigits
        unfold Text.integer?
        split
        · exact absurd rfl (hsign '-' (by decide) _)
        · exact absurd rfl (hsign '+' (by decide) _)
        · exact if_pos hdecimal

theorem immediate?_eq_some_iff : immediate? token = some value ↔ Immediate token value := by
  rw [immediate?, Text.signedWord?, Option.filter_eq_some_iff, integer?_eq_some_iff, Bool.and_eq_true,
    decide_eq_true_eq, decide_eq_true_eq]
  exact ⟨fun ⟨h, hleast, hgreatest⟩ => ⟨h, hleast, hgreatest⟩,
    fun ⟨h, hleast, hgreatest⟩ => ⟨h, hleast, hgreatest⟩⟩

theorem isSome_immediate?_iff : (immediate? token).isSome = true ↔ ∃ value, Immediate token value := by
  simp only [Option.isSome_iff_exists, immediate?_eq_some_iff]

theorem word?_eq_some_iff : word? token = some name ↔ IsWord token ∧ name = String.ofList token := by
  have hword : (!token.isEmpty && token.all fun c => Text.isAlphanumeric c || c == '_') = true ↔
      IsWord token := by
    simp only [Bool.and_eq_true, Bool.not_eq_true', List.isEmpty_eq_false_iff, List.all_eq_true,
      Bool.or_eq_true, beq_iff_eq]
    exact ⟨fun ⟨h, h'⟩ => ⟨h, h'⟩, fun h => ⟨h.nonempty, h.letters⟩⟩
  rw [word?, Option.ite_none_right_eq_some, hword, Option.some.injEq, eq_comm (a := name)]

theorem register?_eq_some_iff :
    register? token = some name ↔ IsRegister token ∧ name = String.ofList token := by
  rw [register?, Option.ite_none_left_eq_some, isSome_immediate?_iff, word?_eq_some_iff, not_exists]
  exact ⟨fun ⟨h, h', hname⟩ => ⟨⟨h', h⟩, hname⟩, fun ⟨h, hname⟩ => ⟨h.noImmediate, h.isWord, hname⟩⟩

/-- Neither a literal nor a word holds a parenthesis. -/
theorem Literal.not_mem (hliteral : Literal token value) (mark : Char)
    (hmark : ¬ ('0' ≤ mark ∧ mark ≤ '9')) (hplus : mark ≠ '+') (hminus : mark ≠ '-') :
    mark ∉ token := by
  have hdigits {digits : List Char} {n : Nat} (h : Writes digits n) : mark ∉ digits :=
    fun hmem => hmark (h.decimal mark hmem)
  cases hliteral with
  | unsigned h => exact hdigits h
  | positive h => simp [hplus, hdigits h]
  | negative h => simp [hminus, hdigits h]

theorem IsWord.not_mem (hword : IsWord token) (mark : Char) (hmark : Text.isAlphanumeric mark = false)
    (hunderscore : mark ≠ '_') : mark ∉ token := by
  intro hmem
  rcases hword.letters mark hmem with hletter | rfl
  · simp [hmark] at hletter
  · exact hunderscore rfl

theorem place?_joined {offset base : List Char} (rest : List (List Char)) (hoffset : '(' ∉ offset) :
    place? ((offset ++ '(' :: (base ++ [')'])) :: rest) =
      (register? base).bind fun name => (immediate? offset).map (name, ·) := by
  have hcut : Text.cutOnce '(' (offset ++ '(' :: (base ++ [')'])) = some (offset, base ++ [')']) :=
    Text.cutOnce_eq_some_iff.mpr ⟨rfl, hoffset⟩
  simp [place?, hcut, guard, Option.map_eq_bind]

theorem place?_apart {base : List Char} (rest : List (List Char)) (hbase : '(' ∉ base) :
    place? (base :: rest) =
      (register? base).bind fun name => rest.head?.bind fun token => (immediate? token).map (name, ·) := by
  have hcut : Text.cutOnce '(' base = none := Text.cutOnce_eq_none_iff.mpr hbase
  cases rest <;> simp [place?, hcut, Option.map_eq_bind]

theorem place?_eq_some_iff {base : String} {offset : Int} :
    place? tokens = some (base, offset) ↔ Place tokens base offset := by
  constructor
  · intro hread
    cases tokens with
    | nil => simp [place?] at hread
    | cons first rest =>
        cases hcut : Text.cutOnce '(' first with
        | none =>
            rw [place?_apart rest (Text.cutOnce_eq_none_iff.mp hcut)] at hread
            obtain ⟨name, hname, htail⟩ := Option.bind_eq_some_iff.mp hread
            obtain ⟨token, htoken, hvalue⟩ := Option.bind_eq_some_iff.mp htail
            obtain ⟨value, hoffset, hsame⟩ := Option.map_eq_some_iff.mp hvalue
            obtain ⟨rfl, rfl⟩ := Prod.mk.inj hsame
            obtain ⟨others, rfl⟩ := List.head?_eq_some_iff.mp htoken
            obtain ⟨hregister, rfl⟩ := register?_eq_some_iff.mp hname
            exact .apart others hregister (immediate?_eq_some_iff.mp hoffset)
        | some parts =>
            obtain ⟨front, tail⟩ := parts
            obtain ⟨rfl, hfront⟩ := Text.cutOnce_eq_some_iff.mp hcut
            by_cases hclosed : tail.getLast? = some ')'
            · obtain ⟨inner, rfl⟩ := List.getLast?_eq_some_iff.mp hclosed
              rw [place?_joined rest hfront] at hread
              obtain ⟨name, hname, hvalue⟩ := Option.bind_eq_some_iff.mp hread
              obtain ⟨value, hoffset, hsame⟩ := Option.map_eq_some_iff.mp hvalue
              obtain ⟨rfl, rfl⟩ := Prod.mk.inj hsame
              obtain ⟨hregister, rfl⟩ := register?_eq_some_iff.mp hname
              exact .joined rest hregister (immediate?_eq_some_iff.mp hoffset)
            · simp [place?, hcut, hclosed, guard] at hread
  · intro hplace
    cases hplace with
    | joined rest hbase hoffset =>
        have hfront := hoffset.literal.not_mem '(' (by decide) (by decide) (by decide)
        rw [place?_joined rest hfront, register?_eq_some_iff.mpr ⟨hbase, rfl⟩,
          immediate?_eq_some_iff.mpr hoffset]
        rfl
    | apart rest hbase hoffset =>
        have hfront := hbase.isWord.not_mem '(' (by decide) (by decide)
        rw [place?_apart _ hfront, register?_eq_some_iff.mpr ⟨hbase, rfl⟩, List.head?_cons,
          Option.bind_some, Option.bind_some, immediate?_eq_some_iff.mpr hoffset]
        rfl

theorem operation?_eq_some_iff {family : Family} {operation : Operation} :
    operation? family tokens = some operation ↔ Operands family tokens operation := by
  constructor
  · intro hread
    unfold operation? at hread
    split at hread
    case h_8 => cases hread
    all_goals simp only [Option.bind_eq_bind, Option.bind_eq_some_iff, Option.pure_def,
      Option.some.injEq, register?_eq_some_iff, immediate?_eq_some_iff, word?_eq_some_iff, Prod.exists,
      place?_eq_some_iff] at hread
    case h_1 =>
      obtain ⟨_, ⟨hdest, rfl⟩, _, _, hplace, rfl⟩ := hread
      exact .load hdest hplace
    case h_2 =>
      obtain ⟨_, ⟨hdest, rfl⟩, _, hvalue, rfl⟩ := hread
      exact .loadImmediate _ hdest hvalue
    case h_3 =>
      obtain ⟨_, ⟨hsource, rfl⟩, _, _, hplace, rfl⟩ := hread
      exact .store hsource hplace
    case h_4 =>
      obtain ⟨_, ⟨hdest, rfl⟩, _, ⟨hlhs, rfl⟩, hread⟩ := hread
      split at hread
      case h_1 hvalue =>
        cases hread
        exact .arithmeticConstant _ _ hdest hlhs (immediate?_eq_some_iff.mp hvalue)
      case h_2 =>
        obtain ⟨_, hread, hsame⟩ := Option.bind_eq_some_iff.mp hread
        obtain ⟨hrhs, rfl⟩ := register?_eq_some_iff.mp hread
        cases hsame
        exact .arithmetic _ _ hdest hlhs hrhs
    case h_5 =>
      obtain ⟨_, ⟨hdest, rfl⟩, _, ⟨hlhs, rfl⟩, _, hvalue, rfl⟩ := hread
      exact .arithmeticImmediate _ _ hdest hlhs hvalue
    case h_6 =>
      obtain ⟨_, ⟨hlhs, rfl⟩, _, ⟨hrhs, rfl⟩, _, ⟨htarget, rfl⟩, rfl⟩ := hread
      exact .branch _ _ hlhs hrhs htarget
    case h_7 =>
      obtain ⟨_, ⟨htarget, rfl⟩, rfl⟩ := hread
      exact .jump _ htarget
  · intro hoperands
    have hregister {token : List Char} (h : IsRegister token) :
        register? token = some (String.ofList token) := register?_eq_some_iff.mpr ⟨h, rfl⟩
    have hword {token : List Char} (h : IsWord token) :
        word? token = some (String.ofList token) := word?_eq_some_iff.mpr ⟨h, rfl⟩
    cases hoperands with
    | load hdest hplace => simp [operation?, hregister hdest, place?_eq_some_iff.mpr hplace]
    | loadImmediate _ hdest hvalue =>
        simp [operation?, hregister hdest, immediate?_eq_some_iff.mpr hvalue]
    | store hsource hplace => simp [operation?, hregister hsource, place?_eq_some_iff.mpr hplace]
    | @arithmetic op _ _ rhs _ hdest hlhs hrhs =>
        have hnone : immediate? rhs = none := Option.eq_none_iff_forall_ne_some.mpr fun value hvalue =>
          hrhs.noImmediate value (immediate?_eq_some_iff.mp hvalue)
        simp [operation?, hregister hdest, hregister hlhs, hnone, hregister hrhs]
    | arithmeticConstant _ _ hdest hlhs hvalue =>
        simp [operation?, hregister hdest, hregister hlhs, immediate?_eq_some_iff.mpr hvalue]
    | arithmeticImmediate _ _ hdest hlhs hvalue =>
        simp [operation?, hregister hdest, hregister hlhs, immediate?_eq_some_iff.mpr hvalue]
    | branch _ _ hlhs hrhs htarget =>
        simp [operation?, hregister hlhs, hregister hrhs, hword htarget]
    | jump _ htarget => simp [operation?, hword htarget]

end Tokens

/-! ## Reading mnemonics -/

section Mnemonics

variable {mnemonic : List Char} {family : Family}

theorem operator_stem (op : AluOp) : Operator (stem op) op := by
  cases op
  · exact .add
  · exact .sub
  · exact .mul
  · exact .div

theorem mnemonic_of_mem_otherMnemonics (hmem : (mnemonic, family) ∈ otherMnemonics) :
    Mnemonic mnemonic family := by
  simp only [otherMnemonics, List.mem_cons, List.not_mem_nil, or_false, Prod.mk.injEq] at hmem
  rcases hmem with ⟨rfl, rfl⟩ | ⟨rfl, rfl⟩ | ⟨rfl, rfl⟩ | ⟨rfl, rfl⟩ | ⟨rfl, rfl⟩ | ⟨rfl, rfl⟩ |
    ⟨rfl, rfl⟩ | ⟨rfl, rfl⟩ | ⟨rfl, rfl⟩ | ⟨rfl, rfl⟩ | ⟨rfl, rfl⟩ | ⟨rfl, rfl⟩
  · exact .loadImmediate (by decide)
  · exact .loadImmediate (by decide)
  · exact .arithmeticImmediate (by decide)
  · exact .arithmeticImmediate (by decide)
  · exact .arithmeticImmediate (by decide)
  · exact .branchEqual
  · exact .branchNotEqual
  · exact .branchLessThan (by decide)
  · exact .branchLessThan (by decide)
  · exact .branchGreaterOrEqual (by decide)
  · exact .branchGreaterOrEqual (by decide)
  · exact .jump

/-- In a list without repeated keys looking up a key finds its entry. -/
theorem lookup_eq_some_iff_mem {κ β : Type} [BEq κ] [LawfulBEq κ] {entries : List (κ × β)}
    (hdistinct : (entries.map Prod.fst).Nodup) {key : κ} {value : β} :
    entries.lookup key = some value ↔ (key, value) ∈ entries := by
  rw [List.lookup_eq_some_iff]
  constructor
  · rintro ⟨before, after, rfl, -⟩
    simp
  · intro hmem
    obtain ⟨before, after, rfl⟩ := List.append_of_mem hmem
    refine ⟨before, after, rfl, fun entry hentry => ?_⟩
    rw [List.map_append, List.map_cons, List.nodup_append] at hdistinct
    have hne := hdistinct.2.2 entry.1 (List.mem_map_of_mem hentry) key (List.mem_cons_self ..)
    simpa using Ne.symm hne

theorem isOneOf_iff {set text : List Char} : isOneOf set text = true ↔ ∃ c ∈ set, text = [c] := by
  unfold isOneOf
  split
  case h_1 c => simp
  case h_2 hlong =>
    simp only [Bool.false_eq_true, false_iff, not_exists, not_and]
    exact fun c _ hsame => hlong c hsame

theorem any_isPrefixOf?_iff {front text : List Char} {holds : List Char → Bool} :
    (front.isPrefixOf? text).any holds = true ↔ ∃ rest, text = front ++ rest ∧ holds rest = true := by
  rw [Option.any_eq_true]
  exact exists_congr fun rest => and_congr_left fun _ =>
    List.isPrefixOf?_eq_some_iff_append_eq.trans eq_comm

theorem mnemonic_of_isArithmetic {op : AluOp} (hfound : isArithmetic mnemonic op = true) :
    Mnemonic mnemonic (.arithmetic op) := by
  rcases (Bool.or_eq_true ..).mp hfound with hfront | hfront
  · obtain ⟨rest, rfl, hrest⟩ := any_isPrefixOf?_iff.mp hfront
    rcases (Bool.or_eq_true ..).mp hrest with hempty | hone
    · rw [List.isEmpty_iff.mp hempty, List.append_nil]
      exact .arithmetic (operator_stem op)
    · obtain ⟨width, hwidth, rfl⟩ := isOneOf_iff.mp hone
      exact .arithmeticWide (operator_stem op) hwidth
  · obtain ⟨rest, rfl, hrest⟩ := any_isPrefixOf?_iff.mp hfront
    obtain ⟨format, hformat, rfl⟩ := isOneOf_iff.mp hrest
    rw [List.append_assoc]
    exact .arithmeticFloating (operator_stem op) hformat

/-- A width is followed by nothing, or by the sign of an unsigned load. -/
theorem mnemonic_of_loadWidth {width : List Char}
    (hwidth : isOneOf widths ((['u'].isSuffixOf? width).getD width) = true) :
    Mnemonic ('l' :: width) .load := by
  obtain ⟨c, hc, hsame⟩ := isOneOf_iff.mp hwidth
  cases hend : ['u'].isSuffixOf? width with
  | none =>
      rw [hend, Option.getD_none] at hsame
      subst hsame
      exact .load hc
  | some front =>
      rw [hend, Option.getD_some] at hsame
      subst hsame
      rw [← List.append_eq_of_isSuffixOf?_eq_some hend]
      exact .loadUnsigned hc

theorem mnemonic_of_family? (hfound : family? mnemonic = some family) : Mnemonic mnemonic family := by
  unfold family? at hfound
  split at hfound
  case h_1 width hfront =>
    obtain ⟨hwidth, hsame⟩ := Option.ite_none_right_eq_some.mp hfound
    cases hsame
    rw [← List.append_eq_of_isPrefixOf?_eq_some hfront]
    obtain ⟨c, hc, rfl⟩ := isOneOf_iff.mp hwidth
    exact .loadFloating hc
  case h_2 =>
    split at hfound
    case isTrue hstore =>
      cases hfound
      obtain ⟨width, rfl, hwidth⟩ := any_isPrefixOf?_iff.mp hstore
      obtain ⟨c, hc, rfl⟩ := isOneOf_iff.mp hwidth
      exact .storeFloating hc
    split at hfound
    case h_1 other hother =>
      cases hfound
      exact mnemonic_of_mem_otherMnemonics ((lookup_eq_some_iff_mem (by decide)).mp hother)
    split at hfound
    case isTrue hload =>
      cases hfound
      obtain ⟨width, rfl, hwidth⟩ := any_isPrefixOf?_iff.mp hload
      exact mnemonic_of_loadWidth hwidth
    split at hfound
    case isTrue hstore =>
      cases hfound
      obtain ⟨width, rfl, hwidth⟩ := any_isPrefixOf?_iff.mp hstore
      obtain ⟨c, hc, rfl⟩ := isOneOf_iff.mp hwidth
      exact .store hc
    obtain ⟨op, hop, rfl⟩ := Option.map_eq_some_iff.mp hfound
    exact mnemonic_of_isArithmetic (List.find?_some hop)

/-- No mnemonic is lost behind a front that it shares with others. -/
theorem Mnemonic.family?_eq (hmnemonic : Mnemonic mnemonic family) : family? mnemonic = some family := by
  cases hmnemonic with
  | load hwidth | loadUnsigned hwidth | store hwidth | loadFloating hwidth | storeFloating hwidth =>
      fin_cases hwidth <;> decide
  | loadImmediate hname | arithmeticImmediate hname | branchLessThan hname | branchGreaterOrEqual hname =>
      fin_cases hname <;> decide
  | arithmetic hname => cases hname <;> decide
  | arithmeticWide hname hwidth => cases hname <;> fin_cases hwidth <;> decide
  | arithmeticFloating hname hformat => cases hname <;> fin_cases hformat <;> decide
  | branchEqual | branchNotEqual | jump => decide

theorem family?_eq_some_iff : family? mnemonic = some family ↔ Mnemonic mnemonic family :=
  ⟨mnemonic_of_family?, Mnemonic.family?_eq⟩

end Mnemonics

/-! ## Reading lines -/

theorem divides_iff {line front rest : List Char} :
    (Text.cutOnce ' ' line).getD (line, []) = (front, rest) ↔ Divides line front rest := by
  constructor
  · intro hcut
    cases hspace : Text.cutOnce ' ' line with
    | none =>
        rw [hspace, Option.getD_none] at hcut
        obtain ⟨rfl, rfl⟩ := Prod.mk.inj hcut
        exact .bare (Text.cutOnce_eq_none_iff.mp hspace)
    | some parts =>
        rw [hspace, Option.getD_some] at hcut
        subst hcut
        obtain ⟨rfl, hfront⟩ := Text.cutOnce_eq_some_iff.mp hspace
        exact .spaced rest hfront
  · intro hdivides
    cases hdivides with
    | spaced rest hfront => rw [Text.cutOnce_eq_some_iff.mpr ⟨rfl, hfront⟩, Option.getD_some]
    | bare hline => rw [Text.cutOnce_eq_none_iff.mpr hline, Option.getD_none]

/-- The operands decide what a line with a mnemonic says. -/
theorem statement?_of_divides {line mnemonic operands : List Char} {tokens : List (List Char)}
    {family : Family} (hline : Divides line mnemonic operands) (hmnemonic : Mnemonic mnemonic family)
    (htokens : Text.Pieces isDelimiter operands tokens) :
    statement? line =
      (operation? family tokens).map fun operation => ⟨String.ofList mnemonic, operation⟩ := by
  have hpieces : operandTokens operands = tokens := htokens.pieces_eq
  simp only [statement?, divides_iff.mpr hline, hpieces, family?_eq_some_iff.mpr hmnemonic,
    Option.bind_eq_bind, Option.bind_some, Option.pure_def, Option.map_eq_bind, Function.comp_def]

theorem says_of_statement? {line : List Char} {statement : Statement}
    (hread : statement? line = some statement) : Says line statement := by
  simp only [statement?, Option.bind_eq_bind, Option.bind_eq_some_iff, Option.pure_def,
    Option.some.injEq] at hread
  obtain ⟨family, hfamily, operation, hoperation, rfl⟩ := hread
  exact .intro (divides_iff.mp rfl) (family?_eq_some_iff.mp hfamily) rfl (Text.pieces_pieces _ _)
    (operation?_eq_some_iff.mp hoperation)

theorem Says.statement?_eq {line : List Char} {statement : Statement} (hsaid : Says line statement) :
    statement? line = some statement := by
  obtain ⟨hline, hmnemonic, hsame, htokens, hoperands⟩ := hsaid
  rw [statement?_of_divides hline hmnemonic htokens, operation?_eq_some_iff.mpr hoperands,
    Option.map_some, ← hsame]

/-- Reading accepts exactly the lines that the grammar derives, and gives what they say. -/
theorem statement?_eq_some_iff (line : List Char) (statement : Statement) :
    statement? line = some statement ↔ Says line statement :=
  ⟨says_of_statement?, Says.statement?_eq⟩

end Tomasulo.Assembly
