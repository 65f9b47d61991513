import Tomasulo.Instruction

/-!
# Mnemonics

A mnemonic names a family of instructions.  Loads and stores put the width of their operand behind
a stem, arithmetic puts a width or a format behind an operation, and a few words are mnemonics of
their own.  The family is found by taking a mnemonic apart from the front.  The fronts overlap, so
their order matters: what begins with `fl` is a load or nothing, and what does not go on as it should
behind another front is tried on the next one.
-/

namespace Tomasulo.Assembly

/-- Families of instructions that share the shape of their operands. -/
inductive Family where
  | load
  | loadImmediate
  | store
  | arithmetic (op : AluOp)
  | arithmeticImmediate (op : AluOp)
  | branch (comparison : Comparison)
  | jump
deriving DecidableEq

/-- Stem of the mnemonics of an arithmetic operation. -/
def stem : AluOp → List Char
  | .add => ['a', 'd', 'd']
  | .sub => ['s', 'u', 'b']
  | .mul => ['m', 'u', 'l']
  | .div => ['d', 'i', 'v']

/-- Widths of integer loads and stores. -/
def widths : List Char :=
  ['b', 'h', 'w', 'd', 'q']

/-- Widths of floating-point loads and stores. -/
def floatingWidths : List Char :=
  ['w', 'd', 'q']

/-- Formats of floating-point arithmetic. -/
def floatingFormats : List Char :=
  ['s', 'd', 'q']

/-- The mnemonics that are words of their own: constants, branches and the jump. -/
def otherMnemonics : List (List Char × Family) :=
  [(['l', 'i'], .loadImmediate), (['l', 'i', 'u'], .loadImmediate),
    (['a', 'd', 'd', 'i'], .arithmeticImmediate .add),
    (['a', 'd', 'd', 'i', 'w'], .arithmeticImmediate .add),
    (['a', 'd', 'd', 'i', 'd'], .arithmeticImmediate .add),
    (['b', 'e', 'q'], .branch .equal), (['b', 'n', 'e'], .branch .notEqual),
    (['b', 'l', 't'], .branch .lessThan), (['b', 'l', 't', 'u'], .branch .lessThan),
    (['b', 'g', 'e'], .branch .greaterOrEqual), (['b', 'g', 'e', 'u'], .branch .greaterOrEqual),
    (['j'], .jump)]

/-- Whether a text is one character of a set. -/
def isOneOf (set text : List Char) : Bool :=
  match text with
  | [c] => set.contains c
  | _ => false

/-- Whether a mnemonic is that of an operation, alone or with a width behind it, or of its
floating-point form with a format behind a point. -/
def isArithmetic (mnemonic : List Char) (op : AluOp) : Bool :=
  ((stem op).isPrefixOf? mnemonic).any (fun width => width.isEmpty || isOneOf ['w', 'd'] width) ||
    (('f' :: stem op ++ ['.']).isPrefixOf? mnemonic).any (isOneOf floatingFormats)

/-- The family of a mnemonic. -/
def family? (mnemonic : List Char) : Option Family :=
  match ['f', 'l'].isPrefixOf? mnemonic with
  | some width => if isOneOf floatingWidths width then some .load else none
  | none =>
      if (['f', 's'].isPrefixOf? mnemonic).any (isOneOf floatingWidths) then some .store
      else if let some family := otherMnemonics.lookup mnemonic then some family
      -- An integer load may be unsigned.
      else if (['l'].isPrefixOf? mnemonic).any fun width =>
          isOneOf widths ((['u'].isSuffixOf? width).getD width) then some .load
      else if (['s'].isPrefixOf? mnemonic).any (isOneOf widths) then some .store
      else ([AluOp.add, .sub, .mul, .div].find? (isArithmetic mnemonic)).map .arithmetic

end Tomasulo.Assembly
