import Tomasulo.Instruction

/-!
# Instructions in words

One English sentence for each instruction, for readers who do not know the mnemonics.
-/

namespace Tomasulo

/-- What an arithmetic instruction does. -/
def AluOp.verb : AluOp → String
  | .add => "Adds"
  | .sub => "Subtracts"
  | .mul => "Multiplies"
  | .div => "Divides"

/-- How the left operand of a branch has to compare with the right one. -/
def Comparison.phrase : Comparison → String
  | .equal => "is equal to"
  | .notEqual => "differs from"
  | .lessThan => "is less than"
  | .greaterOrEqual => "is greater than or equal to"

/-- The sentence that describes an operation. -/
def Operation.description : Operation → String
  | .load dest base offset =>
      s!"Loads from the address in {base}, with offset {offset}, into register {dest}."
  | .loadImmediate dest value =>
      s!"Loads the immediate value {value} into register {dest}."
  | .store source base offset =>
      s!"Stores the value in {source} to the address in {base}, with offset {offset}."
  | .arithmetic op dest lhs rhs =>
      s!"{op.verb} the value in {lhs} with the value in {rhs}, and stores the result in {dest}."
  | .arithmeticImmediate op dest lhs value =>
      s!"{op.verb} the value in {lhs} with the value {value}, and stores the result in {dest}."
  | .branch comparison lhs rhs target =>
      s!"Jumps to {target} if the value in {lhs} {comparison.phrase} the value in {rhs}."
  | .jump target => s!"Jumps to {target}."

end Tomasulo
