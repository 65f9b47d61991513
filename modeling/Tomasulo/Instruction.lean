/-!
# Instructions

A small RISC-V-like instruction set over named registers.  Registers stay names throughout: nothing
is encoded, and any word that a program uses as a register is one.  Every register holds a double.
-/

namespace Tomasulo

/-- What an adder or a multiplier computes. -/
inductive AluOp where
  | add
  | sub
  | mul
  | div
deriving DecidableEq

/-- What a conditional branch compares. -/
inductive Comparison where
  | equal
  | notEqual
  | lessThan
  | greaterOrEqual
deriving DecidableEq

/-- Classes of instructions, by which reservation stations choose what they hold. -/
inductive OpClass where
  | load
  | store
  | add
  | subtract
  | multiply
  | divide
  | branch
deriving DecidableEq

/-- What an instruction does, one form for each shape of its operands. -/
inductive Operation where
  /-- Reads the cell at `base + offset` into `dest`. -/
  | load (dest base : String) (offset : Int)
  /-- Sets `dest` to a constant. -/
  | loadImmediate (dest : String) (value : Int)
  /-- Writes `source` to the cell at `base + offset`. -/
  | store (source base : String) (offset : Int)
  /-- Sets `dest` to a combination of two registers. -/
  | arithmetic (op : AluOp) (dest lhs rhs : String)
  /-- Sets `dest` to a combination of a register and a constant. -/
  | arithmeticImmediate (op : AluOp) (dest lhs : String) (value : Int)
  /-- Continues at `target` if the comparison of two registers holds. -/
  | branch (comparison : Comparison) (lhs rhs target : String)
  /-- Continues at `target`. -/
  | jump (target : String)
deriving DecidableEq

/-- An instruction of a program. -/
structure Instruction where
  /-- Normalised text of the instruction, without its label. -/
  line : String
  mnemonic : String
  /-- Position among the instructions of the program. -/
  codeOrder : Nat
  operation : Operation
deriving DecidableEq

namespace OpClass

/-- Loads and stores go through memory. -/
def isMemory : OpClass → Bool
  | load | store => true
  | _ => false

end OpClass

namespace AluOp

/-- The result on two values; dividing by zero gives an infinity or not-a-number. -/
def apply : AluOp → Float → Float → Float
  | add, a, b => a + b
  | sub, a, b => a - b
  | mul, a, b => a * b
  | div, a, b => a / b

/-- The class of an instruction that computes this. -/
def opClass : AluOp → OpClass
  | add => .add
  | sub => .subtract
  | mul => .multiply
  | div => .divide

/-- The sign written between the operands. -/
def symbol : AluOp → String
  | add => "+"
  | sub => "-"
  | mul => "*"
  | div => "/"

end AluOp

namespace Comparison

/-- Whether two values compare so; not-a-number only differs. -/
def holds : Comparison → Float → Float → Bool
  | equal, a, b => a == b
  | notEqual, a, b => a != b
  | lessThan, a, b => a < b
  | greaterOrEqual, a, b => b ≤ a

/-- The sign written between the operands. -/
def symbol : Comparison → String
  | equal => "=="
  | notEqual => "!="
  | lessThan => "<"
  | greaterOrEqual => ">="

end Comparison

namespace Operation

/-- Setting a register to a constant runs on an adder, as the constant plus zero. -/
def opClass : Operation → OpClass
  | load .. => .load
  | loadImmediate .. => .add
  | store .. => .store
  | arithmetic op .. => op.opClass
  | arithmeticImmediate op .. => op.opClass
  | branch .. | jump .. => .branch

/-- Branches and jumps are resolved at fetch and never enter a station. -/
def isControl : Operation → Bool
  | branch .. | jump .. => true
  | _ => false

/-- The registers read, in the order in which they are looked up. -/
def operands : Operation → List String
  | load _ base _ => [base]
  | store source base _ => [source, base]
  | arithmetic _ _ lhs rhs | branch _ lhs rhs _ => [lhs, rhs]
  | arithmeticImmediate _ _ lhs _ => [lhs]
  | loadImmediate .. | jump .. => []

/-- The registers read, each once. -/
def sources (operation : Operation) : List String :=
  operation.operands.eraseDups

/-- The register written, if there is one. -/
def dest? : Operation → Option String
  | load dest .. | loadImmediate dest _ | arithmetic _ dest .. | arithmeticImmediate _ dest .. =>
      some dest
  | store .. | branch .. | jump .. => none

/-- Base register and offset of a memory access. -/
def place? : Operation → Option (String × Int)
  | load _ base offset | store _ base offset => some (base, offset)
  | _ => none

/-- The label at which fetch may continue. -/
def target? : Operation → Option String
  | branch _ _ _ target | jump target => some target
  | _ => none

end Operation

namespace Instruction

/-- The class of the instruction's operation. -/
def opClass (instruction : Instruction) : OpClass :=
  instruction.operation.opClass

/-- Whether the instruction is a branch or a jump. -/
def isControl (instruction : Instruction) : Bool :=
  instruction.operation.isControl

end Instruction

end Tomasulo
