import Tomasulo.Json.Writer
import Tomasulo.Listing

/-!
# Listings as JSON

An operation is an object whose member `form` names its shape, followed by its operands.
-/

namespace Tomasulo

/-- The name of an arithmetic operation in documents. -/
def AluOp.label : AluOp → String
  | .add => "add"
  | .sub => "sub"
  | .mul => "mul"
  | .div => "div"

/-- The name of a comparison in documents. -/
def Comparison.label : Comparison → String
  | .equal => "equal"
  | .notEqual => "not_equal"
  | .lessThan => "less_than"
  | .greaterOrEqual => "greater_or_equal"

/-- The object of an operation. -/
def Operation.document (operation : Operation) : Json :=
  let named (form : String) (operands : List (String × Json)) : Json :=
    .ofFields (("form", .ofString form) :: operands)
  let text := Json.ofString
  match operation with
  | .load dest base offset =>
      named "load" [("dest", text dest), ("base", text base), ("offset", .ofInt offset)]
  | .loadImmediate dest value =>
      named "immediate_load" [("dest", text dest), ("imm", .ofInt value)]
  | .store source base offset =>
      named "store" [("src", text source), ("base", text base), ("offset", .ofInt offset)]
  | .arithmetic op dest lhs rhs =>
      named "arithmetic"
        [("op", text op.label), ("dest", text dest), ("lhs", text lhs), ("rhs", text rhs)]
  | .arithmeticImmediate op dest lhs value =>
      named "immediate_arithmetic"
        [("op", text op.label), ("dest", text dest), ("lhs", text lhs), ("imm", .ofInt value)]
  | .branch comparison lhs rhs target =>
      named "branch"
        [("cond", text comparison.label), ("lhs", text lhs), ("rhs", text rhs),
          ("target", text target)]
  | .jump target => named "jump" [("target", text target)]

/-- The object of an instruction. -/
def Instruction.document (instruction : Instruction) : Json :=
  .ofFields
    [("line", .ofString instruction.line), ("mnemonic", .ofString instruction.mnemonic),
      ("code_order", .ofNat instruction.codeOrder), ("kind", instruction.operation.document)]

/-- The members of the sections by name. -/
def Listing.sectionTable (listing : Listing) : OrderedMap String (List Nat) compare :=
  .ofList (listing.sections.map fun part => (part.name, part.members))

/-- The object of a listing; sections and initial values are members in the order of their names. -/
def Listing.document (listing : Listing) : Json :=
  .ofFields
    [("instructions", .ofList Instruction.document listing.instructions),
      ("sections",
        .ofFields (listing.sectionTable.entries.map fun entry => (entry.1, .ofList .ofNat entry.2))),
      ("section_order", .ofList (fun part => .ofString part.name) listing.sections),
      ("initial_values",
        .ofFields (listing.initialValues.entries.map fun entry =>
          (entry.1, Json.ofFloat entry.2)))]

end Tomasulo
