import Tomasulo.Machine.State

/-!
# Events

Everything a machine does in a cycle is a sequence of events, each by one instruction.  An event
carries what its narration mentions; the narration marks kinds of events `**so**`, stations and
labels `//so//`, and code with backquotes.
-/

namespace Tomasulo

/-- What an instruction finds in a source register at issue. -/
inductive Reading where
  | value (value : Float)
  | awaits (station : String)
  | nothing

/-- One thing that happens in a cycle.  Stations are given by name, instructions by code order where
their text is not needed. -/
inductive Event where
  | issued (instruction : Instruction) (station : String) (readings : List (String × Reading))
  | branched (instruction : Instruction) (comparison : Comparison) (lhs rhs : Float)
      (target : String)
  | jumped (instruction : Instruction) (target : String)
  | worked (station : String) (codeOrder left : Nat)
  | computed (station : String) (codeOrder : Nat) (op : AluOp) (lhs rhs result : Float)
  | located (station : String) (codeOrder : Nat) (baseValue : Float) (offset address : Int)
  | accessed (station : String) (codeOrder left : Nat)
  | loaded (station : String) (codeOrder : Nat) (value : Float) (address : Int)
  | published (station : String) (codeOrder : Nat) (value : Float) (registers stations : List String)
  | storing (station : String) (codeOrder left : Nat)
  | stored (station : String) (codeOrder : Nat) (value : Float) (address : Int)

/-- How a branch or jump continued. -/
inductive Control where
  | taken
  | notTaken
  | jump
deriving DecidableEq

namespace Event

/-- The instruction that acted. -/
def codeOrder : Event → Nat
  | issued instruction .. | branched instruction .. | jumped instruction _ => instruction.codeOrder
  | worked _ codeOrder _ | computed _ codeOrder .. | located _ codeOrder .. | accessed _ codeOrder _
  | loaded _ codeOrder .. | published _ codeOrder .. | storing _ codeOrder _
  | stored _ codeOrder .. => codeOrder

/-- What the instruction did. -/
def action : Event → Action
  | issued .. => .issue
  | branched .. => .branch
  | jumped .. => .jump
  | worked .. | computed .. | located .. | accessed .. | loaded .. => .exec
  | published .. | storing .. | stored .. => .write

/-- How fetching continued, if the event decided that. -/
def control? : Event → Option Control
  | branched _ comparison lhs rhs _ => some (if comparison.holds lhs rhs then .taken else .notTaken)
  | jumped .. => some .jump
  | _ => none

/-- Whether an instruction entered a station. -/
def isIssue : Event → Bool
  | issued .. => true
  | _ => false

/-- Whether a result was published. -/
def isBroadcast : Event → Bool
  | published .. => true
  | _ => false

/-- Whether a store wrote memory. -/
def isCommit : Event → Bool
  | stored .. => true
  | _ => false

/-- What the narration of an issue says about a source register. -/
def readingText (name : String) : Reading → String
  | .value value => s!"`{name}` is ready with {Value.short value}"
  | .awaits station => s!"`{name}` waits on //{station}//"
  | .nothing => s!"`{name}` has no value yet"

/-- The sentence that tells an event. -/
def narration : Event → String
  | issued instruction station readings =>
      let sources := readings.map fun entry => readingText entry.1 entry.2
      let dests := instruction.operation.dest?.toList.map fun name =>
        s!"`{name}` now waits on //{station}//"
      let details := sources ++ dests
      let head :=
        s!"**Issue**: `{instruction.line}` (instruction {instruction.codeOrder}) enters //{station}//."
      if details.isEmpty then head else head ++ " " ++ "; ".intercalate details ++ "."
  | branched instruction comparison lhs rhs target =>
      let compared := s!"{Value.short lhs} {comparison.symbol} {Value.short rhs}"
      let outcome :=
        if comparison.holds lhs rhs then s!"holds; fetch continues at //{target}//."
        else "does not hold; fetch falls through."
      s!"**Branch**: `{instruction.line}` (instruction {instruction.codeOrder}) compares {compared}, " ++
        "which " ++ outcome
  | jumped instruction target =>
      s!"**Jump**: `{instruction.line}` (instruction {instruction.codeOrder}) continues fetching at " ++
        s!"//{target}//."
  | worked station codeOrder left =>
      s!"**Execute**: //{station}// works on instruction {codeOrder}, {left} cycle(s) left."
  | computed station codeOrder op lhs rhs result =>
      s!"**Execute**: //{station}// finishes instruction {codeOrder}: " ++
        s!"{Value.short lhs} {op.symbol} {Value.short rhs} = {Value.short result}."
  | located station codeOrder baseValue offset address =>
      s!"**Execute**: //{station}// computes the effective address of instruction {codeOrder}: " ++
        s!"{Value.short baseValue} + {offset} = `{address}`."
  | accessed station codeOrder left =>
      s!"**Execute**: //{station}// accesses memory for instruction {codeOrder}, " ++
        s!"{left} cycle(s) left."
  | loaded station codeOrder value address =>
      s!"**Execute**: //{station}// reads {Value.short value} from address `{address}` " ++
        s!"for instruction {codeOrder}."
  | published station codeOrder value registers stations =>
      let head :=
        s!"**Write**: //{station}// broadcasts {Value.short value} for instruction {codeOrder} " ++
          "on the CDB."
      let updated :=
        if registers.isEmpty then ""
        else
          " Registers updated: " ++
            ", ".intercalate (registers.map fun name => s!"`{name}`") ++ "."
      let resolved :=
        if stations.isEmpty then ""
        else
          " Operands resolved in: " ++
            ", ".intercalate (stations.map fun name => s!"//{name}//") ++ "."
      head ++ updated ++ resolved
  | storing station codeOrder left =>
      s!"**Write**: //{station}// is writing memory for instruction {codeOrder}, " ++
        s!"{left} cycle(s) left."
  | stored station codeOrder value address =>
      s!"**Write**: //{station}// stores {Value.short value} at address `{address}` " ++
        s!"for instruction {codeOrder}."

end Event

end Tomasulo
