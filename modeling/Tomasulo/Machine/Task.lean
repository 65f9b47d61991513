import Tomasulo.Machine.Event
import Tomasulo.Machine.Plan
import Tomasulo.Sample

/-!
# Carrying out tasks

Each task turns a state into the next one and tells what happened.  A task whose station does not
hold what it needs does nothing.
-/

namespace Tomasulo

/-- The operands of an instruction as the registers stand, with its address; branches and jumps have
none. -/
def Slot.capture? (registers : RegisterFile) (instruction : Instruction) (seq delay : Nat) :
    Option Slot :=
  let operand (name : String) : Operand := .ofRegister (registers.get name)
  let constant (value : Int) : Operand := .ready (Float.ofInt value)
  let slot (op : StationOp) (j k : Operand) (address : Option Address) : Slot :=
    { mnemonic := instruction.mnemonic
      codeOrder := instruction.codeOrder
      seq, op, j, k, address
      step := delay
      result := none }
  match instruction.operation with
  | .load _ base offset => some (slot .load (operand base) .empty (some (.symbolic base offset)))
  | .store source base offset =>
      some (slot .store (operand base) (operand source) (some (.symbolic base offset)))
  | .loadImmediate _ value => some (slot (.alu .add) (constant value) (constant 0) none)
  | .arithmetic op _ lhs rhs => some (slot (.alu op) (operand lhs) (operand rhs) none)
  | .arithmeticImmediate op _ lhs value =>
      some (slot (.alu op) (operand lhs) (constant value) none)
  | .branch .. | .jump .. => none

namespace State

/-- What an instruction finds in a register. -/
def reading (state : State) (name : String) : Reading :=
  match state.registers.get name with
  | .ready value => .value value
  | .pending station => .awaits (state.stations.name station)
  | .empty => .nothing

/-- Puts the next instruction into a station; the register that it writes waits for the station. -/
def issue (listing : Listing) (instruction : Instruction) (id : Nat) (state : State) :
    Option (Event × State) := do
  let station ← state.stations[id]?
  let slot ←
    Slot.capture? state.registers instruction state.cursor.fetched station.delay
  let readings := instruction.operation.sources.map fun name => (name, state.reading name)
  let registers := match instruction.operation.dest? with
    | some name => state.registers.await name id
    | none => state.registers
  return (.issued instruction station.name readings,
    { state with
      registers
      stations := state.stations.put id slot
      cursor := state.cursor.advance listing none })

/-- Resolves a branch. -/
def branch (listing : Listing) (instruction : Instruction) (comparison : Comparison)
    (lhs rhs : Float) (target : String) (state : State) : Event × State :=
  let label := if comparison.holds lhs rhs then some target else none
  (.branched instruction comparison lhs rhs target,
    { state with cursor := state.cursor.advance listing label })

/-- Takes a jump. -/
def jump (listing : Listing) (instruction : Instruction) (target : String) (state : State) :
    Event × State :=
  (.jumped instruction target, { state with cursor := state.cursor.advance listing (some target) })

/-- Works on arithmetic; the last step gives the result. -/
def compute (id : Nat) (state : State) : Option (Event × State) := do
  let station ← state.stations[id]?
  let slot ← station.slot
  let left := slot.step - 1
  let working (slot : Slot) : State := { state with stations := state.stations.work id slot }
  match slot.op, slot.j, slot.k with
  | .alu op, .ready lhs, .ready rhs =>
      if left = 0 then
        let result := op.apply lhs rhs
        return (.computed station.name slot.codeOrder op lhs rhs result,
          working { slot with step := left, result := some result })
      else
        return (.worked station.name slot.codeOrder left, working { slot with step := left })
  -- No plan asks for this.
  | _, _, _ => return (.worked station.name slot.codeOrder left, working { slot with step := left })

/-- The value that a load finds in a cell that holds none. -/
def sampleFor (listing : Listing) (codeOrder : Nat) : Float :=
  match listing.instruction? codeOrder with
  | none => 0
  | some instruction =>
      match instruction.operation with
      | .load dest .. => Sample.value dest instruction.mnemonic .load
      | _ => 0

/-- Gives a load its value, filling the cell if it holds none. -/
def finishLoad (listing : Listing) (id : Nat) (slot : Slot) (address : Int) (state : State) :
    Float × State :=
  let sample := sampleFor listing slot.codeOrder
  let value := state.memory.readOr address sample
  (value,
    { state with
      memory := state.memory.fill address sample
      stations := state.stations.put id { slot with result := some value } })

/-- Computes an address.  A load that takes a single step reads its cell at once, unless an older
store to it is in the way. -/
def locate (listing : Listing) (id : Nat) (state : State) : Option (Event × State) := do
  let station ← state.stations[id]?
  let slot ← station.slot
  match slot.j, slot.address with
  | .ready baseValue, some (.symbolic base offset) =>
      let address := effectiveAddress baseValue offset
      let slot : Slot :=
        { slot with
          address := some (.effective address base baseValue offset)
          step := slot.step - 1 }
      let located : State := { state with stations := state.stations.work id slot }
      -- The guard is asked again, because the address is known only now.
      let done :=
        if slot.step = 0 && slot.isLoad && !located.stations.loadBlocked id then
          (located.finishLoad listing id slot address).2
        else located
      return (.located station.name slot.codeOrder baseValue offset address, done)
  | _, _ => none

/-- Works on the memory access of a load; the last step reads the cell. -/
def load (listing : Listing) (id : Nat) (state : State) : Option (Event × State) := do
  let station ← state.stations[id]?
  let slot ← station.slot
  let address ← slot.effective?
  let slot : Slot := { slot with step := slot.step - 1 }
  let working : State := { state with stations := state.stations.work id slot }
  if slot.step = 0 then
    let (value, done) := working.finishLoad listing id slot address
    return (.loaded station.name slot.codeOrder value address, done)
  else
    return (.accessed station.name slot.codeOrder slot.step, working)

/-- Publishes a result to registers and operands and frees the station. -/
def publish (id : Nat) (state : State) : Option (Event × State) := do
  let station ← state.stations[id]?
  let slot ← station.slot
  let value ← slot.result
  return (.published station.name slot.codeOrder value (state.registers.awaiting id)
      (state.stations.awaiting id),
    { state with
      registers := state.registers.receive id value
      stations := (state.stations.receive id value).release id })

/-- Works on the memory access of a store; the last step writes the cell and frees the station. -/
def commit (id : Nat) (state : State) : Option (Event × State) := do
  let station ← state.stations[id]?
  let slot ← station.slot
  let address ← slot.effective?
  let value ← slot.k.value?
  let slot : Slot := { slot with step := slot.step - 1 }
  let stations := state.stations.work id slot
  if slot.step = 0 then
    return (.stored station.name slot.codeOrder value address,
      { state with memory := state.memory.write address value, stations := stations.release id })
  else
    return (.storing station.name slot.codeOrder slot.step, { state with stations })

end State

/-- Carries out a task. -/
def Task.perform (listing : Listing) (task : Task) (state : State) : Option (Event × State) :=
  match task with
  | .issue instruction id => state.issue listing instruction id
  | .branch instruction comparison lhs rhs target =>
      some (state.branch listing instruction comparison lhs rhs target)
  | .jump instruction target => some (state.jump listing instruction target)
  | .compute id => state.compute id
  | .locate id => state.locate listing id
  | .load id => state.load listing id
  | .publish id => state.publish id
  | .commit id => state.commit id

end Tomasulo
