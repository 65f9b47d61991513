import Tomasulo.Machine.State

/-!
# Dumps

The text of a state: its cycle, the instructions ahead, and the contents of registers, stations and
memory, one to a line.
-/

namespace Tomasulo

/-- The columns of a station: in use, mnemonic, the operands as values, the stations that operands
wait for, address. -/
def Station.summary (pool : Pool) (station : Station) : String :=
  let columns := match station.slot with
    | none => ["no", "-", "-", "-", "-", "-", "-"]
    | some slot =>
        let value (operand : Operand) : String := Value.shortOrDash operand.value?
        let source : Operand → String
          | .waiting id => pool.name id
          | _ => "-"
        let address := (slot.address.map Address.text).getD "-"
        ["yes", slot.mnemonic, value slot.j, value slot.k, source slot.j, source slot.k, address]
  "\t".intercalate columns

/-- The content of a register in dumps, with stations by name. -/
def Register.dump (pool : Pool) (register : Register) : String :=
  match register.producer? with
  | some id => s!"[{pool.name id}]"
  | none => register.text

namespace State

/-- The lines of a dump. -/
def dumpLines (listing : Listing) (window : Option Nat) (state : State) : List String :=
  let ahead := state.cursor.lookahead listing window
  let instructions := (ahead.visible ++ ahead.remaining).filterMap listing.instruction?
  let pool := state.stations
  [s!"Cycle: {state.cycle}", "Instruction queue:"] ++
    instructions.map (fun instruction => s!"    {instruction.codeOrder}: {instruction.line}") ++
    ["Registers:"] ++
    state.registers.entries.map (fun entry => s!"    {entry.1} = {entry.2.dump pool}") ++
    ["Reservation stations:", "         \tBusy\tOp\tVj\tVk\tQj\tQk\tA"] ++
    pool.map (fun station => s!"    {station.name}:\t{station.summary pool}") ++
    ["Memory:"] ++
    state.memory.entries.map fun entry => s!"    {entry.1} = {Value.shortOrDash entry.2}"

/-- The text of a state; every line ends in a line break. -/
def dump (listing : Listing) (window : Option Nat) (state : State) : String :=
  String.join ((state.dumpLines listing window).map (· ++ "\n"))

end State

end Tomasulo
