import Tomasulo.Cursor
import Tomasulo.Memory
import Tomasulo.Station.Pool

/-!
# Machine states

A state is what a machine holds between two cycles: the fetch cursor, registers, stations and memory,
with what each instruction did during the last cycle.  The listing is not part of it.
-/

namespace Tomasulo

/-- What an instruction does in a cycle. -/
inductive Action where
  /-- Enters a station. -/
  | issue
  /-- Advances its functional unit. -/
  | exec
  /-- Publishes its result, or writes memory. -/
  | write
  /-- Is resolved as a branch. -/
  | branch
  /-- Is taken as a jump. -/
  | jump
deriving DecidableEq

/-- The name of an action. -/
def Action.label : Action → String
  | issue => "Issue"
  | exec => "Exec"
  | write => "Write"
  | branch => "Branch"
  | jump => "Jump"

/-- A machine between two cycles. -/
structure State where
  /-- The cycle that led here; zero at the start. -/
  cycle : Nat
  cursor : Cursor
  registers : RegisterFile
  stations : Pool
  memory : Memory
  /-- What each instruction did last in this cycle, by code order. -/
  actions : List (Option Action)
deriving BEq

namespace State

/-- The state before the first cycle. -/
def initial (listing : Listing) (registers : RegisterFile) (memory : Memory) (banks : Banks) :
    State :=
  { cycle := 0
    cursor := Cursor.start listing
    registers
    stations := Pool.ofBanks banks
    memory
    actions := List.replicate listing.instructions.length none }

/-- Whether nothing is left to fetch and every station is free. -/
def isIdle (listing : Listing) (state : State) : Bool :=
  state.cursor.isExhausted listing && !state.stations.anyBusy

/-- Notes what an instruction did; a code order that no instruction has is passed over. -/
def note (state : State) (codeOrder : Nat) (action : Action) : State :=
  { state with actions := state.actions.set codeOrder (some action) }

/-- The state at the beginning of the next cycle: nobody has acted yet. -/
def tick (state : State) : State :=
  { state with
    cycle := state.cycle + 1
    actions := state.actions.map fun _ => none
    stations := state.stations.rest }

end State

end Tomasulo
