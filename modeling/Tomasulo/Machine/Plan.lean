import Tomasulo.Machine.State
import Tomasulo.Station.Hazard

/-!
# The plan of a cycle

What a machine does in a cycle is decided on the state at its beginning, before anything is done, so
no task enables another one of the same cycle: a result is published one cycle after it is computed,
and a station that becomes free is used again one cycle later.  The tasks of a plan stand in the
order in which they are carried out.
-/

namespace Tomasulo

/-- One thing that a machine sets out to do. -/
inductive Task where
  /-- Puts the next instruction into a station. -/
  | issue (instruction : Instruction) (station : Nat)
  /-- Resolves the next instruction as a branch on two values. -/
  | branch (instruction : Instruction) (comparison : Comparison) (lhs rhs : Float)
      (target : String)
  /-- Takes the next instruction as a jump. -/
  | jump (instruction : Instruction) (target : String)
  /-- Works on the arithmetic of a station. -/
  | compute (station : Nat)
  /-- Computes the address of a load or store. -/
  | locate (station : Nat)
  /-- Works on the memory access of a load. -/
  | load (station : Nat)
  /-- Publishes the result of a station. -/
  | publish (station : Nat)
  /-- Works on the memory access of a store. -/
  | commit (station : Nat)

/-- What becomes of the next instruction. -/
inductive Fetch where
  /-- There is none. -/
  | exhausted
  /-- It has to wait for a station or for the values that it compares. -/
  | stall
  | act (task : Task)

/-- The decisions of one cycle, phase by phase; within a phase older instructions come first. -/
structure Plan where
  fetch : Fetch
  computes : List Nat
  /-- At most one address is computed in a cycle. -/
  locates : Option Nat
  loads : List Nat
  /-- At most one result is published in a cycle. -/
  publishes : Option Nat
  commits : List Nat

namespace Occupied

/-- Whether arithmetic goes on: both operands are there and work is left. -/
def computes (entry : Occupied) : Bool :=
  match entry.slot.op with
  | .alu _ =>
      entry.slot.j.isReady && entry.slot.k.isReady && 0 < entry.slot.step &&
        entry.slot.step ≤ entry.station.delay
  | _ => false

/-- Whether a load or store could compute its address: it has not begun and its base is there. -/
def locates (entry : Occupied) : Bool :=
  (entry.slot.isLoad || entry.slot.isStore) && entry.slot.step == entry.station.delay &&
    entry.slot.effective?.isNone && entry.slot.j.isReady

/-- Whether a load goes on with reading: its address is there, its value is not, and no older store
to its cell is in the way. -/
def loads (pool : Pool) (entry : Occupied) : Bool :=
  entry.slot.isLoad && entry.slot.effective?.isSome && entry.slot.step < entry.station.delay &&
    entry.slot.result.isNone && !pool.loadBlocked entry.id

/-- Whether a store goes on with writing: address and value are there, and no older access to its
cell is in the way. -/
def commits (pool : Pool) (entry : Occupied) : Bool :=
  entry.slot.isStore && entry.slot.effective?.isSome && entry.slot.step < entry.station.delay &&
    entry.slot.k.isReady && !pool.storeBlocked entry.id

/-- Whether a result waits to be published. -/
def publishes (entry : Occupied) : Bool :=
  !entry.slot.isStore && entry.slot.step == 0 && entry.slot.result.isSome

end Occupied

namespace State

/-- Decides what becomes of the next instruction. -/
def fetch (listing : Listing) (state : State) : Fetch :=
  match state.cursor.next? listing with
  | none => .exhausted
  | some instruction =>
      match instruction.operation with
      | .jump target => .act (.jump instruction target)
      | .branch comparison lhs rhs target =>
          match (state.registers.get lhs).value?, (state.registers.get rhs).value? with
          | some a, some b => .act (.branch instruction comparison a b target)
          | _, _ => .stall
      | _ =>
          match state.stations.freeFor? instruction.opClass with
          | some station => .act (.issue instruction station)
          | none => .stall

/-- Decides what happens in a cycle. -/
def plan (listing : Listing) (state : State) : Plan :=
  let pool := state.stations
  { fetch := state.fetch listing
    computes := pool.byAge Occupied.computes
    locates := (pool.byAge Occupied.locates).head?
    loads := pool.byAge (Occupied.loads pool)
    publishes := (pool.byAge Occupied.publishes).head?
    commits := pool.byAge (Occupied.commits pool) }

end State

namespace Plan

/-- Whether the next instruction has to wait. -/
def isStalled (plan : Plan) : Bool :=
  match plan.fetch with
  | .stall => true
  | _ => false

/-- The task of the fetch slot. -/
def fetchTask? (plan : Plan) : Option Task :=
  match plan.fetch with
  | .act task => some task
  | _ => none

/-- The tasks of a cycle, in the order in which they are carried out. -/
def tasks (plan : Plan) : List Task :=
  plan.fetchTask?.toList ++ plan.computes.map .compute ++ plan.locates.toList.map .locate ++
    plan.loads.map .load ++ plan.publishes.toList.map .publish ++ plan.commits.map .commit

end Plan

end Tomasulo
