import Tomasulo.Configuration
import Tomasulo.Decimal.Magnitude
import Tomasulo.Register

/-!
# Reservation stations

A station holds one instruction between issue and completion, with its operands as values or as the
numbers of the stations that will publish them.  A countdown from the delay of the station to zero
measures the work left; loads and stores spend their first step on the address.
-/

namespace Tomasulo

/-- A source operand of an instruction in a station. -/
inductive Operand where
  /-- Unused, or read from a register that never had a value. -/
  | empty
  | ready (value : Float)
  | waiting (station : Nat)
deriving BEq

namespace Operand

/-- The operand that a register gives at issue. -/
def ofRegister : Register → Operand
  | .empty => empty
  | .ready value => ready value
  | .pending station => waiting station

/-- The value, if it is there. -/
def value? : Operand → Option Float
  | ready value => some value
  | _ => none

/-- Whether the value is there. -/
def isReady : Operand → Bool
  | ready _ => true
  | _ => false

/-- Whether the operand waits for a station. -/
def waitsFor (producer : Nat) : Operand → Bool
  | waiting station => station == producer
  | _ => false

/-- The operand after a station has published a value. -/
def receive (producer : Nat) (value : Float) (operand : Operand) : Operand :=
  if operand.waitsFor producer then ready value else operand

end Operand

/-- The address of a load or store. -/
inductive Address where
  /-- Not computed yet. -/
  | symbolic (base : String) (offset : Int)
  /-- Computed from the value of the base register. -/
  | effective (address : Int) (base : String) (baseValue : Float) (offset : Int)
deriving BEq

/-- The address at an offset from a base value. -/
def effectiveAddress (baseValue : Float) (offset : Int) : Int :=
  Decimal.truncate (baseValue + Float.ofInt offset)

namespace Address

/-- The computed address. -/
def effective? : Address → Option Int
  | effective address .. => some address
  | symbolic .. => none

/-- Base register and offset. -/
def place : Address → String × Int
  | symbolic base offset | effective _ base _ offset => (base, offset)

/-- Whether two addresses count as the same cell: computed ones by their value, all others by base
register and offset. -/
def aliases (a b : Address) : Bool :=
  match a.effective?, b.effective? with
  | some x, some y => x == y
  | _, _ => a.place == b.place

/-- The text of an address in dumps. -/
def text : Address → String
  | symbolic _ offset => toString offset
  | effective address _ baseValue offset => s!"{address} ({Value.short baseValue}+{offset})"

end Address

/-- What a station does with its operands. -/
inductive StationOp where
  | alu (op : AluOp)
  | load
  | store
deriving DecidableEq

/-- The content of a station that is in use. -/
structure Slot where
  mnemonic : String
  codeOrder : Nat
  /-- Position of the instruction in the order of fetching. -/
  seq : Nat
  op : StationOp
  /-- First operand; the base of a load or store. -/
  j : Operand
  /-- Second operand; the value of a store. -/
  k : Operand
  address : Option Address
  /-- Steps of work left. -/
  step : Nat
  result : Option Float
deriving BEq

namespace Slot

/-- Whether the instruction is a load. -/
def isLoad (slot : Slot) : Bool :=
  slot.op == .load

/-- Whether the instruction is a store. -/
def isStore (slot : Slot) : Bool :=
  slot.op == .store

/-- The computed address, if there is one. -/
def effective? (slot : Slot) : Option Int :=
  slot.address.bind Address.effective?

/-- Whether an operand waits for a station. -/
def waitsFor (producer : Nat) (slot : Slot) : Bool :=
  slot.j.waitsFor producer || slot.k.waitsFor producer

/-- The slot after a station has published a value. -/
def receive (producer : Nat) (value : Float) (slot : Slot) : Slot :=
  { slot with j := slot.j.receive producer value, k := slot.k.receive producer value }

end Slot

/-- A reservation station. -/
structure Station where
  name : String
  stationClass : StationClass
  delay : Nat
  /-- Whether the functional unit worked during the last cycle. -/
  working : Bool
  slot : Option Slot
deriving BEq

namespace Station

/-- Whether the station holds an instruction. -/
def isBusy (station : Station) : Bool :=
  station.slot.isSome

end Station

end Tomasulo
