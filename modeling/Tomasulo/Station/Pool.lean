import Tomasulo.Station

/-!
# The pool of stations

A pool is the fixed list of a machine's stations, class after class.  The position of a station in
the list is its number, by which registers and operands refer to it.
-/

namespace Tomasulo

/-- The stations of a machine. -/
abbrev Pool := List Station

/-- A station in use with its number. -/
structure Occupied where
  id : Nat
  station : Station
  slot : Slot

namespace Pool

/-- The free stations of one class, numbered from one. -/
def bank (stationClass : StationClass) (bank : Bank) : Pool :=
  (List.range bank.count).map fun n =>
    { name := s!"{stationClass.label}{n + 1}"
      stationClass
      delay := bank.delay
      working := false
      slot := none }

/-- The pool that a configuration asks for. -/
def ofBanks (banks : Banks) : Pool :=
  banks.classes.flatMap fun entry => bank entry.1 entry.2

/-- The name of a station; a question mark for a number that no station has. -/
def name (pool : Pool) (id : Nat) : String :=
  (pool[id]?.map Station.name).getD "?"

/-- The slot of a station in use. -/
def slot? (pool : Pool) (id : Nat) : Option Slot :=
  pool[id]?.bind Station.slot

/-- The stations in use, in pool order. -/
def occupied (pool : Pool) : List Occupied :=
  pool.zipIdx.filterMap fun entry => entry.1.slot.map fun slot => ⟨entry.2, entry.1, slot⟩

/-- Whether any station is in use. -/
def anyBusy (pool : Pool) : Bool :=
  pool.any Station.isBusy

/-- The first free station that holds instructions of a class. -/
def freeFor? (pool : Pool) (opClass : OpClass) : Option Nat :=
  pool.findIdx? fun station => !station.isBusy && station.stationClass.accepts opClass

/-- Puts an instruction into a station. -/
def put (pool : Pool) (id : Nat) (slot : Slot) : Pool :=
  pool.modify id fun station => { station with slot := some slot }

/-- Replaces the content of a station whose functional unit works. -/
def work (pool : Pool) (id : Nat) (slot : Slot) : Pool :=
  pool.modify id fun station => { station with working := true, slot := some slot }

/-- Frees a station. -/
def release (pool : Pool) (id : Nat) : Pool :=
  pool.modify id fun station => { station with slot := none }

/-- Marks every functional unit as resting. -/
def rest (pool : Pool) : Pool :=
  pool.map fun station => { station with working := false }

/-- The names of the stations with an operand that waits for a station. -/
def awaiting (pool : Pool) (producer : Nat) : List String :=
  (pool.filter fun station => station.slot.any (Slot.waitsFor producer)).map Station.name

/-- Gives every operand that waits for a station the value that the station published. -/
def receive (pool : Pool) (producer : Nat) (value : Float) : Pool :=
  pool.map fun station => { station with slot := station.slot.map (Slot.receive producer value) }

/-- Puts an occupied station before the first one that is not older. -/
def insertByAge (entry : Occupied) : List Occupied → List Occupied
  | [] => [entry]
  | other :: rest =>
      if entry.slot.seq ≤ other.slot.seq then entry :: other :: rest
      else other :: insertByAge entry rest

/-- The numbers of the occupied stations that satisfy a condition, oldest instruction first; among
equally old ones pool order decides. -/
def byAge (pool : Pool) (condition : Occupied → Bool) : List Nat :=
  ((pool.occupied.filter condition).foldr insertByAge []).map Occupied.id

end Pool

end Tomasulo
