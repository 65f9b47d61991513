import Tomasulo.Instruction
import Tomasulo.Text.Numeral

/-!
# Configurations

A configuration gives the number of stations in each class with the delay of their functional units,
a cap on the cycles of a run, and the length of the lookahead that is shown.  It is sound when a run
has at least one cycle and one station, and no station in use takes no time.
-/

namespace Tomasulo

/-- Families of functional units. -/
inductive StationClass where
  | loadStore
  | add
  | mul
deriving DecidableEq

namespace StationClass

/-- What the names of the stations of a class begin with. -/
def label : StationClass → String
  | loadStore => "Load"
  | add => "Add"
  | mul => "Mul"

/-- Whether a station of a class holds instructions of an operation class. -/
def accepts : StationClass → OpClass → Bool
  | loadStore, .load | loadStore, .store => true
  | add, .add | add, .subtract => true
  | mul, .multiply | mul, .divide => true
  | _, _ => false

end StationClass

/-- Stations of one class. -/
structure Bank where
  /-- How many stations there are. -/
  count : Nat
  /-- How many cycles a functional unit needs for an instruction. -/
  delay : Nat
deriving DecidableEq

/-- The stations of a machine. -/
structure Banks where
  load : Bank := ⟨3, 3⟩
  add : Bank := ⟨3, 2⟩
  mul : Bank := ⟨2, 5⟩
deriving DecidableEq

/-- The parameters of a run. -/
structure Configuration where
  /-- The most cycles that a run may take. -/
  maxCycles : Nat := 100
  /-- The most instructions that the lookahead shows; all of them if absent. -/
  queueWindow : Option Nat := none
  stations : Banks := {}
deriving DecidableEq

/-- Why a configuration is refused. -/
inductive ConfigurationError where
  /-- The document is no configuration. -/
  | malformed
  /-- No station of any class exists. -/
  | noStations
  /-- The stations of a class take no time. -/
  | zeroDelay (stationClass : StationClass)
  /-- A run may not take a single cycle. -/
  | zeroCycles
deriving DecidableEq

/-- The text of a refusal.  Of a malformed document it says no more than that. -/
def ConfigurationError.message : ConfigurationError → String
  | malformed => "malformed configuration document: "
  | noStations => "the reservation station pool is empty"
  | zeroDelay stationClass =>
      s!"station class `{stationClass.label}` must have a functional-unit delay of at least one cycle"
  | zeroCycles => "max_cycles must be at least 1"

/-- The classes with their stations, in pool order. -/
def Banks.classes (banks : Banks) : List (StationClass × Bank) :=
  [(.loadStore, banks.load), (.add, banks.add), (.mul, banks.mul)]

/-- The number of stations, as a 64-bit word: behind the last word it starts again from zero. -/
def Banks.total (banks : Banks) : Nat :=
  (banks.load.count + banks.add.count + banks.mul.count) % Word.limit

namespace Configuration

/-- The first class in pool order whose stations exist and take no time. -/
def idleClass? (configuration : Configuration) : Option StationClass :=
  (configuration.stations.classes.find? fun entry => 0 < entry.2.count && entry.2.delay == 0).map
    Prod.fst

/-- Why a configuration cannot run a cycle, if it cannot. -/
def error? (configuration : Configuration) : Option ConfigurationError :=
  if configuration.maxCycles = 0 then some .zeroCycles
  else
    match configuration.idleClass? with
    | some stationClass => some (.zeroDelay stationClass)
    | none => if configuration.stations.total = 0 then some .noStations else none

end Configuration

end Tomasulo
