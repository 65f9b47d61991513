import Tomasulo.OrderedMap

/-!
# Memory

Memory holds the cells that a program has touched.  A cell may be known without holding a value: the
recorded states of a run all list the same addresses, also those that were touched only later.
-/

namespace Tomasulo

/-- The cells of a machine state by address. -/
abbrev Memory := OrderedMap Int (Option Float) compare

namespace Memory

/-- The value of a cell, if it holds one. -/
def read (memory : Memory) (address : Int) : Option Float :=
  (memory.find? address).join

/-- Stores a value. -/
def write (memory : Memory) (address : Int) (value : Float) : Memory :=
  memory.insert address (some value)

/-- Makes an address known. -/
def touch (memory : Memory) (address : Int) : Memory :=
  if memory.contains address then memory else memory.insert address none

/-- Stores a value in a cell that holds none. -/
def fill (memory : Memory) (address : Int) (value : Float) : Memory :=
  if (memory.read address).isSome then memory else memory.write address value

/-- The value that reading a cell gives when `value` stands for a missing one. -/
def readOr (memory : Memory) (address : Int) (value : Float) : Float :=
  (memory.read address).getD value

end Memory

end Tomasulo
