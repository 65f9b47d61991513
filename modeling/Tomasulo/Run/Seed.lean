import Tomasulo.Machine.State
import Tomasulo.Sample

/-!
# Seeding

Before a run every register that the program mentions is created.  The instructions are visited in
the order of the listing.  A register that is read before it is written gets its directive's value
or a sample value; one that is written first starts out without a value, unless a directive gives it
one.  A load whose base holds a value when it is visited fills the cell that it will read.
-/

namespace Tomasulo

/-- Registers and memory before the first cycle. -/
structure Seeded where
  registers : RegisterFile
  memory : Memory

namespace Seeded

/-- Nothing mentioned yet. -/
def empty : Seeded :=
  ⟨.empty, .empty⟩

/-- Creates a register that an instruction reads. -/
def read (listing : Listing) (instruction : Instruction) (seeded : Seeded) (name : String) : Seeded :=
  if seeded.registers.contains name then seeded
  else
    let value := (listing.initialValues.find? name).getD
      (Sample.value name instruction.mnemonic instruction.opClass)
    { seeded with registers := seeded.registers.write name value }

/-- Creates a register that an instruction writes. -/
def written (listing : Listing) (seeded : Seeded) (name : String) : Seeded :=
  if seeded.registers.contains name then seeded
  else
    let register := ((listing.initialValues.find? name).map Register.ready).getD .empty
    { seeded with registers := seeded.registers.insert name register }

/-- Fills the cell that a load reads, if its base holds a value. -/
def fill (instruction : Instruction) (seeded : Seeded) : Seeded :=
  match instruction.operation with
  | .load dest base offset =>
      match (seeded.registers.get base).value? with
      | some baseValue =>
          { seeded with
            memory := seeded.memory.write (effectiveAddress baseValue offset)
              (Sample.value dest instruction.mnemonic .load) }
      | none => seeded
  | _ => seeded

/-- Visits an instruction. -/
def visit (listing : Listing) (seeded : Seeded) (instruction : Instruction) : Seeded :=
  let seeded := instruction.operation.sources.foldl (read listing instruction) seeded
  let seeded := seeded.fill instruction
  instruction.operation.dest?.toList.foldl (written listing) seeded

end Seeded

/-- Registers and memory for a listing. -/
def Listing.seeded (listing : Listing) : Seeded :=
  listing.instructions.foldl (Seeded.visit listing) .empty

/-- The state in which a listing starts to run. -/
def Listing.initialState (listing : Listing) (banks : Banks) : State :=
  .initial listing listing.seeded.registers listing.seeded.memory banks

end Tomasulo
