import Tomasulo.Instruction
import Tomasulo.OrderedMap

/-!
# Listings

A listing is a program as the machine fetches it: its instructions, the sections that labels divide
them into, and the values that directives give to registers.
-/

namespace Tomasulo

/-- The instructions that stand under one label, by code order. -/
structure Section where
  name : String
  members : List Nat
deriving DecidableEq

/-- A program. -/
structure Listing where
  /-- The instructions by code order. -/
  instructions : List Instruction
  /-- The sections in the order in which their names first appear. -/
  sections : List Section
  /-- Initial values of registers. -/
  initialValues : OrderedMap String Float compare

namespace Listing

/-- Where the section of a name stands among the sections. -/
def sectionIndex? (listing : Listing) (name : String) : Option Nat :=
  listing.sections.findIdx? (·.name == name)

/-- The code orders of a section; none for a name that no section has. -/
def members (listing : Listing) (name : String) : List Nat :=
  ((listing.sections.find? (·.name == name)).map Section.members).getD []

/-- The instruction with a code order. -/
def instruction? (listing : Listing) (codeOrder : Nat) : Option Instruction :=
  listing.instructions[codeOrder]?

end Listing

end Tomasulo
