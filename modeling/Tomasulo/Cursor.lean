import Tomasulo.Listing

/-!
# The fetch cursor

Fetching walks the sections of a listing in their order and each section from its first member to
its last.  A taken branch or a jump continues at the start of a section; a label that no section has
continues with the next instruction.  Sections without members are passed over, and behind the last
one fetching is exhausted.  The lookahead shows what would be fetched if nothing branched.
-/

namespace Tomasulo

/-- Where fetching stands, and what it has fetched. -/
structure Cursor where
  /-- Which section is being fetched. -/
  sectionIndex : Nat
  /-- Which of its members comes next. -/
  position : Nat
  /-- Code orders of the fetched instructions, in the order of fetching. -/
  executionOrder : List Nat
deriving DecidableEq

/-- The instructions ahead, split behind the first branch or jump. -/
structure Lookahead where
  visible : List Nat
  remaining : List Nat
deriving DecidableEq

namespace Cursor

/-- How many instructions have been fetched. -/
def fetched (cursor : Cursor) : Nat :=
  cursor.executionOrder.length

/-- The code order that comes next. -/
def current? (listing : Listing) (cursor : Cursor) : Option Nat :=
  (listing.sections[cursor.sectionIndex]?).bind fun part => part.members[cursor.position]?

/-- The instruction that comes next. -/
def next? (listing : Listing) (cursor : Cursor) : Option Instruction :=
  (cursor.current? listing).bind listing.instruction?

/-- Whether nothing is left to fetch. -/
def isExhausted (listing : Listing) (cursor : Cursor) : Bool :=
  (cursor.current? listing).isNone

/-- The first section from `start` on that has members, or the number of sections. -/
def firstFilled (listing : Listing) (start : Nat) : Nat :=
  start + (listing.sections.drop start).findIdx fun part => !part.members.isEmpty

/-- Moves a cursor that stands behind the last member of its section to the next instruction. -/
def settle (listing : Listing) (cursor : Cursor) : Cursor :=
  if cursor.isExhausted listing then
    { cursor with sectionIndex := firstFilled listing (cursor.sectionIndex + 1), position := 0 }
  else cursor

/-- The cursor before the first instruction. -/
def start (listing : Listing) : Cursor :=
  settle listing ⟨0, 0, []⟩

/-- Fetches the next instruction and moves on, to a label if one is given and known. -/
def advance (listing : Listing) (label : Option String) (cursor : Cursor) : Cursor :=
  match cursor.current? listing with
  | none => cursor
  | some codeOrder =>
      let executionOrder := cursor.executionOrder ++ [codeOrder]
      match label.bind listing.sectionIndex? with
      | some target => settle listing ⟨target, 0, executionOrder⟩
      | none => settle listing ⟨cursor.sectionIndex, cursor.position + 1, executionOrder⟩

/-- The code orders ahead, through all later sections. -/
def upcoming (listing : Listing) (cursor : Cursor) : List Nat :=
  match listing.sections.drop cursor.sectionIndex with
  | [] => []
  | part :: later => part.members.drop cursor.position ++ later.flatMap Section.members

/-- Whether a code order is that of a branch or jump. -/
def isControlAt (listing : Listing) (codeOrder : Nat) : Bool :=
  (listing.instruction? codeOrder).any Instruction.isControl

/-- The code orders ahead, at most as many as the window has room for. -/
def lookahead (listing : Listing) (window : Option Nat) (cursor : Cursor) : Lookahead :=
  let ahead := cursor.upcoming listing
  let shown := match window with
    | none => ahead
    | some count => ahead.take count
  let visible := shown.findIdx (isControlAt listing) + 1
  ⟨shown.take visible, shown.drop visible⟩

end Cursor

end Tomasulo
