import Tomasulo.Proofs.Career
import Tomasulo.Proofs.Fetching
import Tomasulo.Proofs.Seeding
import Tomasulo.Proofs.Standstill

/-!
# Straight-line programs

An operand in a station is without a supplier exactly if its register starts without a value and no
instruction fetched earlier writes it (`Execution.starved_iff`).

A listing without branches and jumps is fetched section by section (`Execution.unsteered`).  If its sections
hold its instructions in order, this is the order of the listing (`Execution.inLine`).  So seeding, which
visits the instructions in the same order, has given a value to every register that is read before it is
written, and no operand in a station is ever without a supplier (`Execution.not_starved`).
-/

namespace Tomasulo

/-- Whether a listing has no branch or jump and its sections hold its instructions in order. -/
structure Listing.StraightLine (listing : Listing) : Prop where
  uncontrolled : ∀ instruction ∈ listing.instructions, instruction.isControl = false
  ordered : listing.sections.flatMap Section.members = List.range listing.instructions.length

instance (listing : Listing) : Decidable listing.StraightLine :=
  decidable_of_iff
    ((∀ instruction ∈ listing.instructions, instruction.isControl = false) ∧
      listing.sections.flatMap Section.members = List.range listing.instructions.length)
    ⟨fun ⟨huncontrolled, hordered⟩ => ⟨huncontrolled, hordered⟩,
      fun h => ⟨h.uncontrolled, h.ordered⟩⟩

/-- Whether what was fetched and what lies ahead make up the flattened sections, and fetching goes on as
long as something lies ahead. -/
structure Cursor.Unsteered (listing : Listing) (cursor : Cursor) : Prop where
  complete : cursor.executionOrder ++ cursor.upcoming listing = listing.flat
  settled : cursor.isExhausted listing = true → cursor.upcoming listing = []

/-- Whether what was fetched and what lies ahead are the instructions in order, and fetching goes on as
long as something lies ahead. -/
structure Cursor.InLine (listing : Listing) (cursor : Cursor) : Prop where
  complete : cursor.executionOrder ++ cursor.upcoming listing = List.range listing.instructions.length
  settled : cursor.isExhausted listing = true → cursor.upcoming listing = []

theorem Listing.StraightLine.closed {listing : Listing} (hstraight : listing.StraightLine) :
    listing.Closed := by
  intro part hpart codeOrder hmember
  have hall : codeOrder ∈ listing.sections.flatMap Section.members :=
    List.mem_flatMap.mpr ⟨part, hpart, hmember⟩
  rw [hstraight.ordered] at hall
  exact List.mem_range.mp hall

/-! ## Cursors in line -/

namespace Cursor

variable {listing : Listing} {cursor : Cursor}

theorem unsteered_start : (start listing).Unsteered listing where
  complete := by
    rw [start, executionOrder_settle, upcoming_settle, upcoming_of_start]
    rfl
  settled := upcoming_of_exhausted

/-- Going on moves the next code order from what lies ahead to what was fetched. -/
theorem Unsteered.advance (hunsteered : cursor.Unsteered listing) {instruction : Instruction}
    (hnext : cursor.next? listing = some instruction) :
    (cursor.advance listing none).Unsteered listing := by
  obtain ⟨codeOrder, hcurrent, -⟩ := exists_current_of_next? hnext
  refine ⟨?_, ?_⟩
  · rw [executionOrder_advance hcurrent, ← hunsteered.complete, upcoming_advance hcurrent,
      List.append_assoc, List.singleton_append]
  · rw [advance_through hcurrent rfl]
    exact upcoming_of_exhausted

theorem Unsteered.inLine (hunsteered : cursor.Unsteered listing) (hstraight : listing.StraightLine) :
    cursor.InLine listing :=
  ⟨hunsteered.complete.trans hstraight.ordered, hunsteered.settled⟩

/-- The instructions stand at their own positions. -/
theorem InLine.instructionAt?_eq (hinLine : cursor.InLine listing) {n : Nat} (hbound : n < cursor.fetched) :
    cursor.instructionAt? listing n = listing.instruction? n := by
  have hthere := congrArg (·[n]?) hinLine.complete
  simp only [List.getElem?_append_left hbound] at hthere
  have hsome := List.getElem?_eq_getElem hbound
  rw [hthere] at hsome
  obtain ⟨hlt, hsame⟩ := List.getElem?_eq_some_iff.mp hsome
  unfold instructionAt?
  rw [hthere, List.getElem?_range (by simpa using hlt), Option.bind_some]

theorem InLine.fetched_le (hinLine : cursor.InLine listing) :
    cursor.fetched ≤ listing.instructions.length := by
  have hlength := congrArg List.length hinLine.complete
  rw [List.length_append, List.length_range] at hlength
  unfold fetched
  omega

end Cursor

/-! ## Straight-line runs -/

section Runs

variable {listing : Listing} {initial frozen state : State} {journal : List Deed} {todo : List Task}

theorem Deed.Valid.not_steers
    (huncontrolled : ∀ instruction ∈ listing.instructions, instruction.isControl = false) {deed : Deed}
    {instruction : Instruction} (hnext : deed.before.cursor.next? listing = some instruction) :
    ¬ deed.event.Steers instruction := by
  intro hsteers
  obtain ⟨codeOrder, -, hinstruction⟩ := Cursor.exists_current_of_next? hnext
  have hcontrol := huncontrolled instruction (List.mem_of_getElem? hinstruction)
  unfold Instruction.isControl at hcontrol
  generalize deed.event = event at hsteers
  cases hsteers with
  | branched hoperation => simp [hoperation, Operation.isControl] at hcontrol
  | jumped hoperation => simp [hoperation, Operation.isControl] at hcontrol

/-- Without branches and jumps the sections are fetched one after another. -/
theorem Execution.unsteered (hnow : Execution listing initial frozen journal state todo)
    (hfresh : initial.Fresh) (hstart : initial.cursor = .start listing)
    (huncontrolled : ∀ instruction ∈ listing.instructions, instruction.isControl = false) :
    state.cursor.Unsteered listing := by
  refine hnow.of_deeds (motive := fun _ state => state.cursor.Unsteered listing) hfresh ?_ ?_ ?_
  · rw [hstart]
    exact Cursor.unsteered_start
  · intro journal state ih
    exact ih
  · intro frozen journal rest deed hbefore hvalid ih
    cases hvalid.stride with
    | entered _ _ hnext hcursor =>
        rw [hcursor]
        exact ih.advance hnext
    | steered _ hnext _ hsteers => exact absurd hsteers (Deed.Valid.not_steers huncontrolled hnext)
    | advanced hstation => rwa [hvalid.cursor_of_station hstation]
    | left hstation => rwa [hvalid.cursor_of_station hstation]

theorem Execution.inLine (hnow : Execution listing initial frozen journal state todo)
    (hfresh : initial.Fresh) (hstart : initial.cursor = .start listing)
    (hstraight : listing.StraightLine) : state.cursor.InLine listing :=
  (hnow.unsteered hfresh hstart hstraight.uncontrolled).inLine hstraight

/-! ## Operands without a supplier -/

/-- The registers that an instruction in a station reads are those of its two operands. -/
theorem Operation.mem_sources_iff {operation : Operation} (hcontrol : operation.isControl = false)
    {name : String} :
    name ∈ operation.sources ↔ operation.first? = some name ∨ operation.second? = some name := by
  rw [sources, List.mem_eraseDups]
  cases operation <;>
    simp_all [isControl, operands, first?, second?, eq_comm (a := name), or_comm]

/-- An operand without a supplier was read from a register. -/
theorem Slot.Fits.starved_iff {instruction : Instruction} {delay : Nat} {slot : Slot}
    (hfits : slot.Fits instruction delay) :
    slot.Starved ↔ ∃ name, instruction.operation.first? = some name ∧ slot.j = .empty ∨
      instruction.operation.second? = some name ∧ slot.k = .empty := by
  have hshaped := hfits.shaped
  cases hoperation : instruction.operation <;> rw [hoperation] at hshaped
  case load => simp [Starved, hshaped.1, Operation.first?, Operation.second?]
  case store => simp [Starved, hshaped.1, Operation.first?, Operation.second?, exists_or]
  case loadImmediate => simp [Starved, hshaped.1, hshaped.2.1, Operation.first?, Operation.second?]
  case arithmetic =>
    simp [Starved, Computing.op_eq hshaped, Operation.first?, Operation.second?, exists_or]
  case arithmeticImmediate => simp [Starved, hshaped.1, Operation.first?, Operation.second?]
  case branch => exact hshaped.elim
  case jump => exact hshaped.elim

theorem Slot.Fits.isControl_eq_false {instruction : Instruction} {delay : Nat} {slot : Slot}
    (hfits : slot.Fits instruction delay) : instruction.operation.isControl = false := by
  have hshaped := hfits.shaped
  cases hoperation : instruction.operation <;> rw [hoperation] at hshaped
  case branch => exact hshaped.elim
  case jump => exact hshaped.elim
  all_goals rfl

/-- A captured operand is without a supplier exactly if no instruction before it writes the register, and the
register had no value at the start. -/
theorem Operand.Captures.eq_empty_iff {operand : Operand} {source? : Option String} {name : String}
    {registers : RegisterFile} {n : Nat}
    (hcaptures : operand.Captures source? (Content listing registers journal state · n))
    (hsource : source? = some name) :
    operand = .empty ↔
      state.cursor.lastWriter? listing name n = none ∧ registers.get name = .empty := by
  obtain ⟨register, hcontent, rfl⟩ := hcaptures name hsource
  have hempty : Operand.ofRegister register = .empty ↔ register = .empty := by
    cases register <;> simp [Operand.ofRegister]
  rw [hempty]
  cases hcontent with
  | awaited hlast => simp [hlast]
  | known hknown =>
      unfold contentBefore? at hknown
      cases hlast : state.cursor.lastWriter? listing name n with
      | none =>
          rw [hlast] at hknown
          simp [Option.some.inj hknown]
      | some m =>
          rw [hlast] at hknown
          obtain ⟨value, -, rfl⟩ := Option.map_eq_some_iff.mp hknown
          simp

/-- An instruction in a station lacks an operand for good exactly if one of its registers starts without a
value and is written by no instruction fetched before it. -/
theorem Execution.starved_iff (hnow : Execution listing initial frozen journal state todo)
    (hfresh : initial.Fresh) {id : Nat} {slot : Slot} (hslot : state.stations.slot? id = some slot) :
    ∃ instruction, state.cursor.instructionAt? listing slot.seq = some instruction ∧
      slot.codeOrder = instruction.codeOrder ∧
      (slot.Starved ↔ ∃ name ∈ instruction.operation.sources,
        state.cursor.lastWriter? listing name slot.seq = none ∧ initial.registers.get name = .empty) := by
  have hlife := hnow.lifecycle hfresh.free hfresh.delays
  obtain ⟨instruction, hat, hfits⟩ := hlife.fits id slot hslot
  obtain ⟨hj, hk⟩ := (hnow.dataflow hfresh).operands id slot instruction hslot hat
  refine ⟨instruction, hat, hfits.codeOrder, ?_⟩
  rw [hfits.starved_iff]
  refine exists_congr fun name => ?_
  rw [Operation.mem_sources_iff hfits.isControl_eq_false, or_and_right]
  exact or_congr (and_congr_right hj.eq_empty_iff) (and_congr_right hk.eq_empty_iff)

/-- In a straight-line run no instruction is ever without a supplier for an operand. -/
theorem Execution.not_starved (hnow : Execution listing initial frozen journal state todo)
    (hfresh : initial.Fresh) (hstart : initial.cursor = .start listing)
    (hregisters : initial.registers = listing.seeded.registers) (hstraight : listing.StraightLine)
    {id : Nat} {slot : Slot} (hslot : state.stations.slot? id = some slot) : ¬ slot.Starved := by
  intro hstarved
  have hinLine := hnow.inLine hfresh hstart hstraight
  have hbound := (hnow.lifecycle hfresh.free hfresh.delays).seq_lt hslot
  obtain ⟨instruction, hat, -, hiff⟩ := hnow.starved_iff hfresh hslot
  obtain ⟨name, hname, hlast, hnone⟩ := hiff.mp hstarved
  rw [hinLine.instructionAt?_eq hbound] at hat
  -- Seeding met the instruction before any that writes the register.
  obtain ⟨value, hvalue⟩ := Listing.seeded_ready_before hat hname fun m hm writer hwriter hdest => by
    refine latest?_eq_none_iff.mp hlast m hm ?_
    unfold Cursor.Writes
    rw [hinLine.instructionAt?_eq (by omega), hwriter, Option.bind_some, hdest]
  rw [hregisters, hvalue] at hnone
  exact absurd hnone (by simp)

end Runs

end Tomasulo
