import Tomasulo.Proofs.Cells
import Tomasulo.Proofs.Sequential

/-!
# In-order equivalence

Whenever no station is in use, the machine with stations is where the sequential one is after as many
instructions as have been fetched (`in_order_equivalence`).  The program has to be grounded, as every
seeded program is whose bases are not written; otherwise a load may overtake a store.

The simulation asks no more of memory than that its accesses are those of program order
(`AccessesInOrder`); a grounded program sees to that.

`Agrees` says that the sequential machine at a cursor holds the registers and cells that program order
gives before the next position.  Each of its steps keeps this, because what the instruction at that
position has published or stored is what program order says.
-/

namespace Tomasulo

/-! ## What the journal says of an instruction -/

section Journals

variable {listing : Listing} {initial frozen state after : State} {journal : List Deed} {deed : Deed}
  {todo : List Task} {n : Nat} {instruction : Instruction} {value : Float}

theorem exists_deed_of_publishedAt? (hvalue : publishedAt? journal n = some value) :
    ∃ deed ∈ journal, deed.seq = n ∧ deed.event.published? = some value := by
  obtain ⟨deed, hdeed, hwhat⟩ := List.exists_of_findSome?_eq_some hvalue
  obtain ⟨hseq, hpublished⟩ := Option.ite_none_right_eq_some.mp hwhat
  exact ⟨deed, hdeed, hseq, hpublished⟩

/-- When no station is in use, every instruction with a destination has published. -/
theorem Execution.published_of_idle (hnow : Execution listing initial frozen journal state todo)
    (hfresh : initial.Fresh) (hidle : state.stations.anyBusy = false)
    (hat : state.cursor.instructionAt? listing n = some instruction) {dest : String}
    (hdest : instruction.operation.dest? = some dest) : ∃ value, publishedAt? journal n = some value := by
  have hwrites : state.cursor.Writes listing dest n := by
    unfold Cursor.Writes
    rw [hat, Option.bind_some, hdest]
  rcases hnow.published_or_held hfresh hwrites with hvalue | ⟨id, slot, hslot, -⟩
  · exact hvalue
  · rw [Pool.anyBusy_eq_false_iff.mp hidle] at hslot
    exact absurd hslot (by simp)

/-- What arithmetic publishes is what it yields in program order. -/
theorem Execution.yields_of_published (hnow : Execution listing initial frozen journal state todo)
    (hfresh : initial.Fresh) (hvalue : publishedAt? journal n = some value)
    (hat : state.cursor.instructionAt? listing n = some instruction) :
    instruction.operation.Yields (valueBefore? listing initial.registers journal state.cursor · n)
      value := by
  obtain ⟨deed, hdeed, rfl, hpublished⟩ := exists_deed_of_publishedAt? hvalue
  have horder := hnow.inOrder_at hfresh hdeed hat
  unfold Deed.InOrder at horder
  cases hevent : deed.event <;> rw [hevent] at hpublished horder <;>
    simp only [Event.published?, reduceCtorEq, Option.some.injEq] at hpublished
  exact hpublished ▸ horder

/-- What a load publishes is what it has read. -/
theorem Execution.read_of_published (hnow : Execution listing initial frozen journal state todo)
    (hfresh : initial.Fresh) (hvalue : publishedAt? journal n = some value)
    (hat : state.cursor.instructionAt? listing n = some instruction) {dest base : String}
    {offset : Int} (hload : instruction.operation = .load dest base offset) :
    HasRead journal n value := by
  obtain ⟨deed, hdeed, rfl, hpublished⟩ := exists_deed_of_publishedAt? hvalue
  obtain ⟨hlater, hadvanced⟩ := hnow.extends hfresh.delays hdeed
  obtain ⟨_, past, later, _, rfl, hthen, hperforms⟩ := hnow.mem_journal hdeed
  have hvalid := hthen.valid hfresh.inStep hperforms
  have hlife := hvalid.lifecycle
  obtain ⟨after, hchange, -⟩ := hvalid.change
  obtain ⟨task, before, event, noted⟩ := deed
  cases hchange with
  | enter => exact absurd hpublished (by simp [Event.published?])
  | steer _ hsilent => exact absurd (hsilent.symm.trans hpublished) (by simp)
  | work _ hsilent _ => exact absurd (hsilent.symm.trans hpublished) (by simp)
  | store => exact absurd hpublished (by simp [Event.published?])
  | @publish site slot result _ _ _ hslot hresult =>
      obtain rfl := Option.some.inj hpublished
      have hseq : Deed.seq _ = slot.seq := Deed.seq_of_station rfl hslot
      rw [hseq] at hat ⊢
      rw [(hlater.trans hadvanced).instructionAt? (hlife.seq_lt hslot)] at hat
      have hfits := hlife.fits_at hslot hat
      have hmemory : slot.IsMemory := by
        have hplace : instruction.operation.place? = some (base, offset) := by rw [hload]; rfl
        exact hfits.isMemory hplace
      exact ((hthen.ledger hfresh).result site slot hslot hmemory _ hresult).append _

/-- A store that has made its access has written. -/
theorem Execution.written_of_store (hnow : Execution listing initial frozen journal state todo)
    (hfresh : initial.Fresh) (hgrounded : Grounded listing initial.registers initial.memory)
    (hat : state.cursor.instructionAt? listing n = some instruction)
    (hclass : instruction.opClass = .store) (haccessed : Accessed journal n) :
    ∃ deed ∈ journal, deed.seq = n ∧ ∃ address value,
      deed.access? = some (.write address value) := by
  obtain ⟨deed, hdeed, rfl, access, haccess⟩ := haccessed
  obtain ⟨hlater, hadvanced⟩ := hnow.extends hfresh.delays hdeed
  obtain ⟨_, past, later, _, rfl, hthen, hperforms⟩ := hnow.mem_journal hdeed
  obtain ⟨instruction', _, haccesses, -⟩ :=
    hthen.exists_accesses hfresh hgrounded hperforms haccess
  have hsame : state.cursor.instructionAt? listing deed.seq = some instruction' := by
    rw [(hlater.trans hadvanced).instructionAt? (Cursor.lt_fetched haccesses.at_seq),
      haccesses.at_seq]
  obtain rfl := Option.some.inj (hat.symm.trans hsame)
  have hwrite := haccesses.isWrite_iff.mpr hclass
  cases access with
  | read address value => exact absurd hwrite (by simp [Access.isWrite])
  | write address value => exact ⟨deed, hdeed, rfl, address, value, haccess⟩

/-- Whether a journal accesses memory as program order says, from given registers and cells: what a load has
read is what its cell holds in front of it, and every store that has been fetched has written its cell. -/
structure AccessesInOrder (listing : Listing) (start : State) (journal : List Deed) (final : Cursor) :
    Prop where
  read : ∀ deed ∈ journal, ∀ address value, deed.access? = some (.read address value) →
    cellBefore? listing start journal final address deed.seq = some value
  written : ∀ n instruction source base offset, final.instructionAt? listing n = some instruction →
    instruction.operation = .store source base offset →
      ∃ deed ∈ journal, deed.seq = n ∧ ∃ address value,
        deed.access? = some (.write address value) ∧
          instruction.operation.cell? start.registers = some address

/-- When no station is in use, a grounded program has accessed memory in order. -/
theorem Execution.accessesInOrder (hnow : Execution listing initial frozen journal state todo)
    (hfresh : initial.Fresh) (hgrounded : Grounded listing initial.registers initial.memory)
    (hidle : state.stations.anyBusy = false) :
    AccessesInOrder listing initial journal state.cursor where
  read _ hdeed _ _ hread := hnow.cellBefore?_of_read hfresh hgrounded hdeed hread
  written n instruction source base offset hat hstore := by
    have hclass := Instruction.opClass_of_store hstore
    have hplace : instruction.operation.place? = some (base, offset) := by rw [hstore]; rfl
    have haccessed := hnow.accessed_of_idle hfresh hidle hat hplace
    obtain ⟨deed, hdeed, hseq, address, value, hwrite⟩ :=
      hnow.written_of_store hfresh hgrounded hat hclass haccessed
    have hcell := hnow.cell?_of_address? hfresh hgrounded hdeed (Deed.address?_of_access? hwrite)
      (by rw [hseq, hat])
    exact ⟨deed, hdeed, hseq, address, value, hwrite, hcell⟩

end Journals

/-! ## Agreement -/

/-- Whether a sequential machine stands at a cursor, with the registers and cells that program order
gives before the next position. -/
structure Agrees (listing : Listing) (initial : State) (journal : List Deed) (final cursor : Cursor)
    (machine : Sequential) : Prop where
  cursor_eq : machine.cursor = cursor
  registers : ∀ name, contentBefore? listing initial.registers journal final name cursor.fetched =
    some (machine.registers.get name)
  memory : ∀ x, machine.memory.read x =
    cellBefore? listing initial journal final x cursor.fetched

section Agrees

variable {listing : Listing} {initial : State} {journal : List Deed} {final cursor : Cursor}
  {machine : Sequential} {instruction : Instruction} {label : Option String}

theorem contentBefore?_succ {registers : RegisterFile} {name : String} {n : Nat} :
    contentBefore? listing registers journal final name (n + 1) =
      if final.Writes listing name n then (publishedAt? journal n).map .ready
      else contentBefore? listing registers journal final name n := by
  unfold contentBefore? Cursor.lastWriter?
  by_cases hwrites : final.Writes listing name n
  · rw [latest?, if_pos hwrites, if_pos hwrites]
  · rw [latest?, if_neg hwrites, if_neg hwrites]

/-- The sequential machine works on the values that program order gives. -/
theorem Agrees.value?_eq (hagrees : Agrees listing initial journal final cursor machine) :
    machine.value? =
      (valueBefore? listing initial.registers journal final · cursor.fetched) := by
  funext name
  rw [valueBefore?, hagrees.registers name]
  rfl

theorem Agrees.start (listing : Listing) (initial : State) (journal : List Deed) (final : Cursor) :
    Agrees listing initial journal final (Cursor.start listing)
      ⟨Cursor.start listing, initial.registers, initial.memory⟩ where
  cursor_eq := rfl
  registers name := by
    rw [Cursor.fetched_start]
    rfl
  memory x := by
    rw [Cursor.fetched_start]
    rfl

variable (hagrees : Agrees listing initial journal final cursor machine)
  (hnext : cursor.next? listing = some instruction)
  (hat : final.instructionAt? listing cursor.fetched = some instruction)

include hagrees hnext hat

/-- Carrying out an instruction that has published gives its destination the value. -/
theorem Agrees.give {dest : String} {value : Float} (hdest : instruction.operation.dest? = some dest)
    (hvalue : publishedAt? journal cursor.fetched = some value) :
    Agrees listing initial journal final (cursor.advance listing none)
      (machine.give listing dest value) where
  cursor_eq := by rw [Sequential.give, hagrees.cursor_eq]
  registers name := by
    have hwrites : final.Writes listing name cursor.fetched ↔ name = dest := by
      unfold Cursor.Writes
      rw [hat, Option.bind_some, hdest, Option.some.injEq, eq_comm]
    rw [Cursor.fetched_advance hnext, contentBefore?_succ, Sequential.give]
    simp only [RegisterFile.get_write, hwrites, hvalue, Option.map_some]
    split
    · rfl
    · exact hagrees.registers name
  memory x := by
    have hstore : ¬ final.StoresTo listing initial.registers x cursor.fetched := by
      rintro hstore
      obtain ⟨_, hat', hclass, -⟩ := Cursor.storesTo_iff.mp hstore
      obtain rfl := Option.some.inj (hat.symm.trans hat')
      rw [Instruction.opClass, Operation.opClass_eq_store_iff] at hclass
      cases hoperation : instruction.operation <;> rw [hoperation] at hclass hdest <;>
        simp [Operation.stationOp?, Operation.dest?] at hclass hdest
    rw [Cursor.fetched_advance hnext, cellBefore?_succ, if_neg hstore]
    exact hagrees.memory x

/-- Carrying out a store gives its cell the value. -/
theorem Agrees.store {x : Int} {value : Float} (hclass : instruction.opClass = .store)
    (hcell : instruction.operation.cell? initial.registers = some x)
    (hvalue : storedAt? listing initial.registers journal final cursor.fetched = some value) :
    Agrees listing initial journal final (cursor.advance listing none)
      (machine.store listing x value) where
  cursor_eq := by rw [Sequential.store, hagrees.cursor_eq]
  registers name := by
    have hwrites : ¬ final.Writes listing name cursor.fetched := by
      unfold Cursor.Writes
      rw [hat, Option.bind_some]
      rw [Instruction.opClass, Operation.opClass_eq_store_iff] at hclass
      cases hoperation : instruction.operation <;> rw [hoperation] at hclass <;>
        simp [Operation.stationOp?, Operation.dest?] at hclass ⊢
    rw [Cursor.fetched_advance hnext, contentBefore?_succ, if_neg hwrites]
    exact hagrees.registers name
  memory y := by
    have hstore : final.StoresTo listing initial.registers y cursor.fetched ↔ y = x := by
      rw [Cursor.storesTo_iff, hat]
      simp [hclass, hcell, eq_comm]
    rw [Cursor.fetched_advance hnext, cellBefore?_succ, Sequential.store]
    simp only [Memory.read_write, hstore, hvalue]
    split
    · rfl
    · exact hagrees.memory y

/-- Branches and jumps leave registers and memory alone. -/
theorem Agrees.steer (hcontrol : instruction.isControl = true) (label : Option String) :
    Agrees listing initial journal final (cursor.advance listing label)
      (machine.steer listing label) where
  cursor_eq := by rw [Sequential.steer, hagrees.cursor_eq]
  registers name := by
    have hwrites : ¬ final.Writes listing name cursor.fetched := by
      unfold Cursor.Writes
      rw [hat, Option.bind_some, Instruction.dest?_of_isControl hcontrol]
      simp
    rw [Cursor.fetched_advance hnext, contentBefore?_succ, if_neg hwrites]
    exact hagrees.registers name
  memory x := by
    have hstore : ¬ final.StoresTo listing initial.registers x cursor.fetched := by
      intro hstore
      obtain ⟨_, hat', hclass, hcell⟩ := Cursor.storesTo_iff.mp hstore
      obtain rfl := Option.some.inj (hat.symm.trans hat')
      rw [Operation.cell?, Operation.address?, Operation.place?_of_isControl hcontrol] at hcell
      exact absurd hcell (by simp)
    rw [Cursor.fetched_advance hnext, cellBefore?_succ, if_neg hstore]
    exact hagrees.memory x

end Agrees

/-! ## Simulation -/

section Simulation

variable {listing : Listing} {initial frozen state : State} {journal : List Deed} {todo : List Task}
  {cursor : Cursor} {machine : Sequential} {instruction : Instruction} {label : Option String}
  {memory : Memory}

section Step

variable (hnow : Execution listing initial frozen journal state todo) (hfresh : initial.Fresh)
  (hidle : state.stations.anyBusy = false) (hnext : cursor.next? listing = some instruction)
  (hat : state.cursor.instructionAt? listing cursor.fetched = some instruction)
  (hagrees : Agrees listing { initial with memory } journal state.cursor cursor machine)

include hnow hfresh hat hagrees

/-- An address in the journal is computed from the values that the sequential machine has. -/
theorem Execution.address?_agrees {deed : Deed} {address : Int} (hdeed : deed ∈ journal)
    (hseq : deed.seq = cursor.fetched) (haddress : deed.address? = some address) :
    instruction.operation.address? machine.value? = some address := by
  rw [hagrees.value?_eq, ← hseq]
  exact hnow.address?_of_deed hfresh hdeed haddress (hseq ▸ hat)

include hidle hnext

theorem Execution.alu_agrees {op : AluOp} {lhs rhs : AluSource} {dest : String}
    (halu : instruction.operation.alu? = some (op, lhs, rhs))
    (hdest : instruction.operation.dest? = some dest) :
    ∃ after, machine.perform? listing instruction.operation = some after ∧
      Agrees listing { initial with memory } journal state.cursor (cursor.advance listing none) after := by
  obtain ⟨value, hresult⟩ := hnow.published_of_idle hfresh hidle hat hdest
  obtain ⟨left, right, hleft, hright, rfl⟩ :=
    hnow.yields_of_published hfresh hresult hat op lhs rhs halu
  rw [← hagrees.value?_eq] at hleft hright
  exact ⟨_, Sequential.perform?_of_alu halu hdest hleft hright,
    hagrees.give hnext hat hdest hresult⟩

variable (haccesses : AccessesInOrder listing { initial with memory } journal state.cursor)

include haccesses

theorem Execution.load_agrees {dest base : String} {offset : Int}
    (hload : instruction.operation = .load dest base offset) :
    ∃ after, machine.perform? listing instruction.operation = some after ∧
      Agrees listing { initial with memory } journal state.cursor (cursor.advance listing none) after := by
  have hdest : instruction.operation.dest? = some dest := by rw [hload]; rfl
  obtain ⟨value, hresult⟩ := hnow.published_of_idle hfresh hidle hat hdest
  obtain ⟨deed, hdeed, hseq, address, hread⟩ := hnow.read_of_published hfresh hresult hat hload
  have haddress :=
    hnow.address?_agrees hfresh hat hagrees hdeed hseq (Deed.address?_of_access? hread)
  -- What the load has read is the content of its cell in program order.
  have hcell := haccesses.read deed hdeed address value hread
  rw [hseq, ← hagrees.memory] at hcell
  exact ⟨_, Sequential.perform?_of_load hload haddress hcell,
    hagrees.give hnext hat hdest hresult⟩

omit hidle in
theorem Execution.store_agrees {source base : String} {offset : Int}
    (hstore : instruction.operation = .store source base offset) :
    ∃ after, machine.perform? listing instruction.operation = some after ∧
      Agrees listing { initial with memory } journal state.cursor (cursor.advance listing none) after := by
  have hclass := Instruction.opClass_of_store hstore
  obtain ⟨deed, hdeed, hseq, address, value, hwrite, hcell⟩ :=
    haccesses.written _ _ _ _ _ hat hstore
  have hatDeed : state.cursor.instructionAt? listing deed.seq = some instruction := by rw [hseq, hat]
  have haddress :=
    hnow.address?_agrees hfresh hat hagrees hdeed hseq (Deed.address?_of_access? hwrite)
  have hstored := hnow.storedAt?_of_write hfresh hdeed hwrite
  rw [hseq] at hstored
  -- What the store has written is the value of its source in program order.
  have hsource : machine.value? source = some value := by
    obtain ⟨source', hsource', hbefore⟩ := (hnow.inOrder_at hfresh hdeed hatDeed).written hwrite
    rw [hstore] at hsource'
    rw [Option.some.inj hsource', hagrees.value?_eq, ← hseq]
    exact hbefore
  exact ⟨_, Sequential.perform?_of_store hstore haddress hsource,
    hagrees.store hnext hat hclass hcell hstored⟩

end Step

/-- The sequential machine carries out every instruction that has been fetched when no station is in
use, and stays in agreement. -/
theorem Execution.step_agrees (hnow : Execution listing initial frozen journal state todo)
    (hfresh : initial.Fresh)
    (haccesses : AccessesInOrder listing { initial with memory } journal state.cursor)
    (hidle : state.stations.anyBusy = false) (hnext : cursor.next? listing = some instruction)
    (hlabel : instruction.operation.label?
      (valueBefore? listing initial.registers journal state.cursor · cursor.fetched) = some label)
    (hextends : state.cursor.Extends (cursor.advance listing label))
    (hagrees : Agrees listing { initial with memory } journal state.cursor cursor machine) :
    ∃ after, machine.step? listing = some after ∧
      Agrees listing { initial with memory } journal state.cursor (cursor.advance listing label) after := by
  have hat : state.cursor.instructionAt? listing cursor.fetched = some instruction := by
    rw [hextends.instructionAt? (by rw [Cursor.fetched_advance hnext]; omega),
      Cursor.instructionAt?_advance hnext, if_pos rfl]
  have hstep : machine.step? listing = machine.perform? listing instruction.operation := by
    rw [Sequential.step?, hagrees.cursor_eq, hnext, Option.bind_some]
  rw [hstep]
  cases hcontrol : instruction.operation.isControl with
  | true =>
      rw [← hagrees.value?_eq] at hlabel
      exact ⟨_, Sequential.perform?_of_isControl hcontrol hlabel, hagrees.steer hnext hat hcontrol label⟩
  | false =>
      rw [Operation.label?_of_not_isControl _ hcontrol] at hlabel
      obtain rfl := Option.some.inj hlabel
      cases hform : instruction.operation with
      | load =>
          rw [← hform]
          exact hnow.load_agrees hfresh hidle hnext hat hagrees haccesses hform
      | store =>
          rw [← hform]
          exact hnow.store_agrees hfresh hnext hat hagrees haccesses hform
      | loadImmediate | arithmetic | arithmeticImmediate =>
          rw [← hform]
          exact hnow.alu_agrees hfresh hidle hnext hat hagrees (by rw [hform]; rfl) (by rw [hform]; rfl)
      | branch | jump =>
          rw [hform] at hcontrol
          exact absurd hcontrol (by simp [Operation.isControl])

/-- The sequential machine comes to every cursor that the machine with stations has passed through. -/
theorem Execution.run_agrees (hnow : Execution listing initial frozen journal state todo)
    (hfresh : initial.Fresh)
    (haccesses : AccessesInOrder listing { initial with memory } journal state.cursor)
    (hidle : state.stations.anyBusy = false)
    (hsteered : cursor.Steered listing (valueBefore? listing initial.registers journal state.cursor))
    (hextends : state.cursor.Extends cursor) :
    ∃ machine, Sequential.run? listing ⟨Cursor.start listing, initial.registers, memory⟩
        cursor.fetched = some machine ∧
      Agrees listing { initial with memory } journal state.cursor cursor machine := by
  -- By induction on how the cursor was reached: each move is one step of the sequential machine.
  induction hsteered with
  | start =>
      rw [Cursor.fetched_start]
      exact ⟨_, rfl, .start listing _ journal state.cursor⟩
  | @advance cursor instruction label _ hnext hlabel ih =>
      obtain ⟨machine, hrun, hagrees⟩ := ih (hextends.trans (Cursor.extends_advance hnext label))
      obtain ⟨after, hstep, hafter⟩ :=
        hnow.step_agrees hfresh haccesses hidle hnext hlabel hextends hagrees
      refine ⟨after, ?_, hafter⟩
      rw [Cursor.fetched_advance hnext, Sequential.run?, hrun, Option.bind_some, hstep]

end Simulation

/-! ## Main statement -/

/-- On every sound configuration, for every program that does not write the bases of its loads and
stores: whenever no station is in use, carrying out as many instructions as have been fetched, one at a
time from the seeded registers and memory, never reads an empty register or cell, and ends at the same
cursor with the same order of fetching, the same registers and the same cells. -/
theorem in_order_equivalence {listing : Listing} {configuration : Configuration}
    {journal : List Deed} {state : State} (hsound : configuration.error? = none)
    (hbases : ∀ instruction ∈ listing.instructions, ∀ base offset,
      instruction.operation.place? = some (base, offset) → listing.Unwritten base)
    (hobserved : Observed listing (listing.initialState configuration.stations) journal state)
    (hidle : state.stations.anyBusy = false) :
    ∃ machine,
      Sequential.run? listing
          ⟨Cursor.start listing, listing.seeded.registers, listing.seeded.memory⟩
          state.cursor.fetched = some machine ∧
        machine.cursor = state.cursor ∧
        (∀ name, machine.registers.get name = state.registers.get name) ∧
        ∀ address, machine.memory.read address = state.memory.read address := by
  have hfresh : (listing.initialState configuration.stations).Fresh :=
    State.fresh_initial hsound Listing.seeded_settled
  have hgrounded : Grounded listing listing.seeded.registers listing.seeded.memory :=
    Listing.grounded_seeded hbases
  obtain ⟨frozen, todo, hnow⟩ := hobserved.execution
  obtain ⟨machine, hrun, hagrees⟩ := hnow.run_agrees hfresh (hnow.accessesInOrder hfresh hgrounded hidle)
    hidle (hnow.steered hfresh rfl) (Cursor.Extends.refl _)
  refine ⟨machine, hrun, hagrees.cursor_eq, fun name => ?_, fun address => ?_⟩
  · have hcontent := (hnow.dataflow hfresh).contents_known hidle name
    exact Option.some.inj ((hagrees.registers name).symm.trans hcontent)
  · exact (hagrees.memory address).trans (hnow.cellBefore?_of_idle hfresh hgrounded hidle address).symm

/-! ## A loop over a cell

The loop adds one to a cell twice.  The machine fetches the load of the second turn while the store of the
first one is under way.
-/

namespace Countdown

def listing : Listing where
  instructions :=
    [⟨"li x1,2", "li", 0, .loadImmediate "x1" 2⟩,
      ⟨"lw x2,0(a0)", "lw", 1, .load "x2" "a0" 0⟩,
      ⟨"addi x2,x2,1", "addi", 2, .arithmeticImmediate .add "x2" "x2" 1⟩,
      ⟨"sw x2,0(a0)", "sw", 3, .store "x2" "a0" 0⟩,
      ⟨"addi x1,x1,-1", "addi", 4, .arithmeticImmediate .add "x1" "x1" (-1)⟩,
      ⟨"bne x1,x0,loop", "bne", 5, .branch .notEqual "x1" "x0" "loop"⟩]
  sections := [⟨"main", [0]⟩, ⟨"loop", [1, 2, 3, 4, 5]⟩]
  initialValues := OrderedMap.insert (OrderedMap.insert .empty "a0" 100) "x0" 0

theorem bases (instruction : Instruction) (hmember : instruction ∈ listing.instructions) (base : String)
    (offset : Int) (hplace : instruction.operation.place? = some (base, offset)) :
    listing.Unwritten base := by
  have hbase : ∀ instruction ∈ listing.instructions,
      ∀ place ∈ instruction.operation.place?, place.1 = "a0" := by decide
  have hunwritten : ∀ writer ∈ listing.instructions, writer.operation.dest? ≠ some "a0" := by decide
  obtain rfl : base = "a0" := hbase instruction hmember (base, offset) hplace
  exact hunwritten

/-- The default machine after some cycles. -/
def state (count : Nat) : State :=
  State.afterCycles listing (listing.initialState {}) count

end Countdown

/-- After the loop the cell has been incremented twice, in both machines. -/
theorem in_order_equivalence_countdown :
    ∃ machine,
      Sequential.run? Countdown.listing
          ⟨Cursor.start Countdown.listing, Countdown.listing.seeded.registers,
            Countdown.listing.seeded.memory⟩ 11 = some machine ∧
        machine.cursor = (Countdown.state 19).cursor ∧
        (∀ name, machine.registers.get name = (Countdown.state 19).registers.get name) ∧
        (∀ address, machine.memory.read address = (Countdown.state 19).memory.read address) ∧
        ((Countdown.state 19).memory.read 100 == some 282) = true := by
  have hsound : Configuration.error? {} = none := by decide
  have hidle : (Countdown.state 19).stations.anyBusy = false := by decide +kernel
  have hfetched : (Countdown.state 19).cursor.fetched = 11 := by decide +kernel
  have hcell : ((Countdown.state 19).memory.read 100 == some 282) = true := by decide +kernel
  obtain ⟨machine, hrun, hcursor, hregisters, hmemory⟩ :=
    in_order_equivalence hsound Countdown.bases (.between (Run.afterCycles 19)) hidle
  exact ⟨machine, hfetched ▸ hrun, hcursor, hregisters, hmemory, hcell⟩

end Tomasulo
