import Tomasulo.Proofs.MemoryOrder
import Tomasulo.Proofs.Seeding

/-!
# Programs that do not compute addresses

In many programs the base of every load and store is a register that no instruction writes.  Such a
program is `Grounded` on registers and memory if all of its bases hold a value and all of the cells that
it reads are filled; after seeding it always is (`Listing.grounded_seeded`).

Every base is then ready when its instruction is issued, and as only the oldest address of all that are
missing is computed in a cycle, addresses are computed in the order of fetching
(`Execution.located_in_order`).  So the guards of a load or store never meet an older one without an
address, and conflicting accesses to one cell are made in order (`Execution.accessed_in_order`).
-/

namespace Tomasulo

/-- The cell that an instruction accesses if its base holds what it held at the start. -/
def Operation.cell? (registers : RegisterFile) (operation : Operation) : Option Int :=
  operation.address? fun name => (registers.get name).value?

/-- No base of a load or store is ever written, all bases hold values, and the cells of all loads are
filled. -/
structure Grounded (listing : Listing) (registers : RegisterFile) (memory : Memory) : Prop where
  unwritten : ∀ instruction ∈ listing.instructions, ∀ base offset,
    instruction.operation.place? = some (base, offset) → listing.Unwritten base
  ready : ∀ instruction ∈ listing.instructions, ∀ base offset,
    instruction.operation.place? = some (base, offset) →
      ∃ value, registers.get base = .ready value
  filled : ∀ instruction ∈ listing.instructions, ∀ dest base offset x,
    instruction.operation = .load dest base offset →
      instruction.operation.cell? registers = some x → memory.read x ≠ none

theorem Operation.mem_sources_of_place? {operation : Operation} {base : String} {offset : Int}
    (hplace : operation.place? = some (base, offset)) : base ∈ operation.sources := by
  have hoperand : base ∈ operation.operands := by
    cases operation <;> simp_all [place?, operands]
  rw [sources, List.mem_eraseDups]
  exact hoperand

/-- Seeding grounds every program that does not write its bases. -/
theorem Listing.grounded_seeded {listing : Listing}
    (hunwritten : ∀ instruction ∈ listing.instructions, ∀ base offset,
      instruction.operation.place? = some (base, offset) → listing.Unwritten base) :
    Grounded listing listing.seeded.registers listing.seeded.memory where
  unwritten := hunwritten
  ready instruction hmember base offset hplace :=
    listing.seeded_ready hmember (Operation.mem_sources_of_place? hplace)
      (hunwritten instruction hmember base offset hplace)
  filled instruction hmember dest base offset x hload hcell := by
    have hplace : instruction.operation.place? = some (base, offset) := by rw [hload]; rfl
    obtain ⟨value, hvalue, hfilled⟩ := listing.seeded_filled hmember hload
      (hunwritten instruction hmember base offset hplace)
    rw [Operation.cell?, Operation.address?_eq hplace, hvalue] at hcell
    obtain rfl := Option.some.inj hcell
    exact hfilled

section Static

variable {listing : Listing} {registers : RegisterFile} {memory : Memory} {journal : List Deed}
  {cursor : Cursor} {name : String} {n : Nat} {instruction : Instruction}

theorem Cursor.mem_instructions (hat : cursor.instructionAt? listing n = some instruction) :
    instruction ∈ listing.instructions := by
  obtain ⟨codeOrder, -, hinstruction⟩ := Option.bind_eq_some_iff.mp hat
  exact List.mem_of_getElem? hinstruction

/-- A register that no instruction writes keeps its initial content. -/
theorem Listing.Unwritten.lastWriter?_eq_none (hunwritten : listing.Unwritten name) (cursor : Cursor)
    (n : Nat) : cursor.lastWriter? listing name n = none := by
  refine latest?_eq_none_iff.mpr ?_
  intro k _ hwrites
  obtain ⟨writer, hat, hdest⟩ := Option.bind_eq_some_iff.mp hwrites
  exact hunwritten writer (Cursor.mem_instructions hat) hdest

theorem Listing.Unwritten.contentBefore?_eq (hunwritten : listing.Unwritten name) :
    contentBefore? listing registers journal cursor name n = some (registers.get name) := by
  unfold contentBefore?
  rw [hunwritten.lastWriter?_eq_none]

theorem Listing.Unwritten.valueBefore?_eq (hunwritten : listing.Unwritten name) :
    valueBefore? listing registers journal cursor name n = (registers.get name).value? := by
  rw [valueBefore?, hunwritten.contentBefore?_eq, Option.bind_some]

/-- The address of an instruction does not depend on its position. -/
theorem Grounded.address?_eq_cell? (hgrounded : Grounded listing registers memory)
    (hmember : instruction ∈ listing.instructions) :
    instruction.operation.address? (valueBefore? listing registers journal cursor · n) =
      instruction.operation.cell? registers := by
  cases hplace : instruction.operation.place? with
  | none => simp [Operation.cell?, Operation.address?, hplace]
  | some place =>
      obtain ⟨base, offset⟩ := place
      have hunwritten := hgrounded.unwritten instruction hmember base offset hplace
      rw [Operation.cell?, Operation.address?_eq hplace, Operation.address?_eq hplace,
        hunwritten.valueBefore?_eq]

end Static

section InOrder

variable {listing : Listing} {initial frozen state : State} {journal done : List Deed} {deed : Deed}
  {todo rest : List Task} {id delay a b : Nat} {x : Int} {slot : Slot}
  {instruction older younger : Instruction} {place : String × Int}

/-- An address in the journal is the cell of its instruction. -/
theorem Execution.cell?_of_address? (hnow : Execution listing initial frozen journal state todo)
    (hfresh : initial.Fresh) (hgrounded : Grounded listing initial.registers initial.memory)
    (hdeed : deed ∈ journal) (haddress : deed.address? = some x)
    (hat : state.cursor.instructionAt? listing deed.seq = some instruction) :
    instruction.operation.cell? initial.registers = some x := by
  have hmember := Cursor.mem_instructions hat
  rw [← hgrounded.address?_eq_cell? hmember]
  exact hnow.address?_of_deed hfresh hdeed haddress hat

/-- The base of a load or store in a station is ready. -/
theorem Dataflow.base_ready (hflow : Dataflow listing initial.registers journal state)
    (hgrounded : Grounded listing initial.registers initial.memory)
    (hslot : state.stations.slot? id = some slot)
    (hat : state.cursor.instructionAt? listing slot.seq = some instruction)
    (hplace : instruction.operation.place? = some place) : ∃ value, slot.j = .ready value := by
  obtain ⟨base, offset⟩ := place
  have hmember := Cursor.mem_instructions hat
  have hunwritten := hgrounded.unwritten instruction hmember base offset hplace
  obtain ⟨value, hvalue⟩ := hgrounded.ready instruction hmember base offset hplace
  have hfirst := Operation.first?_of_place? hplace
  obtain ⟨register, hcontent, hj⟩ := (hflow.operands id slot instruction hslot hat).1 base hfirst
  refine ⟨value, ?_⟩
  cases hcontent with
  | known hknown =>
      rw [hunwritten.contentBefore?_eq] at hknown
      rw [hj, ← Option.some.inj hknown, hvalue]
      rfl
  -- Nobody writes the base, so there is nothing to wait for.
  | awaited hlast _ =>
      rw [hunwritten.lastWriter?_eq_none] at hlast
      exact absurd hlast (by simp)

/-- When an address is planned to be computed, the addresses of all older loads and stores are there. -/
theorem Execution.located_of_planned (hstart : Execution listing initial frozen journal frozen todo)
    (hfresh : initial.Fresh) (hgrounded : Grounded listing initial.registers initial.memory)
    (hplanned : .locate id ∈ (frozen.plan listing).tasks)
    (hslot : frozen.stations.slot? id = some slot)
    (hat : frozen.cursor.instructionAt? listing a = some older)
    (hplace : older.operation.place? = some place) (hlt : a < slot.seq) :
    ∃ y, Located journal a y := by
  have hledger := hstart.ledger hfresh
  by_cases haccessed : Accessed journal a
  · exact haccessed.located
  · obtain ⟨other, waiting, hwaiting, rfl, hfits, hmemory, -⟩ :=
      hstart.exists_waiting hfresh hat hplace haccessed
    by_contra hmissing
    have hnone : waiting.effective? = none := by
      by_contra hsome
      exact hmissing ((hledger.known other waiting hwaiting).mpr hsome)
    -- So the older instruction could compute its address as well, and would come first.
    have hready := (hstart.dataflow hfresh).base_ready hgrounded hwaiting hat hplace
    have hstep : waiting.step = frozen.stations.delay other := by
      obtain ⟨base, offset, -, ⟨-, hstep⟩ | ⟨-, _, -, heffective⟩⟩ := hfits.accessing hmemory
      · exact hstep
      · simp [Slot.effective?, heffective, Address.effective?] at hnone
    have hfirst := seq_le_of_locate_mem_plan hplanned hslot hwaiting ⟨hmemory, hstep, hnone, hready⟩
    omega

/-- Addresses are computed in the order of fetching. -/
theorem Execution.located_in_order (hnow : Execution listing initial frozen journal state todo)
    (hfresh : initial.Fresh) (hgrounded : Grounded listing initial.registers initial.memory)
    (hlt : a < b) (hat : state.cursor.instructionAt? listing a = some older)
    (hplace : older.operation.place? = some place) (hlocated : Located journal b x) :
    ∃ y, Located journal a y := by
  induction hnow generalizing x with
  | start => exact absurd hlocated (by simp [Located])
  | tick _ ih => exact ih hat hlocated
  | pass _ _ ih => exact ih hat hlocated
  | @act frozen state after journal task todo event hnow hperform ih =>
      have hunderway := hnow.underway hfresh.delays
      have hledger := hnow.ledger hfresh
      have hvalid : Deed.Valid listing ⟨task, state, event, after.note event.codeOrder event.action⟩ :=
        hnow.valid hfresh.inStep ⟨after, hperform, rfl⟩
      have hearlier (hbound : b < state.cursor.fetched) :
          state.cursor.instructionAt? listing a = some older := by
        rw [← hvalid.extends.instructionAt? (show a < state.cursor.fetched by omega)]
        exact hat
      rcases located_snoc_iff.mp hlocated with hold | ⟨hseq, haddress⟩
      · obtain ⟨deed, hdeed, hb, -⟩ := id hold
        have hbound := hledger.bounded deed hdeed
        obtain ⟨y, hy⟩ := ih (hearlier (by omega)) hold
        exact ⟨y, hy.append _⟩
      · obtain ⟨site, slot, hstation, hslot, hwhat⟩ := hvalid.locates_or_located haddress
        rw [Deed.seq_of_station hstation hslot] at hseq
        have hbound : slot.seq < state.cursor.fetched := hvalid.lifecycle.seq_lt hslot
        rcases hwhat with htask | heffective
        · -- The choice was made on the state at the beginning of the cycle.
          obtain ⟨before, done, tasks, rfl, hstart⟩ := hnow.begun
          obtain ⟨old, hold, hsame, -⟩ :=
            hunderway.kept task (List.mem_cons_self ..) site slot hstation hslot
          have hplanned : .locate site ∈ (frozen.plan listing).tasks := by
            have htask' : task = .locate site := htask
            rw [← htask']
            exact hunderway.planned task (List.mem_cons_self ..)
          have hfetched := (hstart.lifecycle hfresh.free hfresh.delays).seq_lt hold
          have hat' : frozen.cursor.instructionAt? listing a = some older := by
            rw [← hunderway.advanced.instructionAt? (by omega)]
            exact hearlier (by omega)
          obtain ⟨y, hy⟩ :=
            hstart.located_of_planned hfresh hgrounded hplanned hold hat' hplace (by omega)
          exact ⟨y, (hy.append done).append _⟩
        · obtain ⟨z, hz⟩ := (hledger.known site slot hslot).mpr (by rw [heffective]; simp)
          obtain ⟨y, hy⟩ := ih (hearlier (by omega)) (hseq ▸ hz)
          exact ⟨y, hy.append _⟩

section Point

variable {access : Access}
  (hnow : Execution listing initial frozen journal deed.before (deed.task :: rest))
  (hfresh : initial.Fresh) (hperforms : deed.Performs listing)
  (haccess : deed.access? = some access)

include hnow hfresh hperforms haccess

/-- Nothing makes its access twice. -/
theorem Execution.not_accessed_twice : ¬ Accessed journal deed.seq := by
  intro htwice
  obtain ⟨id, slot, hstation, hslot, htouches⟩ := (hnow.valid hfresh.inStep hperforms).touches haccess
  rw [Deed.seq_of_station hstation hslot] at htwice
  have hresult := (hnow.ledger hfresh).unread id slot hslot htouches.isMemory htwice
  exact hresult htouches.pending

/-- When an access is made, all older ones to its cell that conflict with it have been made. -/
theorem Execution.accessed_of_access
    (hgrounded : Grounded listing initial.registers initial.memory) (hlt : a < deed.seq)
    (hat : deed.before.cursor.instructionAt? listing a = some older)
    (hcell : older.operation.cell? initial.registers = some access.address)
    (hconflict : older.opClass = .store ∨ access.isWrite = true) : Accessed journal a := by
  by_contra hnot
  have hunderway := hnow.underway hfresh.delays
  have hvalid := hnow.valid hfresh.inStep hperforms
  obtain ⟨id, slot, hstation, hslot, hwhat⟩ :=
    hvalid.locates_or_located (Deed.address?_of_access? haccess)
  have hdeed := Deed.seq_of_station hstation hslot
  obtain ⟨younger, hyounger, -⟩ := hvalid.lifecycle.fits id slot hslot
  obtain ⟨place, hplace, -⟩ := Option.bind_eq_some_iff.mp hcell
  obtain ⟨old, hold, hseq, -, haddress⟩ :=
    hunderway.kept deed.task (List.mem_cons_self ..) id slot hstation hslot
  have hplanned := hunderway.planned deed.task (List.mem_cons_self ..)
  obtain ⟨before, done, tasks, rfl, hstart⟩ := hnow.begun
  have hbound := (hstart.lifecycle hfresh.free hfresh.delays).seq_lt hold
  have hat' : frozen.cursor.instructionAt? listing a = some older := by
    rw [← hunderway.advanced.instructionAt? (by omega)]
    exact hat
  -- Without an access, the older instruction would have no address at the beginning of the cycle.
  have hunlocated : frozen.Unlocated a := by
    refine (hstart.unlocated_of_access hnow hfresh hperforms haccess hat hplace
      (hdeed ▸ hyounger) hlt hconflict (fun y hy => ?_) hnot).1
    rw [hgrounded.address?_eq_cell? (Cursor.mem_instructions hat), hcell] at hy
    exact (Option.some.inj hy).symm
  have hledger := hstart.ledger hfresh
  have hlocated : ∃ y, Located before a y := by
    rcases hwhat with htask | heffective
    · exact hstart.located_of_planned hfresh hgrounded (htask ▸ hplanned) hold hat' hplace (by omega)
    · have hthen : old.effective? ≠ none := by
        rw [Slot.effective?, ← haddress]
        rw [Slot.effective?] at heffective
        simp [heffective]
      obtain ⟨y, hy⟩ := (hledger.known id old hold).mpr hthen
      exact hstart.located_in_order hfresh hgrounded (by omega) hat' hplace hy
  obtain ⟨other, waiting, hwaiting, rfl, hnone⟩ := hunlocated
  exact (hledger.known other waiting hwaiting).mp hlocated hnone

end Point

/-- Of two conflicting accesses to one cell the older one is made first. -/
theorem Execution.accessed_in_order (hnow : Execution listing initial frozen journal state todo)
    (hfresh : initial.Fresh) (hgrounded : Grounded listing initial.registers initial.memory)
    (hlt : a < b) (hat : state.cursor.instructionAt? listing a = some older)
    (hat' : state.cursor.instructionAt? listing b = some younger)
    (hcell : older.operation.cell? initial.registers = some x)
    (hcell' : younger.operation.cell? initial.registers = some x)
    (hconflict : older.opClass = .store ∨ younger.opClass = .store)
    (haccessed : Accessed journal b) : Accessed journal a := by
  obtain ⟨deed, hdeed, rfl, access, haccess⟩ := haccessed
  have hextends := hnow.extends hfresh.delays hdeed
  have haddress := hnow.cell?_of_address? hfresh hgrounded hdeed (Deed.address?_of_access? haccess) hat'
  obtain rfl := Option.some.inj (haddress.symm.trans hcell')
  obtain ⟨_, past, later, _, rfl, hthen, hperforms⟩ := hnow.mem_journal hdeed
  have hvalid := hthen.valid hfresh.inStep hperforms
  -- Both instructions had been fetched when the younger one made its access.
  obtain ⟨id, slot, hstation, hslot, htouches⟩ := hvalid.touches haccess
  have hseq := Deed.seq_of_station hstation hslot
  have hbound := hvalid.lifecycle.seq_lt hslot
  have hearlier {n : Nat} (hn : n < deed.before.cursor.fetched) :
      deed.before.cursor.instructionAt? listing n = state.cursor.instructionAt? listing n :=
    ((hextends.1.trans hextends.2).instructionAt? hn).symm
  have holder := (hearlier (show a < deed.before.cursor.fetched by omega)).trans hat
  have hwrite : younger.opClass = .store → access.isWrite = true := by
    intro hstore
    have hyounger := (hearlier (by omega)).trans hat'
    rw [hseq] at hyounger
    have hfits := hvalid.lifecycle.fits_at hslot hyounger
    exact htouches.write_iff.mpr (hfits.opClass_eq_store_iff.mp hstore)
  have hthere := hthen.accessed_of_access hfresh hperforms haccess hgrounded hlt holder hcell
    (hconflict.imp_right hwrite)
  exact hthere.append _

end InOrder

end Tomasulo
