import Tomasulo.Proofs.Grounding

/-!
# What memory holds in program order

Program order gives every cell a value before each position of the order of fetching: what the last store
to it in front of that position stores, or what the cell held at the start (`cellBefore?`).

On a grounded program the machine keeps to it.  At every point of an execution each cell holds what the
last of the stores that have written it has stored (`CellContent`), whatever stores are still missing.
As conflicting accesses are made in order, a load therefore reads its cell as it is in program order
(`Execution.cellBefore?_of_read`), and so is all of memory when no station is in use
(`Execution.cellBefore?_of_idle`).
-/

namespace Tomasulo

/-- The cell that an instruction overwrites if its base holds what it held at the start. -/
def Operation.overwrites? (registers : RegisterFile) : Operation → Option Int
  | .store source base offset => (Operation.store source base offset).cell? registers
  | _ => none

/-- Whether the instruction at a position is a store to a cell. -/
def Cursor.StoresTo (listing : Listing) (registers : RegisterFile) (cursor : Cursor) (x : Int)
    (n : Nat) : Prop :=
  (cursor.instructionAt? listing n).bind (·.operation.overwrites? registers) = some x

instance (listing : Listing) (registers : RegisterFile) (cursor : Cursor) (x : Int) :
    DecidablePred (cursor.StoresTo listing registers x) :=
  fun n => inferInstanceAs (Decidable ((cursor.instructionAt? listing n).bind _ = some x))

/-- The value that the instruction at a position stores, as far as a journal tells. -/
def storedAt? (listing : Listing) (registers : RegisterFile) (journal : List Deed) (cursor : Cursor)
    (n : Nat) : Option Float :=
  ((cursor.instructionAt? listing n).bind (·.operation.second?)).bind
    (valueBefore? listing registers journal cursor · n)

/-- The value of a cell before a position, as far as a journal tells. -/
def cellBefore? (listing : Listing) (initial : State) (journal : List Deed) (cursor : Cursor) (x : Int)
    (n : Nat) : Option Float :=
  match latest? (cursor.StoresTo listing initial.registers x) n with
  | none => initial.memory.read x
  | some m => storedAt? listing initial.registers journal cursor m

/-- What stands in memory for the value of a cell. -/
inductive CellContent (listing : Listing) (initial : State) (journal : List Deed) (cursor : Cursor)
    (memory : Memory) (x : Int) : Prop
  /-- No store has written the cell. -/
  | untouched
      (hnone : ∀ k, cursor.StoresTo listing initial.registers x k → ¬ Accessed journal k)
      (hread : memory.read x = initial.memory.read x)
  /-- The store at a position has written the cell, and no younger one has. -/
  | written {m : Nat} {value : Float} (hstore : cursor.StoresTo listing initial.registers x m)
      (haccessed : Accessed journal m)
      (hlast : ∀ k, cursor.StoresTo listing initial.registers x k → Accessed journal k → k ≤ m)
      (hvalue : storedAt? listing initial.registers journal cursor m = some value)
      (hread : memory.read x = some value)

section Positions

variable {listing : Listing} {registers : RegisterFile} {initial : State} {journal : List Deed}
  {cursor later earlier : Cursor} {memory : Memory} {x : Int} {n m : Nat} {value : Float}

theorem Cursor.storesTo_iff :
    cursor.StoresTo listing registers x n ↔
      ∃ instruction, cursor.instructionAt? listing n = some instruction ∧
        instruction.opClass = .store ∧ instruction.operation.cell? registers = some x := by
  have hoverwrites (operation : Operation) :
      operation.overwrites? registers = some x ↔
        operation.opClass = .store ∧ operation.cell? registers = some x := by
    rw [Operation.opClass_eq_store_iff]
    cases operation <;> simp [Operation.overwrites?, Operation.stationOp?]
  unfold StoresTo
  simp only [Option.bind_eq_some_iff, hoverwrites]
  rfl

theorem Cursor.Extends.storesTo_iff (hlater : later.Extends earlier) (hbound : n < earlier.fetched) :
    later.StoresTo listing registers x n ↔ earlier.StoresTo listing registers x n := by
  unfold Cursor.StoresTo
  rw [hlater.instructionAt? hbound]

/-- What is known of a stored value stays known. -/
theorem storedAt?_mono (hvalue : storedAt? listing registers journal earlier n = some value)
    (hlater : later.Extends earlier) (more : List Deed) :
    storedAt? listing registers (journal ++ more) later n = some value := by
  obtain ⟨source, hsource, hknown⟩ := Option.bind_eq_some_iff.mp hvalue
  obtain ⟨instruction, hat, -⟩ := Option.bind_eq_some_iff.mp hsource
  have hbound := Cursor.lt_fetched hat
  unfold storedAt?
  rw [hlater.instructionAt? hbound, hsource, Option.bind_some]
  exact valueBefore?_mono hknown hlater hbound.le more

/-- What is known of a cell stays known. -/
theorem cellBefore?_mono (hvalue : cellBefore? listing initial journal earlier x n = some value)
    (hlater : later.Extends earlier) (hbound : n ≤ earlier.fetched) (more : List Deed) :
    cellBefore? listing initial (journal ++ more) later x n = some value := by
  have hlast : latest? (later.StoresTo listing initial.registers x) n =
      latest? (earlier.StoresTo listing initial.registers x) n :=
    latest?_congr fun k hk => hlater.storesTo_iff (by omega)
  unfold cellBefore? at hvalue ⊢
  rw [hlast]
  cases hstore : latest? (earlier.StoresTo listing initial.registers x) n with
  | none => simpa [hstore] using hvalue
  | some m =>
      simp only [hstore] at hvalue ⊢
      exact storedAt?_mono hvalue hlater more

/-- A store gives its cell the value that it stores; all other instructions leave cells alone. -/
theorem cellBefore?_succ :
    cellBefore? listing initial journal cursor x (n + 1) =
      if cursor.StoresTo listing initial.registers x n then
        storedAt? listing initial.registers journal cursor n
      else cellBefore? listing initial journal cursor x n := by
  unfold cellBefore?
  by_cases hstore : cursor.StoresTo listing initial.registers x n
  · rw [latest?, if_pos hstore, if_pos hstore]
  · rw [latest?, if_neg hstore, if_neg hstore]

/-- If exactly the stores in front of a position have been carried out, the cell holds its value before
that position. -/
theorem CellContent.read_eq (hcontent : CellContent listing initial journal cursor memory x)
    (hbelow : ∀ k < n, cursor.StoresTo listing initial.registers x k → Accessed journal k)
    (habove : ∀ k, cursor.StoresTo listing initial.registers x k → Accessed journal k → k < n) :
    memory.read x = cellBefore? listing initial journal cursor x n := by
  unfold cellBefore?
  cases hcontent with
  | untouched hnone hread =>
      have hlast : latest? (cursor.StoresTo listing initial.registers x) n = none :=
        latest?_eq_none_iff.mpr fun k hk hstore => hnone k hstore (hbelow k hk hstore)
      rw [hlast, hread]
  | @written m value hstore haccessed hyoungest hvalue hread =>
      have hlast : latest? (cursor.StoresTo listing initial.registers x) n = some m := by
        -- The youngest store that has been carried out is the last one in front of the position.
        refine latest?_eq_some_iff.mpr ⟨habove m hstore haccessed, hstore, ?_⟩
        intro k hlow hhigh hstore'
        have hle := hyoungest k hstore' (hbelow k hhigh hstore')
        omega
      rw [hlast, hread]
      exact hvalue.symm

/-- A cell that was filled at the start is filled. -/
theorem CellContent.exists_value (hcontent : CellContent listing initial journal cursor memory x)
    (hfilled : initial.memory.read x ≠ none) : ∃ value, memory.read x = some value := by
  cases hcontent with
  | untouched _ hread =>
      rw [hread]
      exact Option.ne_none_iff_exists'.mp hfilled
  | written _ _ _ _ hread => exact ⟨_, hread⟩

/-- A cell keeps its content as long as no store to it is carried out. -/
theorem CellContent.keep {deed : Deed} {memory' : Memory}
    (hcontent : CellContent listing initial journal earlier memory x)
    (hlater : later.Extends earlier) (hbounded : ∀ k, Accessed journal k → k < earlier.fetched)
    (hother : later.StoresTo listing initial.registers x deed.seq → deed.access? = none)
    (hread : memory'.read x = memory.read x) :
    CellContent listing initial (journal ++ [deed]) later memory' x := by
  -- Stores to the cell that have been carried out by now had been so before the deed.
  have hbefore {k : Nat} (hstore : later.StoresTo listing initial.registers x k)
      (haccessed : Accessed (journal ++ [deed]) k) :
      earlier.StoresTo listing initial.registers x k ∧ Accessed journal k := by
    rcases accessed_snoc_iff.mp haccessed with hold | ⟨rfl, access, haccess⟩
    · exact ⟨(hlater.storesTo_iff (hbounded k hold)).mp hstore, hold⟩
    · exact absurd ((hother hstore).symm.trans haccess) (by simp)
  cases hcontent with
  | untouched hnone hsame =>
      refine .untouched (fun k hstore haccessed => ?_) (hread.trans hsame)
      obtain ⟨hstore', hold⟩ := hbefore hstore haccessed
      exact hnone k hstore' hold
  | written hstore haccessed hlast hvalue hsame =>
      have hthere := (hlater.storesTo_iff (hbounded _ haccessed)).mpr hstore
      refine .written hthere (haccessed.append _) (fun k hstore' haccessed' => ?_)
        (storedAt?_mono hvalue hlater _) (hread.trans hsame)
      obtain ⟨hstore'', hold⟩ := hbefore hstore' haccessed'
      exact hlast k hstore'' hold

end Positions

section Executions

variable {listing : Listing} {initial frozen state : State} {journal : List Deed} {deed : Deed}
  {todo rest : List Task} {access : Access} {x : Int} {value : Float}

/-- What an access on a grounded program says of its instruction. -/
structure Deed.Accesses (listing : Listing) (initial : State) (deed : Deed) (access : Access)
    (instruction : Instruction) : Prop where
  at_seq : deed.before.cursor.instructionAt? listing deed.seq = some instruction
  cell : instruction.operation.cell? initial.registers = some access.address
  isWrite_iff : access.isWrite = true ↔ instruction.opClass = .store
  filled : access.isWrite = false → initial.memory.read access.address ≠ none

/-- What has been written is what its instruction stores. -/
theorem Execution.storedAt?_of_write (hnow : Execution listing initial frozen journal state todo)
    (hfresh : initial.Fresh) (hdeed : deed ∈ journal)
    (hwrite : deed.access? = some (.write x value)) :
    storedAt? listing initial.registers journal state.cursor deed.seq = some value := by
  obtain ⟨instruction, hat, horder⟩ := hnow.inOrder hfresh hdeed
  obtain ⟨source, hsource, hvalue⟩ := horder.written hwrite
  unfold storedAt?
  rw [hat, Option.bind_some, hsource, Option.bind_some]
  exact hvalue

section Point

variable (hnow : Execution listing initial frozen journal deed.before (deed.task :: rest))
  (hfresh : initial.Fresh) (hgrounded : Grounded listing initial.registers initial.memory)
  (hperforms : deed.Performs listing)

include hnow hfresh hgrounded hperforms

theorem Execution.exists_accesses (haccess : deed.access? = some access) :
    ∃ instruction slot, deed.Accesses listing initial access instruction ∧
      deed.Touches access slot := by
  have hvalid := hnow.valid hfresh.inStep hperforms
  obtain ⟨id, slot, hstation, hslot, htouches⟩ := hvalid.touches haccess
  obtain ⟨instruction, hat, hfits⟩ := hvalid.lifecycle.fits id slot hslot
  rw [← Deed.seq_of_station hstation hslot] at hat
  have hdeed : deed ∈ journal ++ [deed] := List.mem_append_right _ (List.mem_singleton_self _)
  have hcell : instruction.operation.cell? initial.registers = some access.address := by
    refine (hnow.next hperforms).cell?_of_address? hfresh hgrounded hdeed
      (Deed.address?_of_access? haccess) ?_
    rw [hvalid.extends.instructionAt? (Cursor.lt_fetched hat), hat]
  refine ⟨instruction, slot, ⟨hat, hcell, ?_, fun hread => ?_⟩, htouches⟩
  · rw [htouches.write_iff, hfits.opClass_eq_store_iff]
  · have hload : slot.op = .load := by
      refine htouches.isMemory.resolve_right fun hstore => ?_
      simp [htouches.write_iff.mpr hstore] at hread
    obtain ⟨dest, base, offset, hoperation⟩ := hfits.exists_load hload
    exact hgrounded.filled instruction (Cursor.mem_instructions hat) dest base offset _ hoperation hcell

/-- Younger stores to the cell of an access have not been carried out. -/
theorem Execution.lt_of_accessed (haccess : deed.access? = some access) {k : Nat}
    (hstore : deed.before.cursor.StoresTo listing initial.registers access.address k)
    (haccessed : Accessed journal k) : k < deed.seq := by
  have honce := hnow.not_accessed_twice hfresh hperforms haccess
  obtain ⟨instruction, _, haccesses, -⟩ :=
    hnow.exists_accesses hfresh hgrounded hperforms haccess
  obtain ⟨younger, hat, hclass, hcell⟩ := Cursor.storesTo_iff.mp hstore
  rcases Nat.lt_trichotomy k deed.seq with hlt | rfl | hgt
  · exact hlt
  · exact absurd haccessed honce
  · -- The present access would have had to come first.
    have hearlier : Accessed journal deed.seq :=
      hnow.accessed_in_order hfresh hgrounded hgt haccesses.at_seq hat haccesses.cell hcell
        (.inr hclass) haccessed
    exact absurd hearlier honce

/-- Older stores to the cell of an access have been carried out. -/
theorem Execution.accessed_of_lt (haccess : deed.access? = some access) {k : Nat}
    (hstore : deed.before.cursor.StoresTo listing initial.registers access.address k)
    (hlt : k < deed.seq) : Accessed journal k := by
  obtain ⟨older, hat, hclass, hcell⟩ := Cursor.storesTo_iff.mp hstore
  exact hnow.accessed_of_access hfresh hperforms haccess hgrounded hlt hat hcell (.inl hclass)

/-- Carrying out a task keeps every cell in step with the stores that have been carried out. -/
theorem CellContent.act
    (hcontent : CellContent listing initial journal deed.before.cursor deed.before.memory x) :
    CellContent listing initial (journal ++ [deed]) deed.after.cursor deed.after.memory x := by
  have hvalid := hnow.valid hfresh.inStep hperforms
  have hextends := hvalid.extends
  have hbounded (k : Nat) (haccessed : Accessed journal k) : k < deed.before.cursor.fetched := by
    obtain ⟨other, hother, rfl, -⟩ := haccessed
    exact (hnow.ledger hfresh).bounded other hother
  cases haccess : deed.access? with
  | none =>
      have hsame := hvalid.memory_eq haccess
      exact hcontent.keep hextends hbounded (fun _ => haccess) (by rw [hsame])
  | some access =>
      obtain ⟨instruction, slot, haccesses, htouches⟩ :=
        hnow.exists_accesses hfresh hgrounded hperforms haccess
      have hat : deed.after.cursor.instructionAt? listing deed.seq = some instruction := by
        rw [hextends.instructionAt? (Cursor.lt_fetched haccesses.at_seq), haccesses.at_seq]
      -- Only the store that is being carried out can be one to the cell.
      have hstores (hstore : deed.after.cursor.StoresTo listing initial.registers x deed.seq) :
          access.isWrite = true ∧ x = access.address := by
        obtain ⟨instruction', hat', hclass, hcell⟩ := Cursor.storesTo_iff.mp hstore
        obtain rfl := Option.some.inj (hat.symm.trans hat')
        exact ⟨haccesses.isWrite_iff.mpr hclass, Option.some.inj (hcell.symm.trans haccesses.cell)⟩
      by_cases hwrites : access.isWrite = true ∧ x = access.address
      case neg =>
        refine hcontent.keep hextends hbounded (fun hstore => absurd (hstores hstore) hwrites) ?_
        rw [htouches.memory]
        by_cases hx : x = access.address
        · -- Reading a cell that is filled changes nothing.
          have hread : access.isWrite = false := by simpa [hx] using hwrites
          obtain ⟨held, hheld⟩ := hcontent.exists_value (hx ▸ haccesses.filled hread)
          rw [if_pos hx, hheld, htouches.found hread held (hx ▸ hheld)]
        · rw [if_neg hx]
      case pos =>
        obtain ⟨hwrite, rfl⟩ := hwrites
        have hstore : deed.after.cursor.StoresTo listing initial.registers access.address deed.seq :=
          Cursor.storesTo_iff.mpr ⟨instruction, hat, haccesses.isWrite_iff.mp hwrite, haccesses.cell⟩
        have hvalue : storedAt? listing initial.registers (journal ++ [deed]) deed.after.cursor deed.seq =
            some access.value := by
          have hdeed : deed ∈ journal ++ [deed] := List.mem_append_right _ (List.mem_singleton_self _)
          cases access with
          | read address held => exact absurd hwrite (by simp [Access.isWrite])
          | write address held => exact (hnow.next hperforms).storedAt?_of_write hfresh hdeed haccess
        refine .written hstore (accessed_snoc_iff.mpr (.inr ⟨rfl, access, haccess⟩)) ?_ hvalue ?_
        · intro k hstore' haccessed
          rcases accessed_snoc_iff.mp haccessed with hold | ⟨hseq, -⟩
          · have hstore'' := (hextends.storesTo_iff (hbounded k hold)).mp hstore'
            have hlt := hnow.lt_of_accessed hfresh hgrounded hperforms haccess hstore'' hold
            omega
          · omega
        · rw [htouches.memory, if_pos rfl]

end Point

/-- At every point of an execution on a grounded program, every cell holds what the last of the stores
that have been carried out has written. -/
theorem Execution.cellContent (hnow : Execution listing initial frozen journal state todo)
    (hfresh : initial.Fresh) (hgrounded : Grounded listing initial.registers initial.memory)
    (x : Int) : CellContent listing initial journal state.cursor state.memory x := by
  induction hnow with
  | start => exact .untouched (fun _ _ haccessed => absurd haccessed (by simp [Accessed])) rfl
  | tick _ ih => exact ih
  | pass _ _ ih => exact ih
  | @act frozen state after journal task todo event hnow hperform ih =>
      have hperforms :
          Deed.Performs listing ⟨task, state, event, after.note event.codeOrder event.action⟩ :=
        ⟨after, hperform, rfl⟩
      exact CellContent.act hnow hfresh hgrounded hperforms ih

/-- A load reads the value of its cell before its own position. -/
theorem Execution.cellBefore?_of_read (hnow : Execution listing initial frozen journal state todo)
    (hfresh : initial.Fresh) (hgrounded : Grounded listing initial.registers initial.memory)
    (hdeed : deed ∈ journal) (hread : deed.access? = some (.read x value)) :
    cellBefore? listing initial journal state.cursor x deed.seq = some value := by
  obtain ⟨hlater, hadvanced⟩ := hnow.extends hfresh.delays hdeed
  obtain ⟨_, past, later, _, rfl, hthen, hperforms⟩ := hnow.mem_journal hdeed
  obtain ⟨_, _, haccesses, htouches⟩ :=
    hthen.exists_accesses hfresh hgrounded hperforms hread
  have hcontent := hthen.cellContent hfresh hgrounded x
  obtain ⟨held, hheld⟩ := hcontent.exists_value (haccesses.filled rfl)
  have hvalue : value = held := htouches.found rfl held hheld
  have hcell : deed.before.memory.read x =
      cellBefore? listing initial past deed.before.cursor x deed.seq :=
    hcontent.read_eq
      (fun k hlt hstore => hthen.accessed_of_lt hfresh hgrounded hperforms hread hstore hlt)
      fun k hstore haccessed =>
        hthen.lt_of_accessed hfresh hgrounded hperforms hread hstore haccessed
  refine cellBefore?_mono ?_ (hlater.trans hadvanced) (Cursor.lt_fetched haccesses.at_seq).le _
  rw [← hcell, hheld, hvalue]

/-- When no station is in use, all loads and stores that have been fetched have made their access. -/
theorem Execution.accessed_of_idle (hnow : Execution listing initial frozen journal state todo)
    (hfresh : initial.Fresh) (hidle : state.stations.anyBusy = false) {n : Nat}
    {instruction : Instruction} {place : String × Int}
    (hat : state.cursor.instructionAt? listing n = some instruction)
    (hplace : instruction.operation.place? = some place) : Accessed journal n := by
  rcases (hnow.ledger hfresh).held n instruction place hat hplace with haccessed | ⟨id, slot, hslot, -⟩
  · exact haccessed
  · rw [Pool.anyBusy_eq_false_iff.mp hidle] at hslot
    exact absurd hslot (by simp)

/-- When no station is in use, memory is what program order makes of it. -/
theorem Execution.cellBefore?_of_idle (hnow : Execution listing initial frozen journal state todo)
    (hfresh : initial.Fresh) (hgrounded : Grounded listing initial.registers initial.memory)
    (hidle : state.stations.anyBusy = false) (x : Int) :
    state.memory.read x = cellBefore? listing initial journal state.cursor x state.cursor.fetched := by
  refine (hnow.cellContent hfresh hgrounded x).read_eq ?_ ?_
  · intro k _ hstore
    obtain ⟨instruction, hat, -, hcell⟩ := Cursor.storesTo_iff.mp hstore
    obtain ⟨place, hplace, -⟩ := Option.bind_eq_some_iff.mp hcell
    exact hnow.accessed_of_idle hfresh hidle hat hplace
  · intro k hstore _
    obtain ⟨instruction, hat, -⟩ := Cursor.storesTo_iff.mp hstore
    exact Cursor.lt_fetched hat

end Executions

end Tomasulo
