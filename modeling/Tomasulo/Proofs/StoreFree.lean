import Tomasulo.Proofs.Completion
import Tomasulo.Proofs.InOrder
import Tomasulo.Proofs.MemoryHistory

/-!
# Programs without stores

Where nothing is stored a cell never changes once it holds a value: it holds what was seeded, or the sample
of the load that discovered it (`Found`).  This sample depends on the destination of the load, and which of
two loads comes to a cell first depends on the machine.

Apart from that all machines agree (`store_free_results_iff`).  On the memory that a run ends with, its
registers are those of the sequential machine, which come to the same values on all memories that do not
contradict each other (`Sequential.Alike`); and the cells that hold values are those that the sequential
machine reads.
-/

namespace Tomasulo

/-- Whether a listing contains no store. -/
def Listing.StoreFree (listing : Listing) : Prop :=
  ∀ instruction ∈ listing.instructions, instruction.opClass ≠ .store

instance (listing : Listing) : Decidable listing.StoreFree :=
  inferInstanceAs (Decidable (∀ instruction ∈ listing.instructions, instruction.opClass ≠ .store))

/-- Whether a deed reads a cell that holds no value yet. -/
def Deed.Discovers (deed : Deed) (address : Int) : Prop :=
  deed.before.memory.read address = none ∧ ∃ value, deed.access? = some (.read address value)

/-- What memory holds if nothing was stored: what it held at the start, and what loads have read. -/
structure Found (listing : Listing) (initial : Memory) (journal : List Deed) (memory : Memory) : Prop where
  kept : ∀ address value, initial.read address = some value → memory.read address = some value
  read : ∀ deed ∈ journal, ∀ address value, deed.access? = some (.read address value) →
    memory.read address = some value
  origin : ∀ address value, memory.read address = some value →
    initial.read address = some value ∨
      ∃ deed ∈ journal, deed.Discovers address ∧ value = deed.sample listing

/-! ## Cells that are never overwritten -/

section Deeds

variable {listing : Listing} {deed : Deed} {access : Access} {address : Int} {value : Float}

/-- A load that discovers a cell finds its own sample there. -/
theorem Deed.Valid.eq_sample (hvalid : deed.Valid listing)
    (hempty : deed.before.memory.read address = none)
    (hread : deed.access? = some (.read address value)) : value = deed.sample listing := by
  rcases hvalid.fills_or_writes hread with ⟨_, hsame, -⟩ | ⟨_, _, hsame, -⟩
  · obtain ⟨rfl, rfl⟩ := Access.read.inj hsame
    rw [Memory.readOr, hempty, Option.getD_none]
  · exact Access.noConfusion hsame

variable (hfree : listing.StoreFree)

include hfree

theorem Deed.Valid.exists_read (hvalid : deed.Valid listing) (haccess : deed.access? = some access) :
    ∃ address value, access = .read address value := by
  obtain ⟨id, slot, -, hslot, htouches⟩ := hvalid.touches haccess
  obtain ⟨instruction, hat, hfits⟩ := hvalid.lifecycle.fits id slot hslot
  cases access with
  | read address value => exact ⟨address, value, rfl⟩
  | write address value =>
      have hclass := hfits.opClass_eq_store_iff.mpr (htouches.write_iff.mp rfl)
      exact absurd hclass (hfree instruction (Cursor.mem_instructions hat))

theorem Deed.Valid.read_kept (hvalid : deed.Valid listing)
    (hread : deed.before.memory.read address = some value) :
    deed.after.memory.read address = some value := by
  cases haccess : deed.access? with
  | none => rwa [hvalid.memory_eq haccess]
  | some access =>
      obtain ⟨_, _, rfl⟩ := hvalid.exists_read hfree haccess
      exact (hvalid.careful.read _ _ haccess).1 address value hread

end Deeds

section Executions

variable {listing : Listing} {initial frozen state : State} {journal : List Deed} {todo : List Task}
  {deed : Deed} {address : Int} {value : Float}

/-- A cell keeps the value that it was given first. -/
theorem Execution.found (hnow : Execution listing initial frozen journal state todo)
    (hfresh : initial.Fresh) (hfree : listing.StoreFree) :
    Found listing initial.memory journal state.memory := by
  refine hnow.of_deeds (motive := fun journal state => Found listing initial.memory journal state.memory)
    hfresh ⟨fun _ _ h => h, by simp, fun _ _ h => .inl h⟩ (fun ih => ih) ?_
  intro frozen journal rest deed _ hvalid ih
  refine ⟨fun x v h => hvalid.read_kept hfree (ih.kept x v h), fun other hother x v hread => ?_,
    fun x v hthere => ?_⟩
  · rcases List.mem_append.mp hother with hold | hnew
    · exact hvalid.read_kept hfree (ih.read other hold x v hread)
    · obtain rfl := List.mem_singleton.mp hnew
      rw [Memory.read_eq_some_iff, hvalid.find?_of_access hread, Access.address, if_pos rfl]
      rfl
  · -- A value that was not there before is what the deed has just read.
    have hbefore (h : deed.before.memory.read x = some v) :
        initial.memory.read x = some v ∨
          ∃ deed' ∈ journal ++ [deed], deed'.Discovers x ∧ v = deed'.sample listing := by
      rcases ih.origin x v h with hinitial | ⟨other, hother, hwhat⟩
      · exact .inl hinitial
      · exact .inr ⟨other, List.mem_append_left _ hother, hwhat⟩
    cases haccess : deed.access? with
    | none => exact hbefore (hvalid.memory_eq haccess ▸ hthere)
    | some access =>
        obtain ⟨y, w, rfl⟩ := hvalid.exists_read hfree haccess
        obtain ⟨_, _, -, -, htouches⟩ := hvalid.touches haccess
        rw [htouches.memory x, Access.address] at hthere
        split at hthere
        case isFalse => exact hbefore hthere
        case isTrue hsame =>
          subst hsame
          obtain rfl := Option.some.inj hthere
          cases hempty : deed.before.memory.read x with
          | none =>
              exact .inr ⟨deed, List.mem_append_right _ (List.mem_singleton_self _),
                ⟨hempty, w, haccess⟩, hvalid.eq_sample hempty haccess⟩
          | some held => exact hbefore (hempty.trans (congrArg some (htouches.found rfl held hempty).symm))

/-- A cell goes on holding the sample of the load that discovered it. -/
theorem Execution.read_of_discovers (hnow : Execution listing initial frozen journal state todo)
    (hfresh : initial.Fresh) (hfree : listing.StoreFree) (hdeed : deed ∈ journal)
    (hdiscovers : deed.Discovers address) : state.memory.read address = some (deed.sample listing) := by
  obtain ⟨hempty, value, hread⟩ := hdiscovers
  obtain ⟨_, _, _, _, -, hthen, hperforms⟩ := hnow.mem_journal hdeed
  rw [← (hthen.valid hfresh.inStep hperforms).eq_sample hempty hread]
  exact (hnow.found hfresh hfree).read deed hdeed address value hread

end Executions

/-! ## Sequential machines on different memories -/

/-- Whether two memories never hold different values in one cell. -/
def Memory.Compatible (memory other : Memory) : Prop :=
  ∀ address value value', memory.read address = some value → other.read address = some value' →
    value = value'

namespace Sequential

/-- The address that the next instruction computes, if it is a load or store. -/
def target? (listing : Listing) (machine : Sequential) : Option Int :=
  (machine.cursor.next? listing).bind fun instruction => instruction.operation.address? machine.value?

/-- Whether two machines stand at the same point with the same registers, on memories that do not
contradict each other. -/
structure Alike (machine other : Sequential) : Prop where
  cursor : machine.cursor = other.cursor
  registers : machine.registers = other.registers
  memory : machine.memory.Compatible other.memory

variable {listing : Listing} {machine other after after' : Sequential} {count fewer : Nat}

theorem Alike.target?_eq (halike : machine.Alike other) :
    machine.target? listing = other.target? listing := by
  have hvalue : machine.value? = other.value? := by
    funext name
    rw [value?, value?, halike.registers]
  rw [target?, target?, halike.cursor, hvalue]

/-- Machines that are alike do alike, as long as nothing is stored. -/
theorem Alike.step (halike : machine.Alike other) (hfree : listing.StoreFree)
    (hafter : machine.step? listing = some after) (hafter' : other.step? listing = some after') :
    after.Alike after' := by
  obtain ⟨cursor, registers, memory⟩ := machine
  obtain ⟨_, _, memory'⟩ := other
  obtain ⟨rfl, rfl, hcompatible⟩ := halike
  obtain ⟨instruction, hnext, hperform⟩ := Option.bind_eq_some_iff.mp hafter
  obtain ⟨instruction', hnext', hperform'⟩ := Option.bind_eq_some_iff.mp hafter'
  obtain rfl := Option.some.inj (hnext.symm.trans hnext')
  have hclass : instruction.opClass ≠ .store := by
    obtain ⟨codeOrder, -, hinstruction⟩ := Cursor.exists_current_of_next? hnext
    exact hfree instruction (List.mem_of_getElem? hinstruction)
  have halike (cursor : Cursor) (registers : RegisterFile) :
      Alike ⟨cursor, registers, memory⟩ ⟨cursor, registers, memory'⟩ := ⟨rfl, rfl, hcompatible⟩
  cases hoperation : instruction.operation with
  | store => exact absurd (Instruction.opClass_of_store hoperation) hclass
  | load dest base offset =>
      simp only [hoperation, perform?, value?, Option.bind_eq_bind, Option.bind_eq_some_iff, Option.pure_def,
        Option.some.injEq] at hperform hperform'
      obtain ⟨baseValue, hbase, value, hread, rfl⟩ := hperform
      obtain ⟨baseValue', hbase', value', hread', rfl⟩ := hperform'
      obtain rfl := Option.some.inj (hbase.symm.trans hbase')
      obtain rfl := hcompatible _ _ _ hread hread'
      exact halike _ _
  | loadImmediate | jump =>
      simp only [hoperation, perform?, Option.pure_def, Option.some.injEq] at hperform hperform'
      subst hperform hperform'
      exact halike _ _
  | arithmetic | arithmeticImmediate | branch =>
      simp only [hoperation, perform?, value?, Option.bind_eq_bind, Option.bind_eq_some_iff, Option.pure_def,
        Option.some.injEq] at hperform hperform'
      grind [Alike, give, steer]

/-- What has been carried out at the end has been carried out in steps. -/
theorem exists_run?_of_le (hrun : machine.run? listing count = some after) (hle : fewer ≤ count) :
    ∃ between, machine.run? listing fewer = some between := by
  induction count, hle using Nat.le_induction generalizing after with
  | base => exact ⟨after, hrun⟩
  | succ count _ ih =>
      obtain ⟨between, hbetween, -⟩ := Option.bind_eq_some_iff.mp hrun
      exact ih hbetween

theorem Alike.run (halike : machine.Alike other) (hfree : listing.StoreFree)
    (hafter : machine.run? listing count = some after)
    (hafter' : other.run? listing count = some after') : after.Alike after' := by
  induction count generalizing after after' with
  | zero =>
      obtain rfl := Option.some.inj hafter
      obtain rfl := Option.some.inj hafter'
      exact halike
  | succ count ih =>
      obtain ⟨between, hbetween, hstep⟩ := Option.bind_eq_some_iff.mp hafter
      obtain ⟨between', hbetween', hstep'⟩ := Option.bind_eq_some_iff.mp hafter'
      exact (ih hbetween hbetween').step hfree hstep hstep'

/-- A machine cannot do more than one that is alike and has come to the end. -/
theorem Alike.count_le {more : Nat} (halike : machine.Alike other) (hfree : listing.StoreFree)
    (hafter : machine.run? listing count = some after)
    (hexhausted : after.cursor.isExhausted listing = true)
    (hmore : other.run? listing more = some after') : more ≤ count := by
  by_contra hlt
  obtain ⟨next, hnext⟩ := exists_run?_of_le hmore (show count + 1 ≤ more by omega)
  obtain ⟨between, hbetween, hstep⟩ := Option.bind_eq_some_iff.mp hnext
  obtain ⟨instruction, hthere, -⟩ := Option.bind_eq_some_iff.mp hstep
  obtain ⟨codeOrder, hcurrent, -⟩ := Cursor.exists_current_of_next? hthere
  rw [← (halike.run hfree hafter hbetween).cursor] at hcurrent
  rw [Cursor.isExhausted, hcurrent] at hexhausted
  exact absurd hexhausted (by simp)

end Sequential

/-! ## What an idle run has computed -/

/-- The sequential machine that starts with the seeded registers on some memory. -/
def Listing.startOn (listing : Listing) (memory : Memory) : Sequential :=
  ⟨Cursor.start listing, listing.seeded.registers, memory⟩

/-- What there is to say of an idle run without stores.  All of it is said of the sequential machine on the
memory that the run ends with, so it does not depend on stations and delays. -/
structure Computed (listing : Listing) (journal : List Deed) (state : State) : Prop where
  found : Found listing listing.seeded.memory journal state.memory
  exhausted : state.cursor.isExhausted listing = true
  names : ∀ name, state.registers.contains name = listing.seeded.registers.contains name
  registers : ∃ machine, (listing.startOn state.memory).run? listing state.cursor.fetched = some machine ∧
    machine.cursor = state.cursor ∧ ∀ name, machine.registers.get name = state.registers.get name
  /-- A cell holds a value if it was seeded or the sequential machine comes to read it. -/
  cells : ∀ address, (state.memory.read address).isSome = true ↔
    (listing.seeded.memory.read address).isSome = true ∨
      ∃ n < state.cursor.fetched, ∃ machine,
        (listing.startOn state.memory).run? listing n = some machine ∧
          machine.target? listing = some address

section Runs

variable {listing : Listing} {initial frozen state : State} {journal : List Deed} {todo : List Task}
  {cursor : Cursor} {start : State} {address : Int} {n : Nat}

theorem cellBefore?_of_storeFree (hfree : listing.StoreFree) :
    cellBefore? listing start journal cursor address n = start.memory.read address := by
  have hnone : latest? (cursor.StoresTo listing start.registers address) n = none := by
    refine latest?_eq_none_iff.mpr fun k _ hstore => ?_
    obtain ⟨instruction, hat, hclass, -⟩ := Cursor.storesTo_iff.mp hstore
    exact hfree instruction (Cursor.mem_instructions hat) hclass
  rw [cellBefore?, hnone]

variable (hnow : Execution listing initial frozen journal state todo) (hfresh : initial.Fresh)
  (hfree : listing.StoreFree)

include hnow hfresh hfree

/-- Every load has read what its cell holds in the end. -/
theorem Execution.accessesInOrder_of_storeFree :
    AccessesInOrder listing { initial with memory := state.memory } journal state.cursor where
  read deed hdeed address value hread := by
    rw [cellBefore?_of_storeFree hfree]
    exact (hnow.found hfresh hfree).read deed hdeed address value hread
  written n instruction source base offset hat hstore := by
    exact absurd (Instruction.opClass_of_store hstore) (hfree instruction (Cursor.mem_instructions hat))

variable (hstart : initial.cursor = Cursor.start listing) (hidle : state.stations.anyBusy = false)

include hstart hidle

/-- In front of each position that has been fetched stands the sequential machine, about to access the cell
that the instruction there has accessed. -/
theorem Execution.exists_machine (hlt : n < state.cursor.fetched) :
    ∃ machine : Sequential,
      Sequential.run? listing ⟨Cursor.start listing, initial.registers, state.memory⟩ n = some machine ∧
        ∀ address, machine.target? listing = some address ↔
          ∃ deed ∈ journal, deed.seq = n ∧ ∃ access, deed.access? = some access ∧
            access.address = address := by
  obtain ⟨earlier, instruction, hsteered, rfl, hextends, hat, hnext⟩ :=
    (hnow.steered hfresh hstart).exists_at hlt
  obtain ⟨machine, hrun, hagrees⟩ := hnow.run_agrees hfresh
    (hnow.accessesInOrder_of_storeFree hfresh hfree) hidle hsteered hextends
  have htarget : machine.target? listing = instruction.operation.address? machine.value? := by
    rw [Sequential.target?, hagrees.cursor_eq, hnext, Option.bind_some]
  have haddress {deed : Deed} {access : Access} (hdeed : deed ∈ journal)
      (hseq : deed.seq = earlier.fetched) (haccess : deed.access? = some access) :
      machine.target? listing = some access.address := by
    rw [htarget]
    exact hnow.address?_agrees hfresh hat hagrees hdeed hseq (Deed.address?_of_access? haccess)
  refine ⟨machine, hrun, fun address => ⟨fun hthere => ?_, ?_⟩⟩
  · -- The instruction is a load, and it has read because no station is in use.
    obtain ⟨place, hplace, -⟩ := Option.bind_eq_some_iff.mp (htarget.symm.trans hthere)
    obtain ⟨deed, hdeed, hseq, access, haccess⟩ := hnow.accessed_of_idle hfresh hidle hat hplace
    refine ⟨deed, hdeed, hseq, access, haccess, ?_⟩
    exact Option.some.inj ((haddress hdeed hseq haccess).symm.trans hthere)
  · rintro ⟨deed, hdeed, hseq, access, haccess, rfl⟩
    exact haddress hdeed hseq haccess

end Runs

/-! ## Register files -/

theorem OrderedMap.contains_mapValues {κ β γ : Type} {cmp : κ → κ → Ordering} (f : β → γ)
    (map : OrderedMap κ β cmp) (key : κ) : (map.mapValues f).contains key = map.contains key := by
  simp [contains, mapValues, Function.comp_def]

/-- Files with the same registers that hold the same are the same. -/
theorem RegisterFile.eq_of_get {file other : RegisterFile}
    (hnames : ∀ name, file.contains name = other.contains name)
    (hget : ∀ name, file.get name = other.get name) : file = other := by
  refine OrderedMap.eq_of_find?_eq fun name => ?_
  have hname := hnames name
  have hthere := hget name
  rw [OrderedMap.contains_eq_isSome_find?, OrderedMap.contains_eq_isSome_find?] at hname
  unfold get at hthere
  cases hfile : file.find? name <;> cases hother : other.find? name <;> simp_all

section Names

variable {listing : Listing} {initial frozen state before after : State} {journal : List Deed}
  {todo : List Task} {task : Task} {event : Event} {name : String}

/-- A task creates no register if those that the program writes are there. -/
theorem Change.names (hchange : Change listing before task event after)
    (hdests : ∀ instruction ∈ listing.instructions, ∀ dest, instruction.operation.dest? = some dest →
      before.registers.contains dest = true) :
    after.registers.contains name = before.registers.contains name := by
  cases hchange with
  | @enter instruction id _ _ _ hnext =>
      obtain ⟨codeOrder, -, hinstruction⟩ := Cursor.exists_current_of_next? hnext
      cases hdest : instruction.operation.dest? with
      | none => rfl
      | some dest =>
          have hthere := hdests instruction (List.mem_of_getElem? hinstruction) dest hdest
          show OrderedMap.contains (before.registers.insert dest _) name = _
          rw [Seeded.contains_insert]
          by_cases hsame : name = dest
          · rw [decide_eq_true hsame, Bool.true_or, hsame, hthere]
          · rw [decide_eq_false hsame, Bool.false_or]
  | steer => rfl
  | work _ _ hworking => rw [hworking.registers]
  | publish => exact OrderedMap.contains_mapValues ..
  | store => rfl

/-- No register is created after seeding. -/
theorem Execution.names (hnow : Execution listing initial frozen journal state todo)
    (hfresh : initial.Fresh)
    (hdests : ∀ instruction ∈ listing.instructions, ∀ dest, instruction.operation.dest? = some dest →
      initial.registers.contains dest = true) :
    ∀ name, state.registers.contains name = initial.registers.contains name := by
  refine hnow.of_deeds
    (motive := fun _ state => ∀ name, state.registers.contains name = initial.registers.contains name)
    hfresh (fun _ => rfl) (fun ih => ih) ?_
  intro frozen journal rest deed _ hvalid ih name
  obtain ⟨after, hchange, -, -, hregisters, -⟩ := hvalid.change
  rw [hregisters, hchange.names fun instruction hmember dest hdest => ?_, ih]
  rw [ih, hdests instruction hmember dest hdest]

end Names

/-! ## Main statement -/

section Main

variable {listing : Listing} {initial frozen state state' : State} {journal journal' : List Deed}
  {todo : List Task}

/-- An idle run without stores has computed what the sequential machine computes on its memory. -/
theorem Execution.computed (hnow : Execution listing initial frozen journal state todo)
    (hfresh : initial.Fresh) (hstart : initial.cursor = Cursor.start listing)
    (hregisters : initial.registers = listing.seeded.registers)
    (hmemory : initial.memory = listing.seeded.memory) (hfree : listing.StoreFree)
    (hidle : state.isIdle listing = true) : Computed listing journal state := by
  obtain ⟨hexhausted, hfreed⟩ := State.isIdle_iff.mp hidle
  have hfull : initial.memory.Full := hmemory ▸ Listing.seeded_full
  have hcells := hnow.cells hfresh hfull
  refine
    { found := hmemory ▸ hnow.found hfresh hfree
      exhausted := hexhausted
      names := hregisters ▸ hnow.names hfresh fun instruction hmember dest hdest =>
        hregisters ▸ Listing.seeded_contains_dest hmember hdest
      registers := ?_
      cells := fun address => ?_ }
  · obtain ⟨machine, hrun, hagrees⟩ := hnow.run_agrees hfresh
      (hnow.accessesInOrder_of_storeFree hfresh hfree) hfreed (hnow.steered hfresh hstart)
      (Cursor.Extends.refl _)
    rw [hregisters] at hrun
    refine ⟨machine, hrun, hagrees.cursor_eq, fun name => ?_⟩
    have hcontent := (hnow.dataflow hfresh).contents_known hfreed name
    exact Option.some.inj ((hagrees.registers name).symm.trans hcontent)
  · have hmachine {n : Nat} (hlt : n < state.cursor.fetched) :=
      hnow.exists_machine hfresh hfree hstart hfreed hlt
    rw [hregisters] at hmachine
    rw [hcells.isSome_read, Touched, ← hfull.isSome_read, hmemory]
    refine or_congr_right ⟨?_, ?_⟩
    · rintro ⟨deed, hdeed, access, haccess, hsame⟩
      have hlt := (hnow.ledger hfresh).bounded deed hdeed
      obtain ⟨machine, hrun, htarget⟩ := hmachine hlt
      exact ⟨deed.seq, hlt, machine, hrun, (htarget address).mpr ⟨deed, hdeed, rfl, access, haccess, hsame⟩⟩
    · rintro ⟨n, hlt, machine, hrun, hthere⟩
      obtain ⟨machine', hrun', htarget⟩ := hmachine hlt
      obtain rfl := Option.some.inj (hrun.symm.trans hrun')
      obtain ⟨deed, hdeed, -, haccess⟩ := (htarget address).mp hthere
      exact ⟨deed, hdeed, haccess⟩

/-- Memories do not contradict each other if the loads that discover a cell have the same sample. -/
theorem Computed.compatible (hcomputed : Computed listing journal state)
    (hcomputed' : Computed listing journal' state')
    (hsamples : ∀ deed ∈ journal, ∀ deed' ∈ journal', ∀ address, deed.Discovers address →
      deed'.Discovers address → deed.sample listing = deed'.sample listing) :
    state.memory.Compatible state'.memory := by
  intro address value value' hread hread'
  rcases hcomputed.found.origin address value hread with hseeded | ⟨deed, hdeed, hdiscovers, rfl⟩
  · exact Option.some.inj ((hcomputed'.found.kept address value hseeded).symm.trans hread')
  rcases hcomputed'.found.origin address value' hread' with hseeded | ⟨deed', hdeed', hdiscovers', rfl⟩
  · exact Option.some.inj (hread.symm.trans (hcomputed.found.kept address value' hseeded))
  · exact hsamples deed hdeed deed' hdeed' address hdiscovers hdiscovers'

/-- Runs whose memories do not contradict each other end in the same registers and cells. -/
theorem Computed.results_eq (hcomputed : Computed listing journal state)
    (hcomputed' : Computed listing journal' state') (hfree : listing.StoreFree)
    (hcompatible : state.memory.Compatible state'.memory) :
    state.registers = state'.registers ∧
      ∀ address, state.memory.read address = state'.memory.read address := by
  have halike : (listing.startOn state.memory).Alike (listing.startOn state'.memory) :=
    ⟨rfl, rfl, hcompatible⟩
  have halike' : (listing.startOn state'.memory).Alike (listing.startOn state.memory) :=
    ⟨rfl, rfl, fun address value value' h h' => (hcompatible address value' value h' h).symm⟩
  obtain ⟨machine, hrun, hcursor, hregisters⟩ := hcomputed.registers
  obtain ⟨machine', hrun', hcursor', hregisters'⟩ := hcomputed'.registers
  have hfetched : state.cursor.fetched = state'.cursor.fetched :=
    Nat.le_antisymm
      (halike'.count_le hfree hrun' (hcursor' ▸ hcomputed'.exhausted) hrun)
      (halike.count_le hfree hrun (hcursor ▸ hcomputed.exhausted) hrun')
  -- Both machines come to read the same cells.
  have htargets (address : Int) :
      (∃ n < state.cursor.fetched, ∃ machine,
        (listing.startOn state.memory).run? listing n = some machine ∧
          machine.target? listing = some address) ↔
        ∃ n < state'.cursor.fetched, ∃ machine,
          (listing.startOn state'.memory).run? listing n = some machine ∧
            machine.target? listing = some address := by
    rw [hfetched]
    refine exists_congr fun n => and_congr_right fun hlt => ?_
    obtain ⟨between, hbetween⟩ := Sequential.exists_run?_of_le hrun (hfetched ▸ hlt).le
    obtain ⟨between', hbetween'⟩ := Sequential.exists_run?_of_le hrun' hlt.le
    simp only [hbetween, hbetween', Option.some.injEq, exists_eq_left',
      (halike.run hfree hbetween hbetween').target?_eq]
  constructor
  · refine RegisterFile.eq_of_get (fun name => ?_) fun name => ?_
    · rw [hcomputed.names, hcomputed'.names]
    · rw [← hregisters, ← hregisters', (halike.run hfree hrun (hfetched ▸ hrun')).registers]
  · intro address
    have hsome := (hcomputed.cells address).trans
      ((or_congr_right (htargets address)).trans (hcomputed'.cells address).symm)
    cases hread : state.memory.read address with
    | none =>
        rw [hread, Option.isSome_none, Bool.false_eq_true, false_iff, Bool.not_eq_true,
          Option.isSome_eq_false_iff, Option.isNone_iff_eq_none] at hsome
        exact hsome.symm
    | some value =>
        rw [hread, Option.isSome_some, eq_self, true_iff] at hsome
        obtain ⟨value', hread'⟩ := Option.isSome_iff_exists.mp hsome
        rw [hread', hcompatible address value value' hread hread']

end Main

/-- Two idle runs of a program without stores, on any two sound machines, end with the same registers and
cells exactly if the loads that discovered a cell in one run and in the other have the same sample. -/
theorem store_free_results_iff {listing : Listing} {configuration other : Configuration}
    {journal journal' : List Deed} {state state' : State} (hfree : listing.StoreFree)
    (hsound : configuration.error? = none) (hsound' : other.error? = none)
    (hobserved : Observed listing (listing.initialState configuration.stations) journal state)
    (hobserved' : Observed listing (listing.initialState other.stations) journal' state')
    (hidle : state.isIdle listing = true) (hidle' : state'.isIdle listing = true) :
    (state.registers = state'.registers ∧
        ∀ address, state.memory.read address = state'.memory.read address) ↔
      ∀ deed ∈ journal, ∀ deed' ∈ journal', ∀ address, deed.Discovers address →
        deed'.Discovers address → deed.sample listing = deed'.sample listing := by
  have hfresh : (listing.initialState configuration.stations).Fresh := Listing.fresh_initialState hsound
  have hfresh' : (listing.initialState other.stations).Fresh := Listing.fresh_initialState hsound'
  obtain ⟨_, _, hnow⟩ := hobserved.execution
  obtain ⟨_, _, hnow'⟩ := hobserved'.execution
  constructor
  · rintro ⟨-, hmemory⟩ deed hdeed deed' hdeed' address hdiscovers hdiscovers'
    have hread := hnow.read_of_discovers hfresh hfree hdeed hdiscovers
    have hread' := hnow'.read_of_discovers hfresh' hfree hdeed' hdiscovers'
    exact Option.some.inj (hread.symm.trans ((hmemory address).trans hread'))
  · intro hsamples
    have hcomputed := hnow.computed hfresh rfl rfl rfl hfree hidle
    have hcomputed' := hnow'.computed hfresh' rfl rfl rfl hfree hidle'
    exact hcomputed.results_eq hcomputed' hfree (hcomputed.compatible hcomputed' hsamples)

/-! ## Two loads that discover one cell

Both bases are 100.  The default machine has computed that of the second load first, so this load discovers
the cell; with a single station for loads it has to wait until the first load is done.
-/

namespace Race

/-- The program, by the destination of its second load. -/
def listing (second : String) : Listing where
  instructions :=
    [⟨"mul a1,a0,x1", "mul", 0, .arithmetic .mul "a1" "a0" "x1"⟩,
      ⟨"add a2,a0,x2", "add", 1, .arithmetic .add "a2" "a0" "x2"⟩,
      ⟨"lw x5,0(a1)", "lw", 2, .load "x5" "a1" 0⟩,
      ⟨"lw " ++ second ++ ",0(a2)", "lw", 3, .load second "a2" 0⟩]
  sections := [⟨"main", [0, 1, 2, 3]⟩]
  initialValues := OrderedMap.insert (OrderedMap.insert (OrderedMap.insert .empty "a0" 100) "x1" 1) "x2" 0

/-- The text of the program with two destinations. -/
def source : String :=
  "# a0 = 100\n# x1 = 1\n# x2 = 0\nmul a1,a0,x1\nadd a2,a0,x2\nlw x5,0(a1)\nlw x6,0(a2)\n"

theorem ofSource?_source : Listing.ofSource? source = some (listing "x6") := by
  rfl

/-- A machine with a single station for loads. -/
def narrow : Configuration :=
  { stations := { load := ⟨1, 3⟩ } }

def state (second : String) (configuration : Configuration) (count : Nat) : State :=
  State.afterCycles (listing second) ((listing second).initialState configuration.stations) count

def journal (second : String) (configuration : Configuration) (count : Nat) : List Deed :=
  State.journal (listing second) ((listing second).initialState configuration.stations) count

/-- Whether all accesses are those of the two loads. -/
def onlyLoads (journal : List Deed) : Bool :=
  journal.all fun deed =>
    deed.access?.isNone || deed.event.codeOrder == 2 || deed.event.codeOrder == 3

/-- If both loads have one destination, what is read by either of them has the same sample. -/
theorem sample_eq {journal : List Deed} {deed : Deed} {address : Int} (hdeed : deed ∈ journal)
    (hloads : onlyLoads journal = true) (hdiscovers : deed.Discovers address) :
    deed.sample (listing "x5") = Sample.value "x5" "lw" .load := by
  obtain ⟨-, value, hread⟩ := hdiscovers
  have hload := List.all_eq_true.mp hloads deed hdeed
  simp only [hread, Option.isNone_some, Bool.false_or, Bool.or_eq_true, beq_iff_eq] at hload
  rcases hload with hcode | hcode <;>
    rw [Deed.sample, hcode] <;> rfl

end Race

/-- With one destination for both loads the two machines agree. -/
theorem store_free_results_iff_one_destination :
    (Race.state "x5" {} 12).registers = (Race.state "x5" Race.narrow 17).registers ∧
      ∀ address, (Race.state "x5" {} 12).memory.read address =
        (Race.state "x5" Race.narrow 17).memory.read address := by
  have hfree : (Race.listing "x5").StoreFree := by decide +kernel
  have hsound : Configuration.error? {} = none := by decide
  have hsound' : Race.narrow.error? = none := by decide
  have hidle : (Race.state "x5" {} 12).isIdle (Race.listing "x5") = true := by decide +kernel
  have hidle' : (Race.state "x5" Race.narrow 17).isIdle (Race.listing "x5") = true := by decide +kernel
  have hloads : Race.onlyLoads (Race.journal "x5" {} 12) = true := by decide +kernel
  have hloads' : Race.onlyLoads (Race.journal "x5" Race.narrow 17) = true := by decide +kernel
  refine (store_free_results_iff hfree hsound hsound' (.between (Run.afterCycles 12))
    (.between (Run.afterCycles 17)) hidle hidle').mpr ?_
  intro deed hdeed deed' hdeed' address hdiscovers hdiscovers'
  rw [Race.sample_eq hdeed hloads hdiscovers, Race.sample_eq hdeed' hloads' hdiscovers']

/-- With two destinations they do not agree: the cell holds the sample of the load that comes to it first, and
that load is another one on the other machine. -/
theorem not_always_store_free_results_eq :
    ¬ ∀ (source : String) (listing : Listing) (configuration other : Configuration) (state state' : State),
      Listing.ofSource? source = some listing → listing.StoreFree →
      configuration.error? = none → other.error? = none →
      (History.ofListing listing configuration).states.getLast? = some state →
      (History.ofListing listing other).states.getLast? = some state' →
      state.isIdle listing = true → state'.isIdle listing = true →
      state.registers = state'.registers ∧
        ∀ address, state.memory.read address = state'.memory.read address := by
  intro hagree
  have hlast : ((History.ofListing (Race.listing "x6") {}).states.getLast?.map fun state =>
      (state.isIdle (Race.listing "x6"), (state.registers.get "x6").value? == some 93)) =
        some (true, true) := by decide +kernel
  have hlast' : ((History.ofListing (Race.listing "x6") Race.narrow).states.getLast?.map fun state =>
      (state.isIdle (Race.listing "x6"), (state.registers.get "x6").value? == some 93)) =
        some (true, false) := by decide +kernel
  obtain ⟨state, hstate, hwhat⟩ := Option.map_eq_some_iff.mp hlast
  obtain ⟨state', hstate', hwhat'⟩ := Option.map_eq_some_iff.mp hlast'
  obtain ⟨hidle, hvalue⟩ := Prod.mk.inj hwhat
  obtain ⟨hidle', hvalue'⟩ := Prod.mk.inj hwhat'
  obtain ⟨hregisters, -⟩ := hagree _ _ _ _ _ _ Race.ofSource?_source (by decide +kernel)
    (by decide) (by decide) hstate hstate' hidle hidle'
  rw [hregisters, hvalue'] at hvalue
  exact absurd hvalue (by simp)

end Tomasulo
