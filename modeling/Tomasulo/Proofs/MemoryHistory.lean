import Tomasulo.Proofs.Access
import Tomasulo.Proofs.Cap
import Tomasulo.Proofs.Replay

/-!
# The history of memory

Memory grows in three places: seeding fills cells before the first cycle, a load fills the cell that it
reads if that holds nothing, and a store writes one cell.  So at every point of a run a cell holds a value
exactly if it has been touched (`Execution.cells`), and what is touched stays touched.

When a run is over, the addresses that were found in any of its states are listed in all of them.  These are
the addresses of the memory that it ends with (`State.mem_addresses_iff`), and a state lists a cell without a
value exactly if the cell was touched only later.
-/

namespace Tomasulo

/-- Whether every cell that a memory lists holds a value. -/
def Memory.Full (memory : Memory) : Prop :=
  ∀ address, memory.find? address ≠ some none

/-- Whether a cell has been touched: memory listed it at the start, or an access was made to it. -/
def Touched (initial : Memory) (journal : List Deed) (address : Int) : Prop :=
  address ∈ initial.keys ∨
    ∃ deed ∈ journal, ∃ access, deed.access? = some access ∧ access.address = address

/-- What had been done when a state of a frame was made: the first state of a frame is the one behind its
cycle, the others are those of its steps. -/
def State.journalAt (listing : Listing) (initial : State) (count : Nat) : Nat → List Deed
  | 0 => initial.journal listing count
  | step + 1 =>
      initial.journal listing (count - 1) ++
        ((initial.afterCycles listing (count - 1)).deeds listing).take (step + 1)

/-- Whether a recorded memory shows what memory was like, with the addresses of the memory at the end. -/
structure Memory.Backfilled (shown memory last : Memory) (touched : Int → Prop) : Prop where
  keys : shown.keys = last.keys
  kept : ∀ address value, memory.read address = some value → shown.find? address = some (some value)
  valueless : ∀ address, shown.find? address = some none ↔ address ∈ last.keys ∧ ¬ touched address

/-- Whether a deed leaves alone what it has no business with. -/
structure Deed.Careful (deed : Deed) : Prop where
  silent : deed.access? = none → deed.after.memory = deed.before.memory
  /-- A load changes no cell that holds a value, and no other cell than the one it reads. -/
  read : ∀ address value, deed.access? = some (.read address value) →
    (∀ other held, deed.before.memory.read other = some held →
        deed.after.memory.read other = some held) ∧
      ∀ other, other ≠ address → deed.after.memory.find? other = deed.before.memory.find? other
  /-- A store changes only the cell that it writes. -/
  write : ∀ address value, deed.access? = some (.write address value) →
    deed.after.memory.read address = some value ∧
      ∀ other, other ≠ address → deed.after.memory.find? other = deed.before.memory.find? other

/-! ## Cells -/

namespace Memory

variable {memory : Memory} {address other : Int} {value : Float}

theorem find?_write : (memory.write address value).find? other =
    if other = address then some (some value) else memory.find? other := by
  unfold write
  by_cases hsame : other = address
  · rw [hsame, OrderedMap.find?_insert_self, if_pos rfl]
  · rw [OrderedMap.find?_insert_of_ne _ _ hsame, if_neg hsame]

theorem read_eq_some_iff : memory.read address = some value ↔
    memory.find? address = some (some value) := by
  rw [read, Option.join_eq_some_iff]

/-- A cell that is filled holds afterwards what reading it gives. -/
theorem find?_fill : (memory.fill address value).find? other =
    if other = address then some (some (memory.readOr address value)) else memory.find? other := by
  unfold fill readOr
  cases hcell : memory.read address with
  | none => rw [Option.isSome_none, if_neg Bool.false_ne_true, find?_write, Option.getD_none]
  | some held =>
      rw [Option.isSome_some, if_pos rfl, Option.getD_some]
      by_cases hsame : other = address
      · rw [if_pos hsame, hsame, read_eq_some_iff.mp hcell]
      · rw [if_neg hsame]

theorem Full.write (hfull : memory.Full) : (memory.write address value).Full := by
  intro other
  rw [find?_write]
  split
  · simp
  · exact hfull other

theorem Full.isSome_read (hfull : memory.Full) :
    (memory.read address).isSome = true ↔ address ∈ memory.keys := by
  rw [OrderedMap.mem_keys_iff, read]
  cases hcell : memory.find? address with
  | none => rfl
  | some cell =>
      cases cell with
      | none => exact absurd hcell (hfull address)
      | some held => rfl

end Memory

/-! ## What a deed leaves alone -/

section Deeds

variable {listing : Listing} {deed : Deed} {access : Access}

/-- An access gives its cell the value that was read or written, and leaves all other cells alone. -/
theorem Deed.Valid.find?_of_access (hvalid : deed.Valid listing)
    (haccess : deed.access? = some access) (x : Int) :
    deed.after.memory.find? x =
      if x = access.address then some (some access.value) else deed.before.memory.find? x := by
  rcases hvalid.fills_or_writes haccess with ⟨address, rfl, hmemory⟩ | ⟨address, value, rfl, hmemory⟩
  · rw [hmemory]
    exact Memory.find?_fill
  · rw [hmemory]
    exact Memory.find?_write

theorem Deed.Valid.careful (hvalid : deed.Valid listing) : deed.Careful where
  silent := hvalid.memory_eq
  read address value haccess := by
    have hcells := hvalid.find?_of_access haccess
    obtain ⟨_, _, -, -, htouches⟩ := hvalid.touches haccess
    refine ⟨fun other held hheld => ?_, fun other hne => (hcells other).trans (if_neg hne)⟩
    rw [htouches.memory other]
    split
    case isTrue hsame =>
      subst hsame
      exact congrArg some (htouches.found rfl held hheld)
    case isFalse => exact hheld
  write address value haccess := by
    have hcells := hvalid.find?_of_access haccess
    exact ⟨Memory.read_eq_some_iff.mpr ((hcells address).trans (if_pos rfl)),
      fun other hne => (hcells other).trans (if_neg hne)⟩

end Deeds

/-! ## Touched cells -/

section Touched

variable {listing : Listing} {initial frozen state : State} {journal later : List Deed}
  {todo : List Task} {memory : Memory} {deed : Deed} {address : Int}

theorem Touched.mono (htouched : Touched memory journal address) (hearlier : journal <+: later) :
    Touched memory later address := by
  rcases htouched with hthere | ⟨deed, hdeed, haccess⟩
  · exact .inl hthere
  · exact .inr ⟨deed, hearlier.subset hdeed, haccess⟩

theorem touched_snoc_iff : Touched memory (journal ++ [deed]) address ↔
    Touched memory journal address ∨
      ∃ access, deed.access? = some access ∧ access.address = address := by
  simp only [Touched, List.mem_append, List.mem_singleton, or_and_right, exists_or, exists_eq_left,
    or_assoc]

/-- What memory lists, and what it holds: the cells that have been touched. -/
structure Cells (initial : Memory) (journal : List Deed) (memory : Memory) : Prop where
  full : memory.Full
  known : ∀ address, address ∈ memory.keys ↔ Touched initial journal address

theorem Cells.isSome_read (hcells : Cells memory journal state.memory) :
    (state.memory.read address).isSome = true ↔ Touched memory journal address :=
  hcells.full.isSome_read.trans (hcells.known address)

/-- At every point of an execution memory lists the cells that have been touched, all with values. -/
theorem Execution.cells (hnow : Execution listing initial frozen journal state todo)
    (hfresh : initial.Fresh) (hfull : initial.memory.Full) :
    Cells initial.memory journal state.memory := by
  refine hnow.of_deeds (motive := fun journal state => Cells initial.memory journal state.memory)
    hfresh ⟨hfull, fun address => by simp [Touched]⟩ (fun ih => ih) ?_
  intro frozen journal rest deed _ hvalid ih
  cases haccess : deed.access? with
  | none =>
      rw [hvalid.memory_eq haccess]
      refine ⟨ih.full, fun address => ?_⟩
      rw [ih.known, touched_snoc_iff]
      simp [haccess]
  | some access =>
      have hcells := hvalid.find?_of_access haccess
      constructor
      · intro address
        rw [hcells]
        split
        · simp
        · exact ih.full address
      · intro address
        rw [OrderedMap.mem_keys_iff, hcells, touched_snoc_iff, ← ih.known, OrderedMap.mem_keys_iff]
        by_cases hsame : address = access.address
        · simp [hsame, haccess]
        · simp [hsame, haccess, Ne.symm hsame]

theorem Observed.cells (hobserved : Observed listing initial journal state)
    (hfresh : initial.Fresh) (hfull : initial.memory.Full) :
    Cells initial.memory journal state.memory := by
  obtain ⟨_, _, hnow⟩ := hobserved.execution
  exact hnow.cells hfresh hfull

end Touched

/-! ## Seeded memory -/

section Seeding

variable {listing : Listing} {instruction : Instruction}

theorem Seeded.memory_foldl {step : Seeded → String → Seeded}
    (hsame : ∀ seeded name, (step seeded name).memory = seeded.memory) (names : List String)
    (seeded : Seeded) : (names.foldl step seeded).memory = seeded.memory := by
  induction names generalizing seeded with
  | nil => rfl
  | cons name rest ih => rw [List.foldl_cons, ih, hsame]

theorem Seeded.memory_read (seeded : Seeded) (name : String) :
    (seeded.read listing instruction name).memory = seeded.memory := by
  unfold Seeded.read
  split <;> rfl

theorem Seeded.memory_written (seeded : Seeded) (name : String) :
    (seeded.written listing name).memory = seeded.memory := by
  unfold Seeded.written
  split <;> rfl

/-- Visiting an instruction fills at most one cell. -/
theorem Seeded.full_visit (seeded : Seeded) (hfull : seeded.memory.Full) :
    (seeded.visit listing instruction).memory.Full := by
  unfold Seeded.visit
  rw [Seeded.memory_foldl Seeded.memory_written]
  rw [← Seeded.memory_foldl Seeded.memory_read instruction.operation.sources seeded] at hfull
  unfold Seeded.fill
  split
  case h_1 =>
    split
    · exact hfull.write
    · exact hfull
  case h_2 => exact hfull

/-- Every cell that seeding lists is filled. -/
theorem Listing.seeded_full : listing.seeded.memory.Full := by
  have hvisits (instructions : List Instruction) (seeded : Seeded) (hfull : seeded.memory.Full) :
      (instructions.foldl (Seeded.visit listing) seeded).memory.Full := by
    induction instructions generalizing seeded with
    | nil => exact hfull
    | cons instruction rest ih => exact ih _ (seeded.full_visit hfull)
  exact hvisits _ _ fun address => by simp [Seeded.empty]

end Seeding

/-! ## Recorded memories -/

theorem OrderedMap.keys_mapValues {κ β γ : Type} {cmp : κ → κ → Ordering} (f : β → γ)
    (map : OrderedMap κ β cmp) : (map.mapValues f).keys = map.keys := by
  simp [keys, mapValues]

/-- Maps with the same keys list them in the same order. -/
theorem OrderedMap.keys_eq_of_mem_iff {κ β : Type} {cmp : κ → κ → Ordering} [Std.TransCmp cmp]
    [Std.LawfulEqCmp cmp] {a b : OrderedMap κ β cmp} (hsame : ∀ key, key ∈ a.keys ↔ key ∈ b.keys) :
    a.keys = b.keys := by
  have hkeys : a.mapValues (fun _ => ()) = b.mapValues fun _ => () := by
    refine eq_of_find?_eq fun key => ?_
    have hsome := hsame key
    rw [mem_keys_iff, mem_keys_iff] at hsome
    rw [find?_mapValues, find?_mapValues]
    cases ha : a.find? key <;> cases hb : b.find? key <;> simp_all
  rw [← keys_mapValues (fun _ => ()) a, hkeys, keys_mapValues]

theorem Frame.states_knowing (addresses : List Int) (frame : Frame) :
    (frame.knowing addresses).states = frame.states.map (State.knowing addresses) := by
  simp [states, knowing, Function.comp_def]

section Frames

variable {listing : Listing} {initial raw : State} {cap count last i : Nat} {address : Int}

/-- The states of a frame are states that the run shows. -/
theorem State.observed_frame (hraw : (initial.frame listing count).states[i]? = some raw) :
    Observed listing initial (initial.journalAt listing count i) raw ∧
      initial.journalAt listing count i <+: initial.journal listing count := by
  cases i with
  | zero =>
      rw [Frame.states, List.getElem?_cons_zero, State.state_frame] at hraw
      obtain rfl := Option.some.inj hraw
      exact ⟨.between (Run.afterCycles count), List.prefix_refl _⟩
  | succ i =>
      cases count with
      | zero => simp [Frame.states, State.frame] at hraw
      | succ count =>
          have hsteps : (initial.frame listing (count + 1)).steps =
              ((initial.afterCycles listing count).deeds listing).map Deed.step := steps_cycleOnce _
          rw [Frame.states, List.getElem?_cons_succ, hsteps, List.map_map, List.getElem?_map] at hraw
          obtain ⟨deed, hdeed, rfl⟩ := Option.map_eq_some_iff.mp hraw
          obtain ⟨hbound, rfl⟩ := List.getElem?_eq_some_iff.mp hdeed
          have hsplit := (List.take_append_drop i
            ((initial.afterCycles listing count).deeds listing)).symm
          rw [List.drop_eq_getElem_cons hbound] at hsplit
          have hrun : Run listing initial _ _ := Run.afterCycles count
          have hobserved := Observed.snapshot hrun hsplit
          rw [List.append_assoc, List.take_append_getElem hbound] at hobserved
          exact ⟨hobserved, List.prefix_append_right_inj _ |>.mpr (List.take_prefix ..)⟩

variable (hfresh : initial.Fresh) (hfull : initial.memory.Full)

include hfresh hfull

theorem State.cells_afterCycles (listing : Listing) (count : Nat) :
    Cells initial.memory (initial.journal listing count) (initial.afterCycles listing count).memory :=
  Observed.cells (.between (Run.afterCycles count)) hfresh hfull

/-- The addresses that are found in any state of a run are those that it ends with. -/
theorem State.mem_addresses_iff : address ∈ initial.addresses listing cap ↔
    address ∈ (initial.afterCycles listing (initial.cycles listing cap).length).memory.keys := by
  have hlast := State.cells_afterCycles hfresh hfull listing (initial.cycles listing cap).length
  rw [State.addresses, mem_knownAddresses]
  constructor
  · rintro ⟨frame, hframe, state, hstate, hlisted⟩
    obtain ⟨count, hcount, rfl⟩ := List.mem_map.mp hframe
    obtain ⟨i, hi⟩ := List.mem_iff_getElem?.mp hstate
    obtain ⟨hobserved, hearlier⟩ := State.observed_frame hi
    have htouched := ((hobserved.cells hfresh hfull).known address).mp hlisted
    have hle : count ≤ (initial.cycles listing cap).length :=
      Nat.le_of_lt_succ (List.mem_range.mp hcount)
    exact (hlast.known address).mpr (htouched.mono (hearlier.trans (State.journal_prefix hle)))
  · intro hlisted
    refine ⟨_, List.mem_map_of_mem List.self_mem_range_succ, _, List.mem_cons_self .., ?_⟩
    rwa [State.state_frame]

/-- A recorded memory shows what memory was like. -/
theorem State.backfilled (hle : count ≤ (initial.cycles listing cap).length)
    (hraw : (initial.frame listing count).states[i]? = some raw) :
    (raw.knowing (initial.addresses listing cap)).memory.Backfilled raw.memory
      (initial.afterCycles listing (initial.cycles listing cap).length).memory
      (Touched initial.memory (initial.journalAt listing count i)) := by
  obtain ⟨hobserved, hearlier⟩ := State.observed_frame hraw
  have hcells := hobserved.cells hfresh hfull
  have hshown (address : Int) := Memory.find?_knowing (initial.addresses listing cap) raw.memory address
  -- What memory lists here it lists at the end.
  have hlater (address : Int) (hlisted : address ∈ raw.memory.keys) :
      address ∈ initial.addresses listing cap := by
    refine mem_knownAddresses.mpr ⟨_, List.mem_map_of_mem (List.mem_range.mpr (Nat.lt_succ_of_le hle)),
      raw, List.mem_of_getElem? hraw, hlisted⟩
  refine ⟨OrderedMap.keys_eq_of_mem_iff fun address => ?_, fun address value hvalue => ?_,
    fun address => ?_⟩
  · rw [← State.mem_addresses_iff hfresh hfull, OrderedMap.mem_keys_iff, State.memory_knowing, hshown]
    have hlisted := hlater address
    rw [OrderedMap.mem_keys_iff] at hlisted
    cases hcell : raw.memory.find? address with
    | none => simp
    | some cell => simpa [hcell] using hlisted
  · rw [State.memory_knowing, hshown, Memory.read_eq_some_iff.mp hvalue, Option.some_or]
  · rw [← State.mem_addresses_iff hfresh hfull, ← hcells.known, OrderedMap.mem_keys_iff,
      State.memory_knowing, hshown]
    cases hcell : raw.memory.find? address with
    | none => simp
    | some cell =>
        have hvalue : cell ≠ none := fun hnone => hcells.full address (hcell.trans (by rw [hnone]))
        simpa using hvalue

end Frames

/-! ## Main statement -/

/-- What the history of a run from a state tells of memory. -/
structure History.Remembers (history : History) (initial : State) (last : State) : Prop where
  careful : ∀ count, ∀ deed ∈ initial.journal history.listing count, deed.Careful
  /-- A cell that holds a value goes on holding one. -/
  kept : ∀ journal later (state after : State), Observed history.listing initial journal state →
    Observed history.listing initial later after → journal <+: later →
      ∀ address, (state.memory.read address).isSome = true → (after.memory.read address).isSome = true
  /-- Every recorded state shows the memory that it had. -/
  recorded : ∀ (count i : Nat) (frame : Frame) (shown : State), history.frames[count]? = some frame →
    frame.states[i]? = some shown →
      ∃ raw : State, (initial.frame history.listing count).states[i]? = some raw ∧
        shown.memory.Backfilled raw.memory last.memory
          (Touched initial.memory (initial.journalAt history.listing count i))
  /-- At the end nothing is left to be touched. -/
  last : ∀ state : State, history.states.getLast? = some state → state.memory.Full

section Main

variable {listing : Listing} {initial : State} {cap : Nat}

theorem History.remembers_ofState (hfresh : initial.Fresh) (hfull : initial.memory.Full) :
    (ofState listing initial cap).Remembers initial
      (initial.afterCycles listing (initial.cycles listing cap).length) where
  careful count deed hdeed := by
    obtain ⟨_, hnow⟩ := State.execution_afterCycles listing initial count
    obtain ⟨_, _, _, _, -, hthen, hperforms⟩ := hnow.mem_journal hdeed
    exact (hthen.valid hfresh.inStep hperforms).careful
  kept journal later state after hstate hafter hearlier address hread := by
    have htouched := (hstate.cells hfresh hfull).isSome_read.mp hread
    exact (hafter.cells hfresh hfull).isSome_read.mpr (htouched.mono hearlier)
  recorded count i frame shown hframe hshown := by
    obtain ⟨hbound, -⟩ := List.getElem?_eq_some_iff.mp hframe
    rw [length_frames_ofState] at hbound
    obtain rfl := eq_knowing_of_frame hframe
    rw [Frame.states_knowing, List.getElem?_map] at hshown
    obtain ⟨raw, hraw, rfl⟩ := Option.map_eq_some_iff.mp hshown
    exact ⟨raw, hraw, State.backfilled hfresh hfull (Nat.le_of_lt_succ hbound) hraw⟩
  last state hlast address hvalueless := by
    have hcells := State.cells_afterCycles hfresh hfull listing (initial.cycles listing cap).length
    have hraw : (initial.frame listing (initial.cycles listing cap).length).states[0]? =
        some (initial.afterCycles listing (initial.cycles listing cap).length) := by
      rw [Frame.states, List.getElem?_cons_zero, State.state_frame]
    rw [states_ofState, List.range_succ, List.map_append, List.map_singleton,
      List.getLast?_concat] at hlast
    obtain rfl := Option.some.inj hlast
    obtain ⟨hlisted, huntouched⟩ :=
      ((State.backfilled hfresh hfull (Nat.le_refl _) hraw).valueless address).mp hvalueless
    exact huntouched ((hcells.known address).mp hlisted)

end Main

/-- In every run of a sound machine a cell keeps the value that it holds unless a store writes to it, and the
recorded states and those of their steps show the memories that they had, with the addresses of the last one:
a cell is listed without a value exactly if it was touched only later. -/
theorem memory_remembered {listing : Listing} {configuration : Configuration}
    (hsound : configuration.error? = none) :
    (History.ofListing listing configuration).Remembers (listing.initialState configuration.stations)
      ((listing.initialState configuration.stations).afterCycles listing
        ((listing.initialState configuration.stations).cycles listing configuration.maxCycles).length) :=
  History.remembers_ofState (Listing.fresh_initialState hsound) Listing.seeded_full

/-- The cell that the load discovers is shown without a value after six cycles: nothing had touched it. -/
theorem memory_remembered_discovery :
    Configuration.error? {} = none ∧
      ((History.ofListing Discovery.listing {}).frames[6]?.map
        fun frame => frame.state.memory.find? 200) = some (some none) ∧
      ¬ Touched (Discovery.listing.initialState ({} : Configuration).stations).memory
        ((Discovery.listing.initialState ({} : Configuration).stations).journal Discovery.listing 6)
        200 := by
  have hsound : Configuration.error? {} = none := by decide
  have hlisted : ((History.ofListing Discovery.listing {}).frames[6]?.map
      fun frame => frame.state.memory.find? 200) = some (some none) := by decide +kernel
  refine ⟨hsound, hlisted, ?_⟩
  obtain ⟨frame, hframe, hcell⟩ := Option.map_eq_some_iff.mp hlisted
  have hremembers : (History.ofListing Discovery.listing {}).Remembers _ _ := memory_remembered hsound
  obtain ⟨raw, -, hshown⟩ := hremembers.recorded 6 0 frame frame.state hframe rfl
  exact ((hshown.valueless 200).mp hcell).2

end Tomasulo
