import Tomasulo.Proofs.Layout
import Tomasulo.Proofs.WellFormed

/-!
# What a station in use shows

A plan reads the slots of the stations and nothing else of the instructions in them.  This module says
what such a reading means.  `Slot.Stage` is told by the operation of a station, as the plan sees it: how
countdown, operands, address and result go together for arithmetic, for a load and for a store.
`Occupancy` says of every station in use that it is in such a stage, for an instruction that was fetched
and that the class of the station accepts.

Both follow from `Lifecycle`, which is told by the form of the instruction, and from the fact that an
instruction stays in the station that accepted it (`Execution.housed`).
-/

namespace Tomasulo

/-! ## Stages -/

/-- How far an instruction has come in a station with a delay. -/
structure Slot.Stage (instruction : Instruction) (delay : Nat) (slot : Slot) : Prop where
  mnemonic : slot.mnemonic = instruction.mnemonic
  stationOp : instruction.operation.stationOp? = some slot.op
  step_le : slot.step ≤ delay
  /-- Arithmetic has no address; it works on two values, and its result comes with the last step. -/
  arithmetic : ∀ op, slot.op = .alu op →
    slot.address = none ∧ (slot.result.isSome = true ↔ slot.step = 0) ∧
      (slot.step < delay → slot.j.isReady = true ∧ slot.k.isReady = true) ∧
      ∀ value, slot.result = some value →
        ∃ lhs rhs, slot.j = .ready lhs ∧ slot.k = .ready rhs ∧ value = op.apply lhs rhs
  /-- A load has one operand.  It ends its countdown without a value only if there is no step between
  the address and the read. -/
  load : slot.op = .load →
    slot.k = .empty ∧ (slot.result.isSome = true → slot.step = 0) ∧
      (slot.step = 0 → slot.result = none → delay = 1)
  /-- A store has no result. -/
  store : slot.op = .store → slot.result = none
  /-- The first step of a load or store is the one that computes its address. -/
  uncomputed : slot.op = .load ∨ slot.op = .store →
    ∃ address, slot.address = some address ∧ (address.effective? = none ↔ slot.step = delay)
  /-- Base and offset are those of the instruction. -/
  place : ∀ address, slot.address = some address → instruction.operation.place? = some address.place
  /-- A computed address is the value of the base plus the offset. -/
  computed : ∀ address base baseValue offset,
    slot.address = some (.effective address base baseValue offset) →
      slot.j = .ready baseValue ∧ address = effectiveAddress baseValue offset

section Stage

variable {instruction : Instruction} {slot : Slot} {delay : Nat}

theorem Slot.Accessing.uncomputed {base : String} {offset : Int}
    (haccessing : slot.Accessing base offset delay) :
    ∃ address, slot.address = some address ∧ address.place = (base, offset) ∧
      (address.effective? = none ↔ slot.step = delay) := by
  rcases haccessing with ⟨haddress, hstep⟩ | ⟨hstep, baseValue, -, haddress⟩
  · exact ⟨_, haddress, rfl, by simp [Address.effective?, hstep]⟩
  · exact ⟨_, haddress, rfl, by simp [Address.effective?, hstep.ne]⟩

theorem Slot.Accessing.computed {base base' : String} {offset offset' address : Int}
    {baseValue : Float} (haccessing : slot.Accessing base offset delay)
    (haddress : slot.address = some (.effective address base' baseValue offset')) :
    slot.j = .ready baseValue ∧ address = effectiveAddress baseValue offset' := by
  rcases haccessing with ⟨hsymbolic, -⟩ | ⟨-, value, hj, heffective⟩
  · exact absurd (haddress.symm.trans hsymbolic) (by simp)
  · obtain ⟨rfl, -, rfl, rfl⟩ :=
      Address.effective.inj (Option.some.inj (haddress.symm.trans heffective))
    exact ⟨hj, rfl⟩

theorem Slot.Fits.stage_computing (hfits : slot.Fits instruction delay) (hdelay : 0 < delay)
    {op : AluOp} (hcomputing : slot.Computing op delay) : slot.Stage instruction delay where
  mnemonic := hfits.mnemonic
  stationOp := hfits.stationOp?_eq
  step_le := hfits.step_le
  arithmetic other hop := by
    obtain rfl := StationOp.alu.inj (hop.symm.trans hcomputing.op_eq)
    refine ⟨hcomputing.address, hcomputing.result_iff, fun hstep => ?_, fun value hresult => ?_⟩
    · obtain ⟨lhs, rhs, hj, hk, -⟩ := hcomputing.started hstep
      exact ⟨by rw [hj]; rfl, by rw [hk]; rfl⟩
    · -- A result is there only at the end of the countdown, so the work has started.
      have hdone := hcomputing.result_iff.mp (by rw [hresult]; rfl)
      obtain ⟨lhs, rhs, hj, hk, hvalue⟩ := hcomputing.started (by omega)
      exact ⟨lhs, rhs, hj, hk, hvalue value hresult⟩
  load hop := absurd (hop.symm.trans hcomputing.op_eq) (by simp)
  store hop := absurd (hop.symm.trans hcomputing.op_eq) (by simp)
  uncomputed hop := by simp [hcomputing.op_eq] at hop
  place address haddress := absurd (haddress.symm.trans hcomputing.address) (by simp)
  computed address base baseValue offset haddress :=
    absurd (haddress.symm.trans hcomputing.address) (by simp)

theorem Slot.Fits.stage_accessing (hfits : slot.Fits instruction delay) {base : String} {offset : Int}
    (hplace : instruction.operation.place? = some (base, offset))
    (haccessing : slot.Accessing base offset delay) (hmemory : ∀ op, slot.op ≠ .alu op)
    (hload : slot.op = .load → slot.k = .empty ∧ (slot.result.isSome = true → slot.step = 0) ∧
      (slot.step = 0 → slot.result = none → delay = 1))
    (hstore : slot.op = .store → slot.result = none) : slot.Stage instruction delay where
  mnemonic := hfits.mnemonic
  stationOp := hfits.stationOp?_eq
  step_le := hfits.step_le
  arithmetic op hop := absurd hop (hmemory op)
  load := hload
  store := hstore
  uncomputed _ := by
    obtain ⟨address, haddress, -, hstep⟩ := haccessing.uncomputed
    exact ⟨address, haddress, hstep⟩
  place address haddress := by
    obtain ⟨same, hsame, hheld, -⟩ := haccessing.uncomputed
    obtain rfl := Option.some.inj (haddress.symm.trans hsame)
    rw [hplace, hheld]
  computed _ _ _ _ haddress := haccessing.computed haddress

/-- A slot that fits its instruction is in one of the stages of its operation. -/
theorem Slot.Fits.stage (hfits : slot.Fits instruction delay) (hdelay : 0 < delay) :
    slot.Stage instruction delay := by
  have hshaped := hfits.shaped
  cases hoperation : instruction.operation <;> rw [hoperation] at hshaped
  case load =>
    obtain ⟨hop, hk, haccessing, hresult, hlast⟩ := hshaped
    exact hfits.stage_accessing (by rw [hoperation]; rfl) haccessing (by simp [hop])
      (fun _ => ⟨hk, hresult, hlast⟩) (by simp [hop])
  case store =>
    obtain ⟨hop, haccessing, hresult⟩ := hshaped
    exact hfits.stage_accessing (by rw [hoperation]; rfl) haccessing (by simp [hop]) (by simp [hop])
      (fun _ => hresult)
  case loadImmediate => exact hfits.stage_computing hdelay hshaped.2.2
  case arithmetic => exact hfits.stage_computing hdelay hshaped
  case arithmeticImmediate => exact hfits.stage_computing hdelay hshaped.2
  case branch => exact hshaped.elim
  case jump => exact hshaped.elim

end Stage

/-! ## An instruction stays where it was accepted -/

/-- Whether every station in use accepts the class of the instruction at the position that it holds. -/
def Housed (listing : Listing) (state : State) : Prop :=
  ∀ (id : Nat) (station : Station) (slot : Slot) instruction, state.stations[id]? = some station →
    station.slot = some slot → state.cursor.instructionAt? listing slot.seq = some instruction →
      station.stationClass.accepts instruction.opClass = true

theorem Pool.stationClass_eq {pool later : Pool} {id : Nat} {station : Station}
    (hlayout : later.layout = pool.layout) (hstation : later[id]? = some station) :
    ∃ earlier, pool[id]? = some earlier ∧ station.stationClass = earlier.stationClass := by
  have hsame := congrArg (·[id]?) hlayout
  simp only [layout, List.getElem?_map, hstation, Option.map_some] at hsame
  obtain ⟨earlier, hearlier, heq⟩ := Option.map_eq_some_iff.mp hsame.symm
  exact ⟨earlier, hearlier, (Prod.mk.inj heq).1.symm⟩

section Housed

variable {listing : Listing} {initial frozen state after : State} {journal : List Deed} {task : Task}
  {todo : List Task} {event : Event}

/-- An issued instruction enters a station that accepts it; no other task fills a station. -/
theorem Housed.act (hhoused : Housed listing state) (hlife : Lifecycle listing state)
    (hchange : Change listing state task event after) (henabled : task.Enabled listing state)
    (hperform : task.perform listing state = some (event, after)) : Housed listing after := by
  intro id station slot instruction hstation hslot hat
  obtain ⟨earlier, hearlier, hclass⟩ :=
    Pool.stationClass_eq (frame_of_perform henabled hperform).1 hstation
  rw [hclass]
  rcases hchange.origin (Pool.slot?_eq_some_iff.mpr ⟨station, hstation, hslot⟩) with
    ⟨old, hold, hseq, -⟩ | ⟨hfree, hseq, entering, rfl⟩
  · -- The position that the station holds was fetched before and still has its instruction.
    have hbound := hlife.seq_lt hold
    obtain ⟨same, hsame, hheld⟩ := Pool.slot?_eq_some_iff.mp hold
    obtain rfl := Option.some.inj (hearlier.symm.trans hsame)
    rw [hseq, hchange.extends.instructionAt? hbound] at hat
    exact hhoused id earlier old instruction hearlier hheld hat
  · obtain ⟨hnext, -, accepting, haccepting, -, haccepts⟩ := henabled
    obtain rfl := Option.some.inj (hearlier.symm.trans haccepting)
    obtain ⟨_, _, _, -, -, -, rfl⟩ := issue_spec hperform
    rw [hseq, Cursor.instructionAt?_advance hnext, if_pos rfl] at hat
    obtain rfl := Option.some.inj hat
    exact haccepts

theorem Housed.note {codeOrder : Nat} {action : Action} (hhoused : Housed listing state) :
    Housed listing (state.note codeOrder action) :=
  hhoused

theorem Housed.tick (hhoused : Housed listing state) : Housed listing state.tick := by
  intro id station slot instruction hstation hslot hat
  simp only [State.tick, Pool.rest, List.getElem?_map] at hstation
  obtain ⟨earlier, hearlier, rfl⟩ := Option.map_eq_some_iff.mp hstation
  exact hhoused id earlier slot instruction hearlier hslot hat

theorem Housed.of_free (hfree : ∀ id, state.stations.slot? id = none) : Housed listing state := by
  intro id station slot instruction hstation hslot
  have hheld := Pool.slot?_eq_some_iff.mpr ⟨station, hstation, hslot⟩
  simp [hfree] at hheld

/-- At every point of an execution from a machine at rest, every instruction is in a station that
accepts it. -/
theorem Execution.housed (hnow : Execution listing initial frozen journal state todo)
    (hfree : ∀ id, initial.stations.slot? id = none)
    (hdelays : ∀ id < initial.stations.length, 0 < initial.stations.delay id) :
    Housed listing state := by
  induction hnow with
  | start => exact .of_free hfree
  | tick _ ih => exact ih.tick
  | pass _ _ ih => exact ih
  | act hnow hperform ih =>
      have hunder := hnow.underway hdelays
      have henabled := hunder.enabled _ (List.mem_cons_self ..)
      have hlife := hnow.lifecycle hfree hdelays
      exact (ih.act hlife (hunder.change hperform) henabled hperform).note

end Housed

/-! ## Stations in use -/

/-- What the stations of a machine show: each one in use holds an instruction that was fetched and that
it accepts, in one of its stages, and no two hold the same one. -/
structure Occupancy (listing : Listing) (state : State) : Prop where
  station : ∀ (id : Nat) (station : Station) (slot : Slot), state.stations[id]? = some station →
    station.slot = some slot →
    slot.seq < state.cursor.fetched ∧
      state.cursor.executionOrder[slot.seq]? = some slot.codeOrder ∧
      ∃ instruction, listing.instruction? slot.codeOrder = some instruction ∧
        station.stationClass.accepts instruction.opClass = true ∧
        slot.Stage instruction station.delay
  distinct : ∀ id other slot held, state.stations.slot? id = some slot →
    state.stations.slot? other = some held → slot.seq = held.seq → id = other

/-- In every state and snapshot that a sound configuration reaches from any registers and memory, every
station in use is in one of the stages of the instruction that it holds. -/
theorem Observed.occupancy {listing : Listing} {registers : RegisterFile} {memory : Memory}
    {configuration : Configuration} (hwellFormed : listing.WellFormed)
    (hsound : configuration.error? = none) {journal : List Deed} {state : State}
    (hobserved :
      Observed listing (.initial listing registers memory configuration.stations) journal state) :
    Occupancy listing state := by
  obtain ⟨frozen, todo, hnow⟩ := hobserved.execution
  have hfree (id : Nat) : (Pool.ofBanks configuration.stations).slot? id = none :=
    Pool.slot?_ofBanks _
  have hdelays (id : Nat) (hbound : id < (Pool.ofBanks configuration.stations).length) :=
    Pool.delay_ofBanks_pos hsound hbound
  have hlife := hnow.lifecycle hfree hdelays
  refine ⟨fun id station slot hstation hslot => ?_, hlife.distinct⟩
  have hheld := Pool.slot?_eq_some_iff.mpr ⟨station, hstation, hslot⟩
  obtain ⟨instruction, hat, hfits⟩ := hlife.fits id slot hheld
  obtain ⟨codeOrder, horder, hinstruction⟩ := Option.bind_eq_some_iff.mp hat
  have hsame : codeOrder = slot.codeOrder :=
    (hwellFormed.codeOrder_eq hinstruction).symm.trans hfits.codeOrder.symm
  subst hsame
  refine ⟨hlife.seq_lt hheld, horder, instruction, hinstruction,
    hnow.housed hfree hdelays id station slot instruction hstation hslot hat, ?_⟩
  have hpositive := (hnow.underway hdelays).delays id (Pool.lt_length_of_slot? hheld)
  rw [← Pool.delay_eq hstation]
  exact hfits.stage hpositive

namespace Transfer

/-- A value is read, increased and written to the next cell. -/
def listing : Listing where
  instructions :=
    [⟨"lw x5,0(a0)", "lw", 0, .load "x5" "a0" 0⟩,
      ⟨"addi x6,x5,1", "addi", 1, .arithmeticImmediate .add "x6" "x5" 1⟩,
      ⟨"sw x6,4(a0)", "sw", 2, .store "x6" "a0" 4⟩]
  sections := [⟨"main", [0, 1, 2]⟩]
  initialValues := .empty

/-- The base register of both accesses holds an address. -/
def initial : State :=
  .initial listing (RegisterFile.write .empty "a0" 100) .empty {}

theorem observed (count : Nat) :
    Observed listing initial (initial.journal listing count) (initial.afterCycles listing count) :=
  .between (Run.afterCycles count)

end Transfer

/-- After four cycles the load has its value, the store has its address, and the addition waits. -/
theorem Transfer.occupancy_four :
    listing.WellFormed ∧ Configuration.error? {} = none ∧
      ((initial.afterCycles listing 4).stations.occupied.map fun entry =>
        (entry.slot.mnemonic, entry.slot.step, entry.slot.effective?, entry.slot.result.isSome)) =
          [("lw", 0, some 100, true), ("sw", 2, some 104, false), ("addi", 2, none, false)] ∧
      Occupancy listing (initial.afterCycles listing 4) := by
  have hwellFormed : listing.WellFormed := by decide
  have hsound : Configuration.error? {} = none := by decide
  exact ⟨hwellFormed, hsound, by decide +kernel, Observed.occupancy hwellFormed hsound (observed 4)⟩

end Tomasulo
