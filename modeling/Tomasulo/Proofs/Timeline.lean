import Tomasulo.Proofs.Grammar
import Tomasulo.Proofs.Recorded
import Tomasulo.Proofs.WellFormed

/-!
# Timelines

The row of an instruction that is fetched once spells a word of its pattern, or a prefix of one if the run
ends earlier.

A row is built cycle by cycle from what the machine notes (`State.row`).  Its actions are the events of one
position of the order of fetching (`State.reduceOption_row`), so the career of the instruction says which
they are; and the row of arithmetic is unbroken, because a unit that has begun is planned in every cycle
(`State.unbroken_row`).
-/

namespace Tomasulo

/-- What an instruction did in the last cycle. -/
def State.mark? (state : State) (codeOrder : Nat) : Option Action :=
  (state.actions[codeOrder]?).join

/-- What an instruction did in each of the first cycles, behind a pause for the initial state. -/
def State.row (listing : Listing) (initial : State) (codeOrder count : Nat) : List (Option Action) :=
  (List.range (count + 1)).map fun n => (initial.afterCycles listing n).mark? codeOrder

/-- What the deeds note for a code order. -/
def actionsOf (codeOrder : Nat) (deeds : List Deed) : List Action :=
  (deeds.filter fun deed => deed.event.codeOrder = codeOrder).map fun deed => deed.event.action

/-- Whether a code order has been fetched at a position and at no other one. -/
def Cursor.Sole (cursor : Cursor) (codeOrder n : Nat) : Prop :=
  ∀ m, cursor.executionOrder[m]? = some codeOrder ↔ m = n

/-! ## What a cycle notes -/

section Marks

variable {listing : Listing} {initial frozen state after : State} {journal : List Deed}
  {todo : List Task} {event : Event} {codeOrder : Nat}

theorem action_of_compute {id : Nat} (hperform : state.compute id = some (event, after)) :
    event.action = .exec := by
  simp only [State.compute, Option.bind_eq_bind, Option.bind_eq_some_iff] at hperform
  obtain ⟨station, -, slot, -, hperform⟩ := hperform
  split at hperform
  · split at hperform <;> (obtain ⟨rfl, -⟩ := Prod.mk.inj (Option.some.inj hperform); rfl)
  · obtain ⟨rfl, -⟩ := Prod.mk.inj (Option.some.inj hperform)
    rfl

theorem Execution.length_actions (hnow : Execution listing initial frozen journal state todo)
    (hfresh : initial.Fresh) : state.actions.length = initial.actions.length := by
  refine hnow.of_deeds (motive := fun _ state => state.actions.length = initial.actions.length)
    hfresh rfl ?_ ?_
  · intro journal state ih
    simpa [State.tick] using ih
  · intro frozen journal rest deed hbefore hvalid ih
    rw [hvalid.frame.2.1, List.length_set, ih]

/-- At the end of a cycle the last deed of a code order stands in its place. -/
theorem Execution.mark?_finish (hnow : Execution listing initial frozen journal state todo)
    (hfresh : initial.Fresh) (hbound : codeOrder < state.actions.length) :
    (stateAfter state (deedsFrom listing todo state)).mark? codeOrder =
      (actionsOf codeOrder (deedsFrom listing todo state)).getLast?.or (state.mark? codeOrder) := by
  refine hnow.rest_of_deeds (motive := fun state deeds => codeOrder < state.actions.length →
    (stateAfter state deeds).mark? codeOrder =
      (actionsOf codeOrder deeds).getLast?.or (state.mark? codeOrder)) hfresh.inStep (fun _ _ => rfl) ?_
    hbound
  intro deed later hvalid _ ih hbound
  have hset : deed.after.actions = deed.before.actions.set deed.event.codeOrder (some deed.event.action) :=
    hvalid.frame.2.1
  rw [stateAfter_cons, ih (by rwa [hset, List.length_set])]
  unfold actionsOf State.mark?
  rw [hset, List.filter_cons]
  by_cases hsame : deed.event.codeOrder = codeOrder
  · subst hsame
    simp [List.getLast?_cons, hbound]
  · simp [hsame, List.getElem?_set_ne hsame]

end Marks

/-! ## The one position of a code order -/

section Sole

variable {listing : Listing} {initial frozen state : State} {journal : List Deed} {todo : List Task}
  {codeOrder n : Nat}

theorem Cursor.exists_sole {cursor : Cursor} (honce : cursor.executionOrder.count codeOrder = 1) :
    ∃ n, cursor.Sole codeOrder n := by
  have hmem : codeOrder ∈ cursor.executionOrder := List.count_pos_iff.mp (by omega)
  obtain ⟨before, later, hsplit⟩ := List.append_of_mem hmem
  rw [hsplit, List.count_append, List.count_cons_self] at honce
  have hbefore : codeOrder ∉ before := List.count_eq_zero.mp (by omega)
  have hlater : codeOrder ∉ later := List.count_eq_zero.mp (by omega)
  refine ⟨before.length, fun m => ⟨fun hm => ?_, fun hm => by simp [hsplit, hm]⟩⟩
  rw [hsplit] at hm
  rcases lt_trichotomy m before.length with hless | hsame | hmore
  · rw [List.getElem?_append_left hless] at hm
    exact absurd (List.mem_of_getElem? hm) hbefore
  · exact hsame
  · obtain ⟨k, rfl⟩ := Nat.exists_eq_add_of_lt hmore
    rw [List.getElem?_append_right (by omega), Nat.add_assoc, Nat.add_sub_cancel_left,
      List.getElem?_cons_succ] at hm
    exact absurd (List.mem_of_getElem? hm) hlater

/-- A code order that is fetched once stands for one instruction at one position. -/
theorem Execution.exists_sole (hnow : Execution listing initial frozen journal state todo)
    (hfresh : initial.Fresh) (honce : state.cursor.executionOrder.count codeOrder = 1) :
    ∃ n instruction, state.cursor.Sole codeOrder n ∧
      state.cursor.instructionAt? listing n = some instruction ∧
      listing.instruction? codeOrder = some instruction := by
  obtain ⟨n, hsole⟩ := Cursor.exists_sole honce
  have hposition := (hsole n).mpr rfl
  obtain ⟨hfetched, -⟩ := List.getElem?_eq_some_iff.mp hposition
  obtain ⟨instruction, hat⟩ := hnow.exists_instructionAt hfresh hfetched
  refine ⟨n, instruction, hsole, hat, ?_⟩
  unfold Cursor.instructionAt? at hat
  rwa [hposition, Option.bind_some] at hat

/-- A deed is told under the code order that was fetched at its position. -/
theorem Execution.executionOrder_of_deed
    (hnow : Execution listing initial frozen journal state todo) (hfresh : initial.Fresh)
    (hwellFormed : listing.WellFormed) {deed : Deed} (hdeed : deed ∈ journal) :
    state.cursor.executionOrder[deed.seq]? = some deed.event.codeOrder := by
  obtain ⟨hextends, -⟩ := hnow.extends hfresh.delays hdeed
  obtain ⟨_, past, later, _, rfl, hthen, hperforms⟩ := hnow.mem_journal hdeed
  have hvalid := hthen.valid hfresh.inStep hperforms
  obtain ⟨instruction, hat, -⟩ := hvalid.inOrder_now (hthen.dataflow hfresh)
  have hnoted := hwellFormed.executionOrder_eq hat
  rw [← hvalid.codeOrder_eq hat] at hnoted
  obtain ⟨hbound, -⟩ := List.getElem?_eq_some_iff.mp hnoted
  obtain ⟨rest, hrest⟩ := hextends
  rw [← hrest, List.getElem?_append_left hbound, hnoted]

/-- Each instruction has at most one event in a cycle. -/
theorem Execution.length_eventsAt_deeds (hnow : Execution listing initial frozen journal state todo)
    (hfresh : initial.Fresh) (n : Nat) :
    (eventsAt (deedsFrom listing todo state) n).length ≤ 1 := by
  have hpairs := (hnow.pairwise_seq_deeds hfresh.inStep).filter (fun deed => decide (deed.seq = n))
  unfold eventsAt
  rw [List.length_map]
  generalize hdeeds : (deedsFrom listing todo state).filter (fun deed => decide (deed.seq = n)) = deeds
  rw [hdeeds] at hpairs
  match deeds, hpairs with
  | [], _ => exact Nat.zero_le _
  | [_], _ => exact le_rfl
  | first :: second :: rest, hpairs =>
      have hseq {deed : Deed} (hdeed : deed ∈ first :: second :: rest) : deed.seq = n := by
        rw [← hdeeds] at hdeed
        simpa using (List.mem_filter.mp hdeed).2
      have hne := (List.pairwise_cons.mp hpairs).1 second (List.mem_cons_self ..)
      exact absurd ((hseq (by simp)).trans (hseq (by simp)).symm) hne

end Sole

/-! ## Rows -/

section Rows

variable {listing : Listing} {initial : State} {codeOrder n total count : Nat}

theorem State.row_succ : initial.row listing codeOrder (count + 1) =
    initial.row listing codeOrder count ++
      [(initial.afterCycles listing (count + 1)).mark? codeOrder] := by
  unfold State.row
  rw [List.range_succ, List.map_append]
  rfl

variable (hfresh : initial.Fresh) (hwellFormed : listing.WellFormed)
  (hsole : (initial.afterCycles listing total).cursor.Sole codeOrder n)

include hfresh hwellFormed hsole

theorem State.codeOrder_eq_iff (hle : count ≤ total) {deed : Deed}
    (hdeed : deed ∈ initial.journal listing count) :
    deed.event.codeOrder = codeOrder ↔ deed.seq = n := by
  obtain ⟨_, hnow⟩ := State.execution_afterCycles listing initial total
  have hlater : deed ∈ initial.journal listing total := (State.journal_prefix hle).subset hdeed
  have horder := hnow.executionOrder_of_deed hfresh hwellFormed hlater
  rw [← hsole deed.seq, horder, Option.some.injEq]

/-- What a cycle notes for the code order is the event of its position, if there is one. -/
theorem State.mark?_succ (hbound : codeOrder < initial.actions.length) (hlt : count < total) :
    ((initial.afterCycles listing (count + 1)).mark? codeOrder).toList =
      (eventsAt ((initial.afterCycles listing count).deeds listing) n).map Event.action := by
  obtain ⟨_, hnow⟩ := State.execution_afterCycles listing initial count
  have hnone : (initial.afterCycles listing count).tick.mark? codeOrder = none := by
    unfold State.mark? State.tick
    rw [List.getElem?_map]
    cases (initial.afterCycles listing count).actions[codeOrder]? <;> rfl
  have hlength : codeOrder < (initial.afterCycles listing count).tick.actions.length := by
    rwa [hnow.tick.length_actions hfresh]
  have hactions : actionsOf codeOrder ((initial.afterCycles listing count).deeds listing) =
      (eventsAt ((initial.afterCycles listing count).deeds listing) n).map Event.action := by
    unfold actionsOf eventsAt
    rw [List.map_map]
    refine congrArg (List.map _) (List.filter_congr fun deed hdeed => decide_eq_decide.mpr ?_)
    have hthen : deed ∈ initial.journal listing (count + 1) := List.mem_append_right _ hdeed
    exact State.codeOrder_eq_iff hfresh hwellFormed hsole hlt hthen
  have hone : (eventsAt ((initial.afterCycles listing count).deeds listing) n).length ≤ 1 :=
    hnow.tick.length_eventsAt_deeds hfresh n
  rw [State.afterCycles, state_cycleOnce, State.deeds, hnow.tick.mark?_finish hfresh hlength, hnone,
    Option.or_none, ← State.deeds, hactions]
  generalize eventsAt ((initial.afterCycles listing count).deeds listing) n = events at hone ⊢
  rcases events with _ | ⟨event, _ | ⟨second, rest⟩⟩
  · rfl
  · rfl
  · simp at hone

/-- The actions of a row are the events of its position. -/
theorem State.reduceOption_row (hbound : codeOrder < initial.actions.length)
    (hstart : initial.mark? codeOrder = none) (hle : count ≤ total) :
    (initial.row listing codeOrder count).reduceOption =
      (eventsAt (initial.journal listing count) n).map Event.action := by
  induction count with
  | zero =>
      show List.reduceOption [initial.mark? codeOrder] = []
      rw [hstart]
      rfl
  | succ count ih =>
      rw [State.row_succ, List.reduceOption_append, List.reduceOption_singleton, ih (by omega),
        State.mark?_succ hfresh hwellFormed hsole hbound hle, State.journal, eventsAt_append,
        List.map_append]

/-- Arithmetic that could go on does so in the next cycle. -/
theorem State.mark?_of_compute (hbound : codeOrder < initial.actions.length) (hlt : count < total)
    {id : Nat} {slot : Slot} (hslot : (initial.afterCycles listing count).stations.slot? id = some slot)
    (hseq : slot.seq = n)
    (hsuits : slot.Suits ((initial.afterCycles listing count).stations.delay id) (.compute id)) :
    (initial.afterCycles listing (count + 1)).mark? codeOrder = some .exec := by
  obtain ⟨_, hnow⟩ := State.execution_afterCycles listing initial count
  have hslot' : (initial.afterCycles listing count).tick.stations.slot? id = some slot :=
    Pool.slot?_rest.trans hslot
  have hplanned : .compute id ∈ ((initial.afterCycles listing count).tick.plan listing).tasks := by
    refine compute_mem_plan hslot' ?_
    rwa [State.tick, Pool.delay_rest]
  rw [← hnow.tick.tasks_deeds hfresh.inStep] at hplanned
  obtain ⟨deed, hdeed, htask⟩ := List.mem_map.mp hplanned
  have hposition : deed.seq = n := by
    rcases hnow.tick.seq_of_deed hfresh.inStep hdeed with ⟨site, old, hsite, hold, hsame⟩ | ⟨hnone, -⟩
    · rw [htask] at hsite
      obtain rfl := Option.some.inj hsite
      obtain rfl := Option.some.inj (hslot'.symm.trans hold)
      exact hsame.trans hseq
    · rw [htask] at hnone
      exact absurd hnone (by simp [Task.station?])
  have haction : deed.event.action = .exec := by
    obtain ⟨done, later, hdeeds⟩ := List.append_of_mem hdeed
    obtain ⟨_, -, _, hperform, -⟩ := hnow.tick.deeds hdeeds
    rw [htask] at hperform
    exact action_of_compute hperform
  have hevent : Action.exec ∈
      (eventsAt ((initial.afterCycles listing count).deeds listing) n).map Event.action := by
    refine List.mem_map.mpr ⟨deed.event, List.mem_map_of_mem (List.mem_filter.mpr ⟨hdeed, ?_⟩), haction⟩
    simpa using hposition
  rw [← State.mark?_succ hfresh hwellFormed hsole hbound hlt] at hevent
  exact Option.mem_toList.mp hevent

/-- The row of arithmetic is unbroken. -/
theorem State.unbroken_row {banks : Banks} {instruction : Instruction} {op : AluOp}
    (hlayout : initial.stations.layout = (Pool.ofBanks banks).layout)
    (hbound : codeOrder < initial.actions.length) (hstart : initial.mark? codeOrder = none)
    (hle : count ≤ total)
    (hat : (initial.afterCycles listing total).cursor.instructionAt? listing n = some instruction)
    (hop : instruction.operation.stationOp? = some (.alu op)) :
    Unbroken (banks.delayFor instruction.opClass) (initial.row listing codeOrder count) := by
  induction count with
  | zero =>
      have hrow : initial.row listing codeOrder 0 = [] ++ [none] := by
        show [initial.mark? codeOrder] = [none]
        rw [hstart]
      rw [hrow]
      exact unbroken_snoc unbroken_nil fun hpositive => absurd hpositive (by simp [List.reduceOption])
  | succ count ih =>
      rw [State.row_succ]
      refine unbroken_snoc (ih (by omega)) fun hpositive hless => ?_
      rw [State.reduceOption_row hfresh hwellFormed hsole hbound hstart (by omega)] at hpositive hless
      obtain ⟨_, hnow⟩ := State.execution_afterCycles listing initial count
      obtain ⟨event, hevent, -⟩ := List.mem_map.mp (List.count_pos_iff.mp hpositive)
      obtain ⟨deed, hmember, -⟩ := List.mem_map.mp hevent
      obtain ⟨hdeed, hseq⟩ := List.mem_filter.mp hmember
      have hfetched : n < (initial.afterCycles listing count).cursor.fetched := by
        have hlt := (hnow.ledger hfresh).bounded deed hdeed
        rwa [of_decide_eq_true hseq] at hlt
      have hextends : (initial.afterCycles listing total).cursor.Extends
          (initial.afterCycles listing count).cursor := State.extends_afterCycles hfresh (by omega)
      rw [hextends.instructionAt? hfetched] at hat
      -- Of an instruction that has begun and is not done, the station says that it goes on.
      cases hnow.tracked hfresh hlayout hat with
      | @held id slot hslot hseq hdelay hcareer =>
          obtain ⟨-, hbehind⟩ := hcareer.course
          have hfits := (hnow.lifecycle hfresh.free hfresh.delays).fits_at hslot (hseq ▸ hat)
          have hstationOp : slot.op = .alu op := Option.some.inj (hfits.stationOp?_eq.symm.trans hop)
          rw [hbehind.of_alu hstationOp, List.count_cons_of_ne (by decide),
            List.count_replicate_self] at hpositive hless
          obtain ⟨lhs, rhs, hj, hk, -⟩ := (hfits.computing hstationOp).started (by omega)
          exact State.mark?_of_compute hfresh hwellFormed hsole hbound (by omega) hslot hseq
            ⟨⟨op, lhs, rhs, hstationOp, hj, hk⟩, by omega, hfits.step_le⟩
      | gone _ hcareer =>
          rw [Operation.Course.of_alu hcareer.course hop, List.count_cons_of_ne (by decide),
            List.count_append, List.count_replicate_self] at hless
          omega

/-- A station shows the code order only while it holds the instruction at its position. -/
theorem State.seq_eq_of_codeOrder (hle : count ≤ total) {id : Nat} {slot : Slot}
    (hslot : (initial.afterCycles listing count).stations.slot? id = some slot)
    (hcodeOrder : slot.codeOrder = codeOrder) : slot.seq = n := by
  obtain ⟨_, hnow⟩ := State.execution_afterCycles listing initial count
  have hlife := hnow.lifecycle hfresh.free hfresh.delays
  obtain ⟨instruction, hat, hfits⟩ := hlife.fits id slot hslot
  rw [← (State.extends_afterCycles hfresh hle).instructionAt? (hlife.seq_lt hslot)] at hat
  have hposition := hwellFormed.executionOrder_eq hat
  rw [← hfits.codeOrder, hcodeOrder] at hposition
  exact (hsole slot.seq).mp hposition

/-- In no cycle the instruction has more than one event. -/
theorem State.countP_deeds_le (hlt : count < total) :
    ((initial.afterCycles listing count).deeds listing).countP
      (fun deed => deed.event.codeOrder = codeOrder) ≤ 1 := by
  obtain ⟨_, hnow⟩ := State.execution_afterCycles listing initial count
  have hsame : ((initial.afterCycles listing count).deeds listing).countP
      (fun deed => deed.event.codeOrder = codeOrder) =
        (eventsAt ((initial.afterCycles listing count).deeds listing) n).length := by
    unfold eventsAt
    rw [List.length_map, ← List.countP_eq_length_filter]
    refine List.countP_congr fun deed hdeed => ?_
    have hthen : deed ∈ initial.journal listing (count + 1) := List.mem_append_right _ hdeed
    simpa using State.codeOrder_eq_iff hfresh hwellFormed hsole hlt hthen
  rw [hsame]
  exact hnow.tick.length_eventsAt_deeds hfresh n

/-- The row of a run, up to its end or up to any earlier cycle. -/
theorem State.row_spells {banks : Banks} {instruction : Instruction}
    (hlayout : initial.stations.layout = (Pool.ofBanks banks).layout)
    (hbound : codeOrder < initial.actions.length) (hstart : initial.mark? codeOrder = none)
    (hat : (initial.afterCycles listing total).cursor.instructionAt? listing n = some instruction) :
    (∃ word ∈ (instruction.operation.pattern (banks.delayFor instruction.opClass)).matches',
        initial.row listing codeOrder total <+: word) ∧
      ((∀ id, ¬ (initial.afterCycles listing total).Holds id n) →
        initial.row listing codeOrder total ∈
          (instruction.operation.pattern (banks.delayFor instruction.opClass)).matches') := by
  obtain ⟨_, hnow⟩ := State.execution_afterCycles listing initial total
  have hunbroken (op : AluOp) (hop : instruction.operation.stationOp? = some (.alu op)) :
      Unbroken (banks.delayFor instruction.opClass) (initial.row listing codeOrder total) :=
    State.unbroken_row hfresh hwellFormed hsole hlayout hbound hstart le_rfl hat hop
  have hrow := State.reduceOption_row hfresh hwellFormed hsole hbound hstart le_rfl
  cases hnow.tracked hfresh hlayout hat with
  | @held id slot hslot hseq hdelay hcareer =>
      obtain ⟨hpositive, hbehind⟩ := hcareer.course
      have hfits := (hnow.lifecycle hfresh.free hfresh.delays).fits_at hslot (hseq ▸ hat)
      rw [← hrow] at hbehind
      refine ⟨hbehind.exists_word hpositive (hdelay ▸ hfits) fun op hop => ?_,
        fun hfree => absurd ⟨slot, hslot, hseq⟩ (hfree id)⟩
      exact hunbroken op (hfits.stationOp?_eq.trans (congrArg some hop))
  | gone hfree hcareer =>
      have hcourse := hcareer.course
      rw [← hrow] at hcourse
      have hmem := hcourse.mem_pattern hunbroken
      exact ⟨⟨_, hmem, List.prefix_refl _⟩, fun _ => hmem⟩

end Rows

/-! ## Main statement -/

/-- On every sound configuration, for every instruction that a run fetches once: its row of the timeline is
a word of its pattern, or the beginning of one if a station holds it to the end; it has at most one event
in each cycle; and arithmetic that has its operands works in every cycle until its steps are done. -/
theorem timeline_grammar {listing : Listing} {configuration : Configuration} {last : State}
    {codeOrder : Nat} (hwellFormed : listing.WellFormed) (hsound : configuration.error? = none)
    (hlast : (History.ofListing listing configuration).states.getLast? = some last)
    (honce : last.cursor.executionOrder.count codeOrder = 1) :
    ∃ instruction row, listing.instruction? codeOrder = some instruction ∧
      (History.ofListing listing configuration).timeline[codeOrder]? = some row ∧
      (∃ word ∈ (instruction.operation.pattern
          (configuration.stations.delayFor instruction.opClass)).matches', row <+: word) ∧
      ((∀ id slot, last.stations.slot? id = some slot → slot.codeOrder ≠ codeOrder) →
        row ∈ (instruction.operation.pattern
          (configuration.stations.delayFor instruction.opClass)).matches') ∧
      (∀ frame ∈ (History.ofListing listing configuration).frames,
        frame.steps.countP (fun step => step.event.codeOrder = codeOrder) ≤ 1) ∧
      ∀ count state next id slot op lhs rhs,
        (History.ofListing listing configuration).states[count]? = some state →
        (History.ofListing listing configuration).states[count + 1]? = some next →
        state.stations.slot? id = some slot → slot.codeOrder = codeOrder → slot.op = .alu op →
        slot.j = .ready lhs → slot.k = .ready rhs → 0 < slot.step → row[count + 1]? = some (some .exec) := by
  have hfresh : (listing.initialState configuration.stations).Fresh := Listing.fresh_initialState hsound
  obtain ⟨addresses, hends⟩ : ∃ addresses, (History.ofListing listing configuration).states.getLast? = _ :=
    History.exists_last
  obtain rfl := Option.some.inj (hlast.symm.trans hends)
  rw [State.cursor_knowing] at honce
  obtain ⟨_, hnow⟩ := State.execution_afterCycles listing (listing.initialState configuration.stations)
    ((listing.initialState configuration.stations).cycles listing configuration.maxCycles).length
  obtain ⟨n, instruction, hsole, hat, hinstruction⟩ := hnow.exists_sole hfresh honce
  obtain ⟨hbound, -⟩ := List.getElem?_eq_some_iff.mp hinstruction
  have hrow : (History.ofListing listing configuration).timeline[codeOrder]? =
      some ((listing.initialState configuration.stations).row listing codeOrder
        ((listing.initialState configuration.stations).cycles listing configuration.maxCycles).length) :=
    History.getElem?_timeline hbound
  have hactions : codeOrder < (listing.initialState configuration.stations).actions.length := by
    simpa [Listing.initialState, State.initial] using hbound
  have hstart : (listing.initialState configuration.stations).mark? codeOrder = none := by
    simp [State.mark?, Listing.initialState, State.initial, hbound]
  obtain ⟨hword, hcomplete⟩ :=
    State.row_spells hfresh hwellFormed hsole rfl hactions hstart hat
  refine ⟨instruction, _, hinstruction, hrow, hword, fun hfree => hcomplete ?_, ?_, ?_⟩
  · rintro id ⟨slot, hslot, hseq⟩
    have hfits := (hnow.lifecycle hfresh.free hfresh.delays).fits_at hslot (hseq ▸ hat)
    exact hfree id slot hslot (hfits.codeOrder.trans (hwellFormed.codeOrder_eq hinstruction))
  · intro frame hframe
    obtain ⟨count, hcount⟩ := List.getElem?_of_mem hframe
    exact History.countP_steps_le (p := fun event => event.codeOrder = codeOrder) hcount fun m hm =>
      State.countP_deeds_le hfresh hwellFormed hsole hm
  · intro count state next id slot op lhs rhs hstate hnext hslot hcodeOrder hop hj hk hpositive
    obtain ⟨addresses', rfl⟩ := History.exists_state hstate
    have hle := History.le_of_state hnext
    have hseq := State.seq_eq_of_codeOrder hfresh hwellFormed hsole (by omega) hslot hcodeOrder
    obtain ⟨_, hthen⟩ :=
      State.execution_afterCycles listing (listing.initialState configuration.stations) count
    obtain ⟨held, -, hfits⟩ := (hthen.lifecycle hfresh.free hfresh.delays).fits id slot hslot
    have hmark := State.mark?_of_compute hfresh hwellFormed hsole hactions (by omega) hslot hseq
      ⟨⟨op, lhs, rhs, hop, hj, hk⟩, hpositive, hfits.step_le⟩
    rw [State.row, List.getElem?_map, List.getElem?_range (by omega), Option.map_some, hmark]

namespace Chain

/-- The row of the sum, which waits for the product before it begins. -/
def sumRow : List (Option Action) :=
  [none, none, some .issue, none, none, none, none, none, some .exec, some .exec, some .write, none]

end Chain

/-- The row of the sum spells its pattern. -/
theorem timeline_grammar_chain :
    (History.ofListing Chain.listing {}).timeline[1]? = some Chain.sumRow ∧
      Chain.sumRow ∈ ((Operation.arithmetic .add "f6" "f4" "f2").pattern 2).matches' := by
  have hwellFormed : Chain.listing.WellFormed := by decide
  have hsound : Configuration.error? {} = none := by decide
  have hlast : ((History.ofListing Chain.listing {}).states.getLast?.map fun state =>
      (state.cursor.executionOrder.count 1, state.stations.anyBusy)) = some (1, false) := by
    decide +kernel
  obtain ⟨last, hlast, hstate⟩ := Option.map_eq_some_iff.mp hlast
  obtain ⟨honce, hfree⟩ := Prod.mk.inj hstate
  have hrow : (History.ofListing Chain.listing {}).timeline[1]? = some Chain.sumRow := by decide +kernel
  obtain ⟨instruction, row, hinstruction, hrow', -, hcomplete, -⟩ :=
    timeline_grammar hwellFormed hsound hlast honce
  obtain rfl := Option.some.inj hinstruction
  obtain rfl := Option.some.inj (hrow.symm.trans hrow')
  refine ⟨hrow, hcomplete fun id slot hslot => ?_⟩
  exact absurd hslot (by simp [Pool.anyBusy_eq_false_iff.mp hfree])

end Tomasulo
