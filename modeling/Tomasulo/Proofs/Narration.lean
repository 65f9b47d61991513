import Tomasulo.Proofs.Accounts
import Tomasulo.Proofs.Ending
import Tomasulo.Proofs.Occupancy

/-!
# What a cycle tells

A cycle reports one step for each task of its plan.  A task that found nothing to do would leave no step, so
this says that no task comes in vain, although the plan was drawn up on a state that the earlier tasks have
changed (`Execution.tasks_deeds`).  This module shows that the report is complete and true:

* the steps follow the phases of the plan, and the age of the instructions within a phase
  (`Execution.pairwise_precedes`);
* what the report says of entering and leaving stations is what a comparison of the stations before and after
  the cycle shows (`Execution.card_filled`, `Execution.card_freed`).  Each station is that of at most one
  task, so its change over the cycle is the change by that task (`Execution.change_at`);
* what it says of branches and jumps is what the next instruction and the cursor show (`Execution.fetches`).

Only the state at the beginning of the cycle matters, and of it only that every station takes time and is in
step with its instruction (`State.InStep`).
-/

namespace Tomasulo

/-! ## What is told -/

/-- The phase of a cycle in which a task is carried out. -/
def Task.phase : Task → Nat
  | .issue .. | .branch .. | .jump .. => 0
  | .compute _ => 1
  | .locate _ => 2
  | .load _ => 3
  | .publish _ => 4
  | .commit _ => 5

/-- Whether a deed comes before another: in an earlier phase, or in the same phase for an older
instruction. -/
def Deed.Precedes (earlier later : Deed) : Prop :=
  earlier.task.phase < later.task.phase ∨
    earlier.task.phase = later.task.phase ∧ earlier.seq < later.seq

/-- The stations that are in use and were not before. -/
def Pool.filled (before after : Pool) : Finset Nat :=
  after.busyIds \ before.busyIds

/-- The stations that held an instruction of some kind and are free now. -/
def Pool.freed (kind : Slot → Bool) (before after : Pool) : Finset Nat :=
  {id ∈ before.busyIds | (before.slot? id).any kind ∧ id ∉ after.busyIds}

/-- What happened to the next instruction in a cycle, as the report tells it and as stations and cursor
show it. -/
inductive Fetches (listing : Listing) (state : State) (outcome : Outcome) : Prop
  | issued {instruction : Instruction} {id : Nat} {slot : Slot}
      (hnext : state.cursor.next? listing = some instruction)
      (hcontrol : instruction.isControl = false) (hissued : outcome.report.issued = true)
      (hsilent : outcome.report.control? = none) (hfree : state.stations.slot? id = none)
      (hslot : outcome.state.stations.slot? id = some slot) (hseq : slot.seq = state.cursor.fetched)
      (hcursor : outcome.state.cursor = state.cursor.advance listing none)
  | branched {instruction : Instruction} {comparison : Comparison} {lhs rhs target : String}
      {left right : Float} (hnext : state.cursor.next? listing = some instruction)
      (hoperation : instruction.operation = .branch comparison lhs rhs target)
      (hleft : state.registers.get lhs = .ready left)
      (hright : state.registers.get rhs = .ready right) (hissued : outcome.report.issued = false)
      (htold : outcome.report.control? =
        some (if comparison.holds left right then .taken else .notTaken))
      (hcursor : outcome.state.cursor =
        state.cursor.advance listing (if comparison.holds left right then some target else none))
  | jumped {instruction : Instruction} {target : String}
      (hnext : state.cursor.next? listing = some instruction)
      (hoperation : instruction.operation = .jump target) (hissued : outcome.report.issued = false)
      (htold : outcome.report.control? = some .jump)
      (hcursor : outcome.state.cursor = state.cursor.advance listing (some target))
  | nothing (hplan : ∀ task, (state.tick.plan listing).fetch ≠ .act task)
      (hissued : outcome.report.issued = false) (hsilent : outcome.report.control? = none)
      (hcursor : outcome.state.cursor = state.cursor)

/-- Whether the report of a cycle tells everything that was planned and happened, and nothing else. -/
structure Narrated (listing : Listing) (state : State) (outcome : Outcome) : Prop where
  progressed : outcome.report.progressed = true ↔ outcome.report.steps ≠ []
  /-- One step for each task, in the order of the plan. -/
  steps : outcome.report.steps = (state.deeds listing).map Deed.step
  tasks : (state.deeds listing).map Deed.task = (state.tick.plan listing).tasks
  length : outcome.report.steps.length =
    (state.tick.plan listing).fetchTask?.toList.length + (state.tick.plan listing).computes.length +
      (state.tick.plan listing).locates.toList.length + (state.tick.plan listing).loads.length +
      (state.tick.plan listing).publishes.toList.length + (state.tick.plan listing).commits.length
  ordered : (state.deeds listing).Pairwise Deed.Precedes
  /-- Each step shows the cycle that is under way. -/
  cycle : ∀ step ∈ outcome.report.steps, step.state.cycle = state.cycle + 1
  last : ∀ step, outcome.report.steps.getLast? = some step → step.state = outcome.state
  /-- Everybody who acted is told of. -/
  actions : ∀ codeOrder action, outcome.state.actions[codeOrder]? = some (some action) →
    ∃ step ∈ outcome.report.steps, step.event.codeOrder = codeOrder ∧ step.event.action = action
  issued : outcome.report.issued.toNat = (Pool.filled state.stations outcome.state.stations).card
  broadcast : outcome.report.broadcast.toNat =
    (Pool.freed (fun slot => !slot.isStore) state.stations outcome.state.stations).card
  storesCommitted : outcome.report.storesCommitted =
    (Pool.freed Slot.isStore state.stations outcome.state.stations).card
  fetches : Fetches listing state outcome

/-! ## Order -/

/-- Whether a task comes before another: in an earlier phase, or in the same phase for the station with the
older instruction. -/
def Task.Precedes (pool : Pool) (earlier later : Task) : Prop :=
  earlier.phase < later.phase ∨ earlier.phase = later.phase ∧
    ∃ id other, earlier.station? = some id ∧ later.station? = some other ∧ pool.age id < pool.age other

section Plan

variable {listing : Listing} {state : State} {task : Task}

theorem Task.phase_of_fetch (hfetch : task.station? = none) : task.phase = 0 := by
  cases task <;> simp_all [station?, phase]

/-- Stations are chosen by age, and no two hold instructions of the same age. -/
theorem Pool.pairwise_lt_byAge {pool : Pool} (condition : Occupied → Bool)
    (hdistinct : ∀ id other slot held, pool.slot? id = some slot → pool.slot? other = some held →
      slot.seq = held.seq → id = other) :
    (pool.byAge condition).Pairwise fun a b => pool.age a < pool.age b := by
  refine ((pairwise_byAge condition).and (nodup_byAge condition)).imp_of_mem ?_
  intro a b ha hb ⟨hle, hne⟩
  obtain ⟨entry, hentry, rfl, -⟩ := mem_byAge_iff.mp ha
  obtain ⟨rival, hrival, rfl, -⟩ := mem_byAge_iff.mp hb
  refine lt_of_le_of_ne hle fun hsame => hne ?_
  rw [age_of_mem_occupied hentry, age_of_mem_occupied hrival] at hsame
  exact hdistinct _ _ _ _ (slot?_of_mem_occupied hentry) (slot?_of_mem_occupied hrival) hsame

/-- The tasks of a plan, with the phase of each list. -/
def Plan.phases (plan : Plan) : List (Nat × List Task) :=
  [(0, plan.fetchTask?.toList), (1, plan.computes.map .compute), (2, plan.locates.toList.map .locate),
    (3, plan.loads.map .load), (4, plan.publishes.toList.map .publish), (5, plan.commits.map .commit)]

theorem Plan.tasks_eq_flatten (plan : Plan) : plan.tasks = (plan.phases.map Prod.snd).flatten := by
  simp [tasks, phases]

theorem phase_of_mem_phases :
    ∀ entry ∈ (state.plan listing).phases, ∀ task ∈ entry.2, task.phase = entry.1 := by
  simp only [Plan.phases, List.forall_mem_cons, List.forall_mem_map, List.not_mem_nil, false_imp_iff,
    implies_true, and_true, Task.phase]
  intro task htask
  exact Task.phase_of_fetch (station?_of_fetch (Plan.mem_fetchTask?_iff.mp htask))

/-- The tasks of a plan follow the phases, and the age of the instructions within a phase. -/
theorem pairwise_precedes_tasks (hlife : Lifecycle listing state) :
    (state.plan listing).tasks.Pairwise (Task.Precedes state.stations) := by
  rw [Plan.tasks_eq_flatten, List.pairwise_flatten, List.pairwise_map]
  constructor
  · have hphase {ids : List Nat} {phase : Nat → Task}
        (hsorted : ids.Pairwise fun a b => state.stations.age a < state.stations.age b)
        (hstation : ∀ id, (phase id).station? = some id)
        (hsame : ∀ id other, (phase id).phase = (phase other).phase) :
        (ids.map phase).Pairwise (Task.Precedes state.stations) :=
      List.pairwise_map.mpr
        (hsorted.imp fun hlt => .inr ⟨hsame _ _, _, _, hstation _, hstation _, hlt⟩)
    have hone (choice : Option Nat) :
        choice.toList.Pairwise fun a b => state.stations.age a < state.stations.age b := by
      cases choice <;> simp
    have hbyAge (condition : Occupied → Bool) := Pool.pairwise_lt_byAge condition hlife.distinct
    simp only [Plan.phases, List.map_cons, List.map_nil, List.forall_mem_cons, List.not_mem_nil,
      false_imp_iff, implies_true, and_true]
    refine ⟨?_, hphase (hbyAge _) (fun _ => rfl) (fun _ _ => rfl),
      hphase (hone _) (fun _ => rfl) (fun _ _ => rfl),
      hphase (hbyAge _) (fun _ => rfl) (fun _ _ => rfl),
      hphase (hone _) (fun _ => rfl) (fun _ _ => rfl),
      hphase (hbyAge _) (fun _ => rfl) (fun _ _ => rfl)⟩
    cases (state.plan listing).fetchTask? <;> simp
  · -- Tasks of different lists differ by their phase.
    have hsorted : (state.plan listing).phases.Pairwise fun entry other => entry.1 < other.1 := by
      simp [Plan.phases]
    refine hsorted.imp_of_mem fun {entry other} hentry hother hlt task htask rival hrival => .inl ?_
    rw [phase_of_mem_phases entry hentry task htask, phase_of_mem_phases other hother rival hrival]
    exact hlt

end Plan

section Cycle

variable {listing : Listing} {initial frozen state : State} {journal : List Deed} {todo : List Task}

/-- The steps of a cycle follow the phases, and the age of the instructions within a phase. -/
theorem Execution.pairwise_precedes (hnow : Execution listing initial frozen journal state [])
    (hstart : initial.InStep listing) : (state.deeds listing).Pairwise Deed.Precedes := by
  have hthen := hnow.tick
  have hsorted := pairwise_precedes_tasks (hthen.inStep hstart).lifecycle
  rw [← hthen.tasks_deeds hstart, List.pairwise_map] at hsorted
  refine hsorted.imp_of_mem fun {earlier later} hearlier hlater hprecedes => ?_
  -- A deed is about the instruction that its station held when the plan was drawn up.
  have hseq {deed : Deed} (hdeed : deed ∈ state.deeds listing) {id : Nat}
      (hstation : deed.task.station? = some id) : deed.seq = state.tick.stations.age id := by
    rcases hthen.seq_of_deed hstart hdeed with ⟨site, old, hsite, hold, hseq⟩ | ⟨hnone, -⟩
    · obtain rfl := Option.some.inj (hstation.symm.trans hsite)
      rw [hseq, Pool.age, hold, Option.map_some, Option.getD_some]
    · exact absurd (hstation.symm.trans hnone) (by simp)
  rcases hprecedes with hlt | ⟨hsame, id, other, hid, hother, hlt⟩
  · exact .inl hlt
  · rw [← hseq hearlier hid, ← hseq hlater hother] at hlt
    exact .inr ⟨hsame, hlt⟩

/-- No two steps of a cycle change the same station. -/
theorem Execution.pairwise_site_ne (hnow : Execution listing initial frozen journal state todo)
    (hstart : initial.InStep listing) :
    (deedsFrom listing todo state).Pairwise fun earlier later =>
      ∀ id, earlier.task.site? = some id → later.task.site? ≠ some id := by
  have happart := (hnow.underway hstart.delays).apart
  rw [← hnow.tasks_deeds hstart, List.pairwise_map] at happart
  refine happart.imp fun {earlier later} ⟨site, hstation, hother⟩ id hearlier hlater => hother ?_
  rw [hearlier, ← hlater, Task.site?_eq hstation]

end Cycle

/-! ## Stations -/

/-- Which instruction a station holds, by its position, and what the station does with it. -/
def Pool.held? (pool : Pool) (id : Nat) : Option (Nat × StationOp) :=
  (pool.slot? id).map fun slot => (slot.seq, slot.op)

section Stations

variable {listing : Listing} {initial frozen state : State} {journal : List Deed} {todo : List Task}
  {deed : Deed} {id : Nat}

theorem Pool.held?_eq_none_iff {pool : Pool} : pool.held? id = none ↔ pool.slot? id = none := by
  simp [held?]

theorem Pool.mem_filled_iff {before after : Pool} :
    id ∈ filled before after ↔ before.held? id = none ∧ after.held? id ≠ none := by
  rw [filled, Finset.mem_sdiff, mem_busyIds_iff, mem_busyIds_iff, held?_eq_none_iff, Ne,
    held?_eq_none_iff, and_comm]
  simp [Option.isSome_iff_ne_none]

theorem Pool.mem_freed_iff {before after : Pool} {kind : StationOp → Bool} :
    id ∈ freed (fun slot => kind slot.op) before after ↔
      (∃ entry, before.held? id = some entry ∧ kind entry.2 = true) ∧ after.held? id = none := by
  rw [freed, Finset.mem_filter, mem_busyIds_iff, mem_busyIds_iff, held?_eq_none_iff]
  cases hslot : before.slot? id with
  | none => simp [held?, hslot]
  | some slot => simp [held?, hslot, Option.isSome_iff_ne_none]

/-- A deed is seen in no other station than its own. -/
theorem Deed.Valid.held?_of_ne (hvalid : deed.Valid listing) (hother : deed.task.site? ≠ some id) :
    deed.after.stations.held? id = deed.before.stations.held? id := by
  obtain ⟨after, hchange, -, -, -, hstations, -⟩ := hvalid.change
  unfold Pool.held?
  rw [hstations]
  rcases hchange.slot?_of_ne hother with hsame | ⟨producer, value, hsame⟩
  · rw [hsame]
  · rw [hsame, Option.map_map]
    rfl

/-- What a deed does to the station that it changes, and how it is told. -/
inductive Deed.Turn (deed : Deed) (id : Nat) : Prop
  | filled (hfree : deed.before.stations.held? id = none)
      (hheld : deed.after.stations.held? id ≠ none) (hissue : deed.event.isIssue = true)
      (hbroadcast : deed.event.isBroadcast = false) (hcommit : deed.event.isCommit = false)
  | kept (hheld : deed.before.stations.held? id ≠ none)
      (hsame : deed.after.stations.held? id = deed.before.stations.held? id)
      (hissue : deed.event.isIssue = false) (hbroadcast : deed.event.isBroadcast = false)
      (hcommit : deed.event.isCommit = false)
  | freed {seq : Nat} {op : StationOp} (hheld : deed.before.stations.held? id = some (seq, op))
      (hfree : deed.after.stations.held? id = none) (hissue : deed.event.isIssue = false)
      (hbroadcast : deed.event.isBroadcast = decide (op ≠ .store))
      (hcommit : deed.event.isCommit = decide (op = .store))

theorem Deed.Valid.turn (hvalid : deed.Valid listing) (hsite : deed.task.site? = some id) :
    deed.Turn id := by
  have hown {site : Nat} (hstation : deed.task.station? = some site) : site = id :=
    Option.some.inj ((Task.site?_eq hstation).symm.trans hsite)
  cases hvalid.stride with
  | @entered instruction site slot name readings htask hevent _ _ _ _ hslot =>
      obtain rfl : site = id := by simpa [htask, Task.site?] using hsite
      have henabled := hvalid.enabled
      rw [htask] at henabled
      obtain ⟨-, -, station, hstation, hempty, -⟩ := henabled
      refine .filled ?_ (by simp [Pool.held?, hslot]) (by rw [hevent]; rfl) (by rw [hevent]; rfl)
        (by rw [hevent]; rfl)
      simp [Pool.held?, Pool.slot?, hstation, hempty]
  | steered hnone => exact absurd (hnone.symm.trans hsite) (by simp)
  | advanced hstation hold hnext hadvances =>
      obtain rfl := hown hstation
      obtain ⟨hissue, hbroadcast, hcommit, -⟩ := Event.stays_iff hadvances.stays
      refine .kept (by simp [Pool.held?, hold]) ?_ hissue hbroadcast hcommit
      simp [Pool.held?, hold, hnext, hadvances.seq, hadvances.op]
  | left hstation hold hfree hleaves =>
      obtain rfl := hown hstation
      refine .freed (by rw [Pool.held?, hold]; rfl) (by simp [Pool.held?, hfree]) ?_ ?_ ?_ <;>
        generalize deed.event = event at hleaves <;>
        cases hleaves <;> simp_all [Event.isIssue, Event.isBroadcast, Event.isCommit]

/-- Over the rest of a cycle a station changes as by the one deed that is about it, or not at all. -/
theorem Execution.change_at (hnow : Execution listing initial frozen journal state todo)
    (hstart : initial.InStep listing) (id : Nat) :
    (∃ deed ∈ deedsFrom listing todo state, deed.Valid listing ∧ deed.task.site? = some id ∧
        (∀ other ∈ deedsFrom listing todo state, other.task.site? = some id → other = deed) ∧
        deed.before.stations.held? id = state.stations.held? id ∧
        (stateAfter state (deedsFrom listing todo state)).stations.held? id =
          deed.after.stations.held? id) ∨
      (∀ deed ∈ deedsFrom listing todo state, deed.task.site? ≠ some id) ∧
        (stateAfter state (deedsFrom listing todo state)).stations.held? id =
          state.stations.held? id := by
  refine hnow.rest_of_deeds (motive := fun state deeds =>
    (deeds.Pairwise fun earlier later =>
        ∀ id, earlier.task.site? = some id → later.task.site? ≠ some id) →
      (∃ deed ∈ deeds, deed.Valid listing ∧ deed.task.site? = some id ∧
        (∀ other ∈ deeds, other.task.site? = some id → other = deed) ∧
        deed.before.stations.held? id = state.stations.held? id ∧
        (stateAfter state deeds).stations.held? id = deed.after.stations.held? id) ∨
      (∀ deed ∈ deeds, deed.task.site? ≠ some id) ∧
        (stateAfter state deeds).stations.held? id = state.stations.held? id) hstart
    (fun _ _ => .inr ⟨by simp, rfl⟩) (fun deed later hvalid _ ih hpairs => ?_)
    (hnow.pairwise_site_ne hstart)
  obtain ⟨hfirst, hrest⟩ := List.pairwise_cons.mp hpairs
  rw [stateAfter_cons]
  by_cases hsite : deed.task.site? = some id
  · have hnone (other : Deed) (hother : other ∈ later) : other.task.site? ≠ some id :=
      hfirst other hother id hsite
    rcases ih hrest with ⟨other, hother, -, hsame, -⟩ | ⟨-, hkept⟩
    · exact absurd hsame (hnone other hother)
    · refine .inl ⟨deed, List.mem_cons_self .., hvalid, hsite, ?_, rfl, hkept⟩
      exact List.forall_mem_cons.mpr ⟨fun _ => rfl, fun other hother hsame =>
        absurd hsame (hnone other hother)⟩
  · rw [← hvalid.held?_of_ne hsite]
    rcases ih hrest with ⟨other, hother, hthen, hsame, honly, hchange⟩ | ⟨hnone, hkept⟩
    · refine .inl ⟨other, List.mem_cons_of_mem _ hother, hthen, hsame, ?_, hchange⟩
      exact List.forall_mem_cons.mpr ⟨fun hhead => absurd hhead hsite, honly⟩
    · exact .inr ⟨List.forall_mem_cons.mpr ⟨hsite, hnone⟩, hkept⟩

/-- A set of stations is as large as the number of deeds that single them out. -/
theorem card_eq_countP {deeds : List Deed} {ids : Finset Nat} {p : Deed → Bool}
    (hpairs : deeds.Pairwise fun earlier later =>
      ∀ id, earlier.task.site? = some id → later.task.site? ≠ some id)
    (hsite : ∀ deed ∈ deeds, p deed = true → ∃ id, deed.task.site? = some id)
    (hmem : ∀ id, id ∈ ids ↔ ∃ deed ∈ deeds, p deed = true ∧ deed.task.site? = some id) :
    ids.card = deeds.countP p := by
  have hnodup : ((deeds.filter p).filterMap fun deed => deed.task.site?).Nodup := by
    refine (hpairs.filter p).filterMap _ ?_
    rintro earlier later hne id hid other hother rfl
    exact hne id hid hother
  have hids : ids = ((deeds.filter p).filterMap fun deed => deed.task.site?).toFinset := by
    ext id
    simp [hmem, and_assoc]
  rw [hids, List.toFinset_card_of_nodup hnodup, List.length_filterMap_eq_countP, List.countP_filter]
  refine List.countP_congr fun deed hdeed => ?_
  simp only [Bool.and_eq_true, Option.isSome_iff_exists]
  exact and_iff_right_of_imp (hsite deed hdeed)

/-- Entering and leaving a station is always told of a station. -/
theorem Deed.Valid.exists_site (hvalid : deed.Valid listing)
    (htold : deed.event.isIssue = true ∨ deed.event.isBroadcast = true ∨ deed.event.isCommit = true) :
    ∃ id, deed.task.site? = some id := by
  cases hvalid.stride with
  | entered htask => exact ⟨_, by rw [htask]; rfl⟩
  | steered _ _ _ hsteers =>
      generalize deed.event = event at hsteers htold
      cases hsteers <;> simp [Event.isIssue, Event.isBroadcast, Event.isCommit] at htold
  | advanced hstation => exact ⟨_, Task.site?_eq hstation⟩
  | left hstation => exact ⟨_, Task.site?_eq hstation⟩

section Changes

variable (hnow : Execution listing initial frozen journal state []) (hstart : initial.InStep listing)

include hnow hstart

/-- The stations that have changed in some way are those of the deeds that tell of such a change. -/
theorem Execution.card_changed {ids : Finset Nat} (told : Event → Bool)
    (changes : Option (Nat × StationOp) → Option (Nat × StationOp) → Prop)
    (hmem : ∀ id, id ∈ ids ↔ changes (state.stations.held? id)
      ((state.cycleOnce listing).state.stations.held? id))
    (hsame : ∀ held, ¬ changes held held)
    (hturn : ∀ (deed : Deed) id, deed.Turn id → (told deed.event = true ↔
      changes (deed.before.stations.held? id) (deed.after.stations.held? id)))
    (hsite : ∀ deed : Deed, deed.Valid listing → told deed.event = true →
      ∃ id, deed.task.site? = some id) :
    ids.card = (state.deeds listing).countP (told ·.event) := by
  have hthen := hnow.tick
  refine card_eq_countP (hthen.pairwise_site_ne hstart)
    (fun deed hdeed => hsite deed (hthen.valid_of_mem_deeds hstart hdeed)) fun id => ?_
  have hbegun : state.stations.held? id = state.tick.stations.held? id :=
    (congrArg (Option.map _) Pool.slot?_rest).symm
  rw [hmem, hbegun, state_cycleOnce]
  rcases hthen.change_at hstart id with ⟨deed, hdeed, hvalid, hid, honly, hbefore, hafter⟩ |
    ⟨hnone, hkept⟩
  · rw [State.deeds, hafter, ← hbefore, ← hturn deed id (hvalid.turn hid)]
    constructor
    · exact fun htold => ⟨deed, hdeed, htold, hid⟩
    · rintro ⟨other, hother, htold, hsame⟩
      exact honly other hother hsame ▸ htold
  · rw [State.deeds, hkept]
    refine iff_of_false (hsame _) ?_
    rintro ⟨deed, hdeed, -, hid⟩
    exact hnone deed hdeed hid

theorem Execution.card_filled :
    (Pool.filled state.stations (state.cycleOnce listing).state.stations).card =
      (state.deeds listing).countP (·.event.isIssue) := by
  refine hnow.card_changed hstart Event.isIssue (fun before after => before = none ∧ after ≠ none)
    (fun id => Pool.mem_filled_iff) (fun held hchange => hchange.2 hchange.1) (fun deed id hturn => ?_)
    fun deed hvalid htold => hvalid.exists_site (.inl htold)
  cases hturn with
  | filled hfree hheld hissue => simp [hissue, hfree, hheld]
  | kept hheld _ hissue => simp [hissue, hheld]
  | freed hheld _ hissue => simp [hissue, hheld]

/-- The stations that were freed, told by the kind of instruction that they held. -/
theorem Execution.card_freed (kind : StationOp → Bool) (told : Event → Bool)
    (hturn : ∀ (deed : Deed) id, deed.Turn id → (told deed.event = true ↔
      (∃ entry, deed.before.stations.held? id = some entry ∧ kind entry.2 = true) ∧
        deed.after.stations.held? id = none))
    (hsite : ∀ deed : Deed, deed.Valid listing → told deed.event = true →
      ∃ id, deed.task.site? = some id) :
    (Pool.freed (fun slot => kind slot.op) state.stations
        (state.cycleOnce listing).state.stations).card =
      (state.deeds listing).countP (told ·.event) := by
  refine hnow.card_changed hstart told (fun before after =>
      (∃ entry, before = some entry ∧ kind entry.2 = true) ∧ after = none)
    (fun id => Pool.mem_freed_iff) ?_ hturn hsite
  rintro held ⟨⟨entry, rfl, -⟩, hnone⟩
  simp at hnone

theorem Execution.card_freed_isStore :
    (Pool.freed Slot.isStore state.stations (state.cycleOnce listing).state.stations).card =
      (state.deeds listing).countP (·.event.isCommit) := by
  refine hnow.card_freed hstart (· == .store) Event.isCommit (fun deed id hturn => ?_)
    fun deed hvalid htold => hvalid.exists_site (.inr (.inr htold))
  cases hturn with
  | filled hfree _ _ _ hcommit => simp [hcommit, hfree]
  | kept hheld hsame _ _ hcommit => simp [hcommit, hsame, hheld]
  | freed hheld hfree _ _ hcommit => simp [hcommit, hheld, hfree]

theorem Execution.card_freed_not_isStore :
    (Pool.freed (fun slot => !slot.isStore) state.stations
        (state.cycleOnce listing).state.stations).card =
      (state.deeds listing).countP (·.event.isBroadcast) := by
  refine hnow.card_freed hstart (fun op => !(op == .store)) Event.isBroadcast
    (fun deed id hturn => ?_) fun deed hvalid htold => hvalid.exists_site (.inr (.inl htold))
  cases hturn with
  | filled hfree _ _ hbroadcast => simp [hbroadcast, hfree]
  | kept hheld hsame _ hbroadcast => simp [hbroadcast, hsame, hheld]
  | freed hheld hfree _ hbroadcast => simp [hbroadcast, hheld, hfree]

end Changes

end Stations

/-! ## The fetch slot -/

section Fetch

variable {listing : Listing} {initial frozen state : State} {journal : List Deed} {todo : List Task}
  {deed : Deed}

/-- Only the fetch slot issues and steers. -/
theorem Deed.Valid.silent_of_station (hvalid : deed.Valid listing) {id : Nat}
    (hstation : deed.task.station? = some id) :
    deed.event.isIssue = false ∧ deed.event.control? = none := by
  have hcounts := hvalid.counts.2
  rw [hstation, Option.isNone_some, Bool.toNat_false, Nat.add_eq_zero_iff] at hcounts
  simpa [Bool.toNat_eq_zero] using hcounts

/-- The stations tell nothing of the next instruction and leave it where it is. -/
theorem Execution.silent_of_stations (hnow : Execution listing initial frozen journal state todo)
    (hstart : initial.InStep listing) (hstations : ∀ task ∈ todo, ∃ id, task.station? = some id) :
    (∀ deed ∈ deedsFrom listing todo state,
        deed.event.isIssue = false ∧ deed.event.control? = none) ∧
      (stateAfter state (deedsFrom listing todo state)).cursor = state.cursor := by
  constructor
  · intro deed hdeed
    have htask : deed.task ∈ todo := by
      rw [← hnow.tasks_deeds hstart]
      exact List.mem_map_of_mem hdeed
    obtain ⟨id, hstation⟩ := hstations deed.task htask
    exact (hnow.valid_of_mem_deeds hstart hdeed).silent_of_station hstation
  · refine hnow.kept_finish hstart State.cursor fun deed hvalid htask => ?_
    obtain ⟨id, hstation⟩ := hstations deed.task htask
    exact hvalid.cursor_of_station hstation

/-- What a report says of the next instruction is what the deed of the fetch slot says. -/
theorem report_of_deeds {fetching later : List Deed} (hdeeds : state.deeds listing = fetching ++ later)
    (hsilent : ∀ deed ∈ later, deed.event.isIssue = false ∧ deed.event.control? = none) :
    (state.cycleOnce listing).report.issued = fetching.any (·.event.isIssue) ∧
      (state.cycleOnce listing).report.control? = fetching.findSome? (·.event.control?) := by
  have hissue : later.any (·.event.isIssue) = false :=
    List.any_eq_false.mpr fun deed hdeed => by simp [(hsilent deed hdeed).1]
  have hcontrol : later.findSome? (·.event.control?) = none :=
    List.findSome?_eq_none_iff.mpr fun deed hdeed => (hsilent deed hdeed).2
  unfold Report.issued Report.control?
  rw [steps_cycleOnce, List.any_map, List.findSome?_map, hdeeds, List.any_append, List.findSome?_append]
  simp only [Function.comp_def, Deed.step]
  exact ⟨by rw [hissue, Bool.or_false], by rw [hcontrol, Option.or_none]⟩

variable (hnow : Execution listing initial frozen journal state []) (hstart : initial.InStep listing)

include hnow hstart

theorem Execution.fetches : Fetches listing state (state.cycleOnce listing) := by
  have hthen := hnow.tick
  have hplan : (state.tick.plan listing).fetch = state.tick.fetch listing := rfl
  have hstations (task : Task) (htask : task ∈ (state.tick.plan listing).stationTasks) :
      ∃ id, task.station? = some id := Plan.station?_of_mem htask
  cases hfetch : (state.tick.plan listing).fetch with
  | act task =>
      have htasks : (state.tick.plan listing).tasks = task :: (state.tick.plan listing).stationTasks := by
        rw [Plan.tasks_eq, Plan.fetchTask?, hfetch]
        rfl
      rw [htasks] at hthen
      have hunderway := hthen.underway hstart.delays
      have henabled := hunderway.enabled task (List.mem_cons_self ..)
      obtain ⟨event, after, hperform⟩ := henabled.exists_perform (hthen.inStep hstart).lifecycle
      have hlater := hthen.act hperform
      have hdeeds : state.deeds listing =
          [⟨task, state.tick, event, after.note event.codeOrder event.action⟩] ++ deedsFrom listing
            (state.tick.plan listing).stationTasks (after.note event.codeOrder event.action) := by
        rw [State.deeds, htasks, deedsFrom, hperform]
        rfl
      obtain ⟨hsilent, hcursor⟩ := hlater.silent_of_stations hstart hstations
      obtain ⟨hissued, hcontrol⟩ := report_of_deeds hdeeds hsilent
      have hend : (state.cycleOnce listing).state = stateAfter (after.note event.codeOrder event.action)
          (deedsFrom listing (state.tick.plan listing).stationTasks
            (after.note event.codeOrder event.action)) := by
        rw [state_cycleOnce, hdeeds, List.singleton_append, stateAfter_cons]
      rw [← hend] at hcursor
      cases task with
      | issue instruction id =>
          obtain ⟨hnext, hissuable, station, hstation, hempty, -⟩ := henabled
          obtain ⟨slot, _, _, hbound, hcapture, rfl, rfl⟩ := issue_spec hperform
          -- No later task of the cycle is about the station that has just been filled.
          have hkept := hlater.kept_finish hstart (fun state => state.stations.held? id)
            fun deed hvalid htask => hvalid.held?_of_ne fun hsite => by
              obtain ⟨site, hsite', hapart⟩ := (List.pairwise_cons.mp hunderway.apart).1 _ htask
              rw [Task.site?_eq hsite'] at hsite
              exact hapart hsite.symm
          have hentered : (state.tick.stations.put id slot).held? id =
              some (state.cursor.fetched, slot.op) := by
            rw [Pool.held?, Pool.slot?_put hbound, if_pos rfl, Option.map_some,
              Slot.seq_capture? hcapture]
            rfl
          rw [← hend] at hkept
          obtain ⟨held, hheld, hsame⟩ := Option.map_eq_some_iff.mp (hkept.trans hentered)
          refine .issued hnext hissuable hissued hcontrol ?_ hheld (Prod.mk.inj hsame).1 hcursor
          rw [← Pool.slot?_rest]
          simp [Pool.slot?, show state.stations.rest[id]? = some station from hstation, hempty]
      | branch instruction comparison lhs rhs target =>
          obtain ⟨hnext, left, right, hoperation, hleft, hright⟩ := henabled
          obtain ⟨rfl, rfl⟩ := Prod.mk.inj (Option.some.inj hperform)
          exact .branched hnext hoperation hleft hright hissued hcontrol hcursor
      | jump instruction target =>
          obtain ⟨hnext, hoperation⟩ := henabled
          obtain ⟨rfl, rfl⟩ := Prod.mk.inj (Option.some.inj hperform)
          exact .jumped hnext hoperation hissued hcontrol hcursor
      | compute | locate | load | publish | commit =>
          exact absurd (station?_of_fetch (hplan.symm.trans hfetch)) (by simp [Task.station?])
  | exhausted | stall =>
      have htasks : (state.tick.plan listing).tasks = (state.tick.plan listing).stationTasks := by
        rw [Plan.tasks_eq, Plan.fetchTask?, hfetch]
        rfl
      rw [htasks] at hthen
      obtain ⟨hsilent, hcursor⟩ := hthen.silent_of_stations hstart hstations
      have hdeeds : state.deeds listing = [] ++
          deedsFrom listing (state.tick.plan listing).stationTasks state.tick := by
        rw [State.deeds, htasks, List.nil_append]
      obtain ⟨hissued, hcontrol⟩ := report_of_deeds hdeeds hsilent
      refine .nothing (fun task => by simp [hfetch]) hissued hcontrol ?_
      rw [state_cycleOnce, State.deeds, htasks]
      exact hcursor

end Fetch

/-! ## Cycles -/

section Cycles

variable {listing : Listing} {initial frozen state : State} {journal : List Deed} {todo : List Task}

theorem Execution.cycle_of_deeds (hnow : Execution listing initial frozen journal state todo)
    (hstart : initial.InStep listing) :
    ∀ deed ∈ deedsFrom listing todo state, deed.after.cycle = state.cycle := by
  refine hnow.rest_of_deeds (motive := fun state deeds => ∀ deed ∈ deeds,
    deed.after.cycle = state.cycle) hstart (by simp) fun deed later hvalid _ ih => ?_
  have hcycle := hvalid.frame.2.2
  exact List.forall_mem_cons.mpr ⟨hcycle, fun other hother => (ih other hother).trans hcycle⟩

/-- A mark that stands at the end of a cycle was there before, or some deed left it. -/
theorem Execution.marked_by_deed (hnow : Execution listing initial frozen journal state todo)
    (hstart : initial.InStep listing) {codeOrder : Nat} {action : Action}
    (hmark : (stateAfter state (deedsFrom listing todo state)).actions[codeOrder]? = some (some action)) :
    state.actions[codeOrder]? = some (some action) ∨
      ∃ deed ∈ deedsFrom listing todo state,
        deed.event.codeOrder = codeOrder ∧ deed.event.action = action := by
  refine hnow.rest_of_deeds (motive := fun state deeds =>
    (stateAfter state deeds).actions[codeOrder]? = some (some action) →
      state.actions[codeOrder]? = some (some action) ∨
        ∃ deed ∈ deeds, deed.event.codeOrder = codeOrder ∧ deed.event.action = action) hstart
    (fun _ => .inl) (fun deed later hvalid _ ih hmark => ?_) hmark
  rw [stateAfter_cons] at hmark
  rcases ih hmark with hthere | ⟨other, hother, htold⟩
  · rw [hvalid.frame.2.1, List.getElem?_set] at hthere
    split at hthere
    case isTrue hsame =>
      split at hthere
      case isTrue =>
        have haction := Option.some.inj (Option.some.inj hthere)
        exact .inr ⟨deed, List.mem_cons_self .., hsame, haction⟩
      case isFalse => exact absurd hthere (by simp)
    case isFalse => exact .inl hthere
  · exact .inr ⟨other, List.mem_cons_of_mem _ hother, htold⟩

/-- The report of a cycle is complete and true. -/
theorem Execution.narrated (hnow : Execution listing initial frozen journal state [])
    (hstart : initial.InStep listing) : Narrated listing state (state.cycleOnce listing) := by
  have hthen := hnow.tick
  have htasks : (state.deeds listing).map Deed.task = (state.tick.plan listing).tasks :=
    hthen.tasks_deeds hstart
  have hsteps : (state.cycleOnce listing).report.steps = (state.deeds listing).map Deed.step :=
    steps_cycleOnce state
  obtain ⟨hissued, hbroadcast, hcommitted, -⟩ := hnow.report_counts hstart
  exact
    { progressed := by
        rw [hsteps, Ne, List.map_eq_nil_iff, ← List.map_eq_nil_iff (f := Deed.task), htasks,
          ← progressed_eq_false_iff, Bool.not_eq_false]
      steps := hsteps
      tasks := htasks
      length := by
        rw [hsteps, List.length_map, ← List.length_map (f := Deed.task), htasks]
        simp [Plan.tasks, Nat.add_assoc]
      ordered := hnow.pairwise_precedes hstart
      cycle := by
        rw [hsteps]
        exact List.forall_mem_map.mpr (hthen.cycle_of_deeds hstart)
      last := fun step hlast => by
        rw [hsteps, List.getLast?_map] at hlast
        obtain ⟨deed, hdeed, rfl⟩ := Option.map_eq_some_iff.mp hlast
        rw [state_cycleOnce, stateAfter, hdeed]
        rfl
      actions := fun codeOrder action hmark => by
        rw [state_cycleOnce] at hmark
        rcases hthen.marked_by_deed hstart hmark with hbefore | ⟨deed, hdeed, htold⟩
        · rw [State.tick, List.getElem?_map] at hbefore
          obtain ⟨_, -, hnone⟩ := Option.map_eq_some_iff.mp hbefore
          exact absurd hnone (by simp)
        · exact ⟨deed.step, hsteps ▸ List.mem_map_of_mem hdeed, htold⟩
      issued := by rw [hissued, hnow.card_filled hstart]
      broadcast := by rw [hbroadcast, hnow.card_freed_not_isStore hstart]
      storesCommitted := by rw [hcommitted, hnow.card_freed_isStore hstart]
      fetches := hnow.fetches hstart }

end Cycles

/-- From every state and snapshot that a sound configuration reaches, the report of one more cycle tells
everything that was planned and happened: one step for each task of the plan, in its order, and counters
that agree with the stations, the next instruction and the cursor before and after the cycle. -/
theorem cycle_narrated {listing : Listing} {registers : RegisterFile} {memory : Memory}
    {configuration : Configuration} (hsound : configuration.error? = none) {journal : List Deed}
    {state : State}
    (hobserved :
      Observed listing (.initial listing registers memory configuration.stations) journal state) :
    Narrated listing state (state.cycleOnce listing) := by
  obtain ⟨_, _, hnow⟩ := hobserved.execution
  have hbegun : (State.initial listing registers memory configuration.stations).InStep listing :=
    ⟨.of_free fun _ => Pool.slot?_ofBanks _, fun _ hbound => Pool.delay_ofBanks_pos hsound hbound⟩
  -- Any state that is in step with its instructions can be taken as the start of an execution.
  exact Execution.start.narrated (hnow.inStep hbegun)

/-- In the eleventh cycle of the loop over a cell an instruction is issued, the address of the second read is
computed, and the first store writes the cell and leaves its station. -/
theorem cycle_narrated_countdown :
    Configuration.error? {} = none ∧
      Narrated Countdown.listing (Countdown.state 10)
        ((Countdown.state 10).cycleOnce Countdown.listing) ∧
      (((Countdown.state 10).cycleOnce Countdown.listing).report.steps.map
        fun step => (step.event.codeOrder, step.event.action)) = [(2, .issue), (1, .exec), (3, .write)] ∧
      ((Countdown.state 10).cycleOnce Countdown.listing).report.storesCommitted = 1 := by
  have hsound : Configuration.error? {} = none := by decide
  have hobserved : Observed Countdown.listing (Countdown.listing.initialState {})
      ((Countdown.listing.initialState {}).journal Countdown.listing 10) (Countdown.state 10) :=
    .between (Run.afterCycles 10)
  exact ⟨hsound, cycle_narrated hsound hobserved, by decide +kernel, by decide +kernel⟩

end Tomasulo
