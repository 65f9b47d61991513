import Tomasulo.Proofs.Career
import Tomasulo.Proofs.Replay

/-!
# How a run ends

A run ends with a quiet cycle or at the cap, and reports whether work was left.  This module shows that the
report is true (`completion_truthful`).

A cycle makes progress exactly if it changes the content of the machine: what has been fetched, the
registers, the memory, or what some station holds.  A quiet cycle clears marks and does nothing else, and so
do all cycles after it.  For the converse look at the first task of a cycle.  It either fetches, and what has
been fetched stays fetched, or it moves an instruction on in its station (`Deed.Valid.moves`); no later task
of the cycle is about that station, so the move is still to be seen when the cycle is over
(`Execution.moves_of_hasWork`).
-/

namespace Tomasulo

/-- Whether two states hold the same: cursor, registers, memory, and the content of each station. -/
structure State.SameContent (state other : State) : Prop where
  cursor : state.cursor = other.cursor
  registers : state.registers = other.registers
  slots : ∀ id, state.stations.slot? id = other.stations.slot? id
  memory : state.memory = other.memory

/-- Whether a history tells the truth about a run with a cap on its cycles. -/
structure History.Truthful (history : History) (cap : Nat) : Prop where
  /-- Every state has a trace. -/
  parallel : (history.frames.map Frame.steps).length = history.states.length
  bounded : history.states.length ≤ cap + 1
  numbered : ∀ {n : Nat} {state : State}, history.states[n]? = some state → state.cycle = n
  /-- All recorded cycles made progress, with the possible exception of the last one. -/
  progressed : ∀ {n : Nat} {state : State}, history.states[n]? = some state →
    n + 2 < history.states.length → state.hasWork history.listing = true
  /-- The cycles that count are those with progress. -/
  counted : history.statistics.cycles =
    history.states.dropLast.countP (State.hasWork history.listing)
  /-- A run is finished if no cycle after it would make progress. -/
  finished : ∀ {last : State}, history.states.getLast? = some last →
    (history.completion = .finished ↔
      ∀ more, (last.afterCycles history.listing more).hasWork history.listing = false)
  /-- To make progress is to change what the machine holds. -/
  changes : ∀ {last : State}, history.states.getLast? = some last → ∀ more,
    (last.afterCycles history.listing more).hasWork history.listing = true ↔
      ¬ (last.afterCycles history.listing (more + 1)).SameContent
        (last.afterCycles history.listing more)
  /-- A run is cut short if all cycles up to the cap made progress and one more would. -/
  limited : history.completion = .cycleLimit ↔
    history.states.length = cap + 1 ∧ ∀ state ∈ history.states, state.hasWork history.listing = true
  truncated : history.statistics.truncated = true ↔ history.completion = .cycleLimit

/-! ## What a deed moves -/

/-- How far the instruction in a slot has come. -/
def Slot.stage (slot : Slot) : Nat × Option Address × Option Float :=
  (slot.step, slot.address, slot.result)

/-- How far the instruction in a station has come. -/
def Pool.stage? (pool : Pool) (id : Nat) : Option (Nat × Option Address × Option Float) :=
  (pool.slot? id).map Slot.stage

section Moves

variable {listing : Listing} {deed : Deed} {id : Nat}

/-- An instruction that goes on gets further. -/
theorem Slot.Advances.stage_ne {old next : Slot} {event : Event} (hadvances : old.Advances next event) :
    next.stage ≠ old.stage := by
  intro hsame
  obtain ⟨hstep, haddress, hresult⟩ : next.step = old.step ∧ next.address = old.address ∧
      next.result = old.result := by simpa [stage] using hsame
  have hkept : next.effective? = old.effective? := congrArg (·.bind Address.effective?) haddress
  have hless := hadvances.step
  have hworks := hadvances.works
  generalize event.action = action at hworks
  cases hworks with
  | compute _ hpositive => omega
  | locate _ hpending hlocated =>
      obtain ⟨address, hlocated⟩ := hlocated
      exact absurd (hpending.symm.trans (hkept.symm.trans hlocated)) (by simp)
  | load _ _ hpending _ hread =>
      -- The step stays the same only if none is left, and then the value has been read.
      have hsome := hread (by omega)
      rw [hresult, hpending] at hsome
      exact absurd hsome (by simp)
  | store _ _ _ hmore => omega

/-- A task is seen in no other station than its own. -/
theorem Deed.Valid.stage?_of_ne (hvalid : deed.Valid listing) (hother : deed.task.site? ≠ some id) :
    deed.after.stations.stage? id = deed.before.stations.stage? id := by
  obtain ⟨after, hchange, -, -, -, hstations, -⟩ := hvalid.change
  unfold Pool.stage?
  rw [hstations]
  rcases hchange.slot?_of_ne hother with hsame | ⟨producer, value, hsame⟩
  · rw [hsame]
  · rw [hsame, Option.map_map]
    rfl

/-- Every deed fetches an instruction, or moves one on in its station. -/
theorem Deed.Valid.moves (hvalid : deed.Valid listing) :
    deed.before.cursor.fetched < deed.after.cursor.fetched ∨
      ∃ id, deed.task.station? = some id ∧
        deed.after.stations.stage? id ≠ deed.before.stations.stage? id := by
  have hfetched := hvalid.fetched_after
  cases hvalid.stride with
  | entered htask =>
      rw [htask, Task.station?, Option.isNone_none, Bool.toNat_true] at hfetched
      exact .inl (by omega)
  | steered hsite =>
      rw [Task.station?_of_site hsite, Option.isNone_none, Bool.toNat_true] at hfetched
      exact .inl (by omega)
  | advanced hstation hold hnext hadvances =>
      refine .inr ⟨_, hstation, ?_⟩
      simpa [Pool.stage?, hold, hnext] using hadvances.stage_ne
  | left hstation hold hfree =>
      refine .inr ⟨_, hstation, ?_⟩
      simp [Pool.stage?, hold, hfree]

end Moves

/-! ## Progress is change -/

section Progress

variable {listing : Listing} {initial frozen state : State} {journal : List Deed} {todo : List Task}

/-- What every deed of the rest of a cycle keeps, the rest of the cycle keeps. -/
theorem Execution.kept_finish {α : Type} (hnow : Execution listing initial frozen journal state todo)
    (hstart : initial.InStep listing) (view : State → α)
    (hkept : ∀ deed : Deed, deed.Valid listing → deed.task ∈ todo → view deed.after = view deed.before) :
    view (stateAfter state (deedsFrom listing todo state)) = view state := by
  refine hnow.rest_of_deeds (motive := fun state deeds => view (stateAfter state deeds) = view state) hstart
    (fun _ => rfl) fun deed later hvalid htask ih => ?_
  rw [stateAfter_cons, ih]
  exact hkept deed hvalid htask

variable (hnow : Execution listing initial frozen journal state []) (hfresh : initial.Fresh)

include hnow hfresh

theorem Execution.cycle_cycleOnce : (state.cycleOnce listing).state.cycle = state.cycle + 1 := by
  rw [state_cycleOnce]
  exact hnow.tick.kept_finish hfresh.inStep State.cycle fun deed hvalid _ => hvalid.frame.2.2

/-- A cycle with progress fetches an instruction, or moves one on in its station. -/
theorem Execution.moves_of_hasWork (hwork : state.hasWork listing = true) :
    state.cursor.fetched < (state.cycleOnce listing).state.cursor.fetched ∨
      ∃ id, (state.cycleOnce listing).state.stations.stage? id ≠ state.stations.stage? id := by
  obtain ⟨task, todo, htasks⟩ : ∃ task todo, (state.tick.plan listing).tasks = task :: todo := by
    refine List.exists_cons_of_ne_nil fun hnone => ?_
    rw [State.hasWork, progressed_eq_false_iff.mpr hnone] at hwork
    exact absurd hwork (by simp)
  have hstart := hnow.tick
  rw [htasks] at hstart
  have hunderway := hstart.underway hfresh.delays
  obtain ⟨event, after, hperform⟩ := (hunderway.enabled task (List.mem_cons_self ..)).exists_perform
    (hstart.lifecycle hfresh.free hfresh.delays)
  have hfirst : Deed.Valid listing ⟨task, state.tick, event, after.note event.codeOrder event.action⟩ :=
    hstart.valid hfresh.inStep ⟨after, hperform, rfl⟩
  have hthen := hstart.act hperform
  have hend : (state.cycleOnce listing).state =
      stateAfter (after.note event.codeOrder event.action)
        (deedsFrom listing todo (after.note event.codeOrder event.action)) := by
    rw [state_cycleOnce, State.deeds, htasks, deedsFrom, hperform, stateAfter_cons]
  rw [hend]
  rcases hfirst.moves with hfetched | ⟨id, hstation, hmoved⟩
  · exact .inl (hfetched.trans_le (hthen.extends_finish hfresh).fetched_le)
  · refine .inr ⟨id, ?_⟩
    -- The station of the first task is that of no later one.
    have hkept := hthen.kept_finish hfresh.inStep (fun state => state.stations.stage? id)
      fun deed hvalid htask => hvalid.stage?_of_ne fun hsite => by
        obtain ⟨site, hsite', hapart⟩ := (List.pairwise_cons.mp hunderway.apart).1 _ htask
        rw [Task.site?_eq hsite'] at hsite
        exact hapart ((Task.site?_eq hstation).trans hsite.symm)
    have hbegun : state.tick.stations.stage? id = state.stations.stage? id :=
      congrArg (Option.map Slot.stage) Pool.slot?_rest
    rw [hkept, ← hbegun]
    exact hmoved

end Progress

/-! ## Cycles after the end -/

section After

variable {listing : Listing} {initial state other : State} {count more : Nat}

theorem State.afterCycles_add (initial : State) (count more : Nat) :
    (initial.afterCycles listing count).afterCycles listing more =
      initial.afterCycles listing (count + more) := by
  induction more with
  | zero => rfl
  | succ more ih => rw [State.afterCycles, ih, ← Nat.add_assoc, State.afterCycles]

@[simp]
theorem State.afterCycles_knowing (addresses : List Int) (state : State) (count : Nat) :
    (state.knowing addresses).afterCycles listing count =
      (state.afterCycles listing count).knowing addresses := by
  induction count with
  | zero => rfl
  | succ count ih => rw [State.afterCycles, ih, State.cycleOnce_knowing, State.afterCycles]; rfl

@[simp]
theorem State.hasWork_knowing (addresses : List Int) (state : State) :
    (state.knowing addresses).hasWork listing = state.hasWork listing := by
  rw [State.hasWork, State.cycleOnce_knowing]
  rfl

theorem State.cycle_afterCycles (hfresh : initial.Fresh) (count : Nat) :
    (initial.afterCycles listing count).cycle = initial.cycle + count := by
  induction count with
  | zero => rfl
  | succ count ih =>
      obtain ⟨_, hnow⟩ := State.execution_afterCycles listing initial count
      rw [State.afterCycles, hnow.cycle_cycleOnce hfresh, ih, Nat.add_assoc]

/-- A cycle without progress clears the marks of the cycle before and changes nothing else. -/
theorem State.cycleOnce_of_not_hasWork (hquiet : state.hasWork listing = false) :
    (state.cycleOnce listing).state =
      { state with
        cycle := state.cycle + 1
        actions := state.actions.map fun _ => none
        stations := state.stations.map fun station => { station with working := false } } :=
  State.cycleOnce_of_quiet hquiet

/-- A cycle makes progress exactly if it changes what the machine holds. -/
theorem State.hasWork_iff_not_sameContent (hfresh : initial.Fresh) (addresses : List Int) (count : Nat) :
    (initial.afterCycles listing count).hasWork listing = true ↔
      ¬ ((initial.afterCycles listing (count + 1)).knowing addresses).SameContent
        ((initial.afterCycles listing count).knowing addresses) := by
  obtain ⟨_, hnow⟩ := State.execution_afterCycles listing initial count
  constructor
  · intro hwork hsame
    rcases hnow.moves_of_hasWork hfresh hwork with hfetched | ⟨id, hmoved⟩
    · exact hfetched.ne' (congrArg Cursor.fetched hsame.cursor)
    · exact hmoved (congrArg (Option.map Slot.stage) (hsame.slots id))
  · intro hchanged
    by_contra hwork
    have hquiet := State.cycleOnce_of_quiet (Bool.eq_false_iff.mpr hwork)
    refine hchanged ⟨?_, ?_, fun id => ?_, ?_⟩ <;> rw [State.afterCycles, hquiet]
    · rfl
    · rfl
    · exact Pool.slot?_rest
    · rfl

end After

/-! ## The recorded run -/

namespace History

variable {listing : Listing} {initial : State} {cap : Nat}

/-- The cycles that the statistics count are those with progress. -/
theorem cycles_statistics_ofState :
    (ofState listing initial cap).statistics.cycles =
      (List.range (initial.cycles listing cap).length).countP fun n =>
        (initial.afterCycles listing n).hasWork listing := by
  rw [statistics_ofState]
  show (Statistics.ofReports _).cycles = _
  induction (initial.cycles listing cap).length with
  | zero => rfl
  | succ count ih =>
      rw [State.reports_succ, Statistics.ofReports_snoc, List.range_succ, List.countP_append, ← ih,
        List.countP_singleton]
      show _ = _ + if State.hasWork listing _ = true then 1 else 0
      rw [State.hasWork]
      split <;> rfl

/-- A run that is not finished was cut short. -/
theorem cycleLimit_iff_hasWork : (ofState listing initial cap).completion = .cycleLimit ↔
    (initial.afterCycles listing (initial.cycles listing cap).length).hasWork listing = true := by
  rw [← Bool.not_eq_false, ← finished_iff]
  cases (ofState listing initial cap).completion <;> simp

theorem truncated_iff : (ofState listing initial cap).statistics.truncated = true ↔
    (ofState listing initial cap).completion = .cycleLimit := by
  rw [statistics_ofState, cycleLimit_iff_hasWork]

/-- A run is cut short exactly if it has used up its cap and all its states have work left. -/
theorem cycleLimit_iff : (ofState listing initial cap).completion = .cycleLimit ↔
    (initial.cycles listing cap).length = cap ∧
      ∀ n ≤ (initial.cycles listing cap).length, (initial.afterCycles listing n).hasWork listing = true := by
  rw [cycleLimit_iff_hasWork]
  constructor
  · intro hwork
    have hall (n : Nat) (hn : n ≤ (initial.cycles listing cap).length) :
        (initial.afterCycles listing n).hasWork listing = true := by
      by_contra hquiet
      have hrest := State.hasWork_afterCycles_mono hn (Bool.eq_false_iff.mpr hquiet)
      exact absurd (hwork.symm.trans hrest) (by simp)
    rcases State.length_cycles_eq_or cap initial with hlength | ⟨n, hlength, hquiet⟩
    · exact ⟨hlength, hall⟩
    · exact absurd (hquiet.symm.trans (hall n (by omega))) (by simp)
  · rintro ⟨-, hall⟩
    exact hall _ le_rfl

theorem limited_iff : (ofState listing initial cap).completion = .cycleLimit ↔
    (ofState listing initial cap).states.length = cap + 1 ∧
      ∀ state ∈ (ofState listing initial cap).states, state.hasWork listing = true := by
  rw [cycleLimit_iff, length_states_ofState, Nat.add_right_cancel_iff, states_ofState]
  simp

theorem hasWork_of_state {n : Nat} {state : State}
    (hstate : (ofState listing initial cap).states[n]? = some state)
    (hlt : n + 2 < (ofState listing initial cap).states.length) : state.hasWork listing = true := by
  obtain ⟨addresses, rfl⟩ := exists_state hstate
  rw [length_states_ofState] at hlt
  have hbefore : n + 1 < (initial.cycles listing cap).length := by omega
  exact (State.hasWork_knowing ..).trans (State.hasWork_of_lt_cycles hbefore)

/-- The cycles that the statistics count are those with progress. -/
theorem counted_ofState : (ofState listing initial cap).statistics.cycles =
    (ofState listing initial cap).states.dropLast.countP (State.hasWork listing) := by
  rw [cycles_statistics_ofState, states_ofState, List.range_succ, List.map_append, List.map_singleton,
    List.dropLast_concat, List.countP_map]
  refine List.countP_congr fun n _ => ?_
  rw [Function.comp_apply, State.hasWork_knowing]

section Last

variable {last : State} (hlast : (ofState listing initial cap).states.getLast? = some last)

include hlast

theorem eq_knowing_of_getLast? : ∃ addresses, last =
    (initial.afterCycles listing (initial.cycles listing cap).length).knowing addresses := by
  obtain ⟨addresses, hthere⟩ : ∃ addresses, (ofState listing initial cap).states.getLast? = _ := exists_last
  exact ⟨addresses, Option.some.inj (hlast.symm.trans hthere)⟩

/-- A run is finished exactly if no cycle after it would make progress. -/
theorem finished_iff_rest : (ofState listing initial cap).completion = .finished ↔
    ∀ more, (last.afterCycles listing more).hasWork listing = false := by
  obtain ⟨addresses, rfl⟩ := eq_knowing_of_getLast? hlast
  simp only [finished_iff, State.afterCycles_knowing, State.afterCycles_add, State.hasWork_knowing]
  exact ⟨fun hquiet more => State.hasWork_afterCycles_mono (Nat.le_add_right ..) hquiet,
    fun hrest => hrest 0⟩

/-- After the end, too, progress is change. -/
theorem changes_iff (hfresh : initial.Fresh) (more : Nat) :
    (last.afterCycles listing more).hasWork listing = true ↔
      ¬ (last.afterCycles listing (more + 1)).SameContent (last.afterCycles listing more) := by
  obtain ⟨addresses, rfl⟩ := eq_knowing_of_getLast? hlast
  simp only [State.afterCycles_knowing, State.afterCycles_add, State.hasWork_knowing]
  exact State.hasWork_iff_not_sameContent hfresh addresses _

end Last

/-- The history of a machine that starts afresh tells the truth. -/
theorem truthful_ofState (hfresh : initial.Fresh) (hcycle : initial.cycle = 0) :
    (ofState listing initial cap).Truthful cap where
  parallel := by rw [states, List.length_map, List.length_map]
  bounded := by
    rw [length_states_ofState]
    exact Nat.succ_le_succ (State.length_cycles_le cap initial)
  numbered {n state} hstate := by
    obtain ⟨addresses, rfl⟩ := exists_state hstate
    show (initial.afterCycles listing n).cycle = n
    rw [State.cycle_afterCycles hfresh, hcycle, Nat.zero_add]
  progressed hstate hlt := hasWork_of_state hstate hlt
  counted := counted_ofState
  finished hlast := finished_iff_rest hlast
  changes hlast more := changes_iff hlast hfresh more
  limited := limited_iff
  truncated := truncated_iff

end History

/-! ## Main statement -/

/-- If a cycle makes no progress, then it clears marks and changes nothing else, and no later cycle makes
progress.  The history of a run on a sound configuration has at most one state more than the cap allows
cycles; its states are numbered; all its cycles but possibly the last made progress, and those that did are
counted.  It reports a finished run exactly if no more cycles would change what the machine holds, and a run
cut short exactly if all cycles up to the cap made progress and one more would. -/
theorem completion_truthful {listing : Listing} {configuration : Configuration}
    (hsound : configuration.error? = none) :
    (∀ state : State, (state.cycleOnce listing).report.progressed = false →
      (state.cycleOnce listing).state =
          { state with
            cycle := state.cycle + 1
            actions := state.actions.map fun _ => none
            stations := state.stations.map fun station => { station with working := false } } ∧
        ∀ more, (((state.cycleOnce listing).state.afterCycles listing more).cycleOnce
          listing).report.progressed = false) ∧
      (History.ofListing listing configuration).Truthful configuration.maxCycles := by
  refine ⟨fun state hquiet => ⟨State.cycleOnce_of_not_hasWork hquiet, fun more => ?_⟩,
    History.truthful_ofState (Listing.fresh_initialState hsound) rfl⟩
  rw [State.afterCycles_cycleOnce]
  exact State.hasWork_afterCycles_mono (Nat.zero_le (more + 1)) hquiet

/-- Four cycles are too few for the product and the sum: the fifth would work on the product.  With the
default cap the run comes to its end, and nothing happens any more. -/
theorem completion_truthful_chain :
    (History.ofListing Chain.listing { maxCycles := 4 }).completion = .cycleLimit ∧
      (∃ last, (History.ofListing Chain.listing { maxCycles := 4 }).states.getLast? = some last ∧
        ¬ (last.afterCycles Chain.listing 1).SameContent last) ∧
      (History.ofListing Chain.listing {}).statistics.cycles = 10 ∧
      ∃ last, (History.ofListing Chain.listing {}).states.getLast? = some last ∧
        ∀ more, (last.afterCycles Chain.listing (more + 1)).SameContent
          (last.afterCycles Chain.listing more) := by
  have hsoundCut : Configuration.error? { maxCycles := 4 } = none := by decide
  have hsound : Configuration.error? {} = none := by decide
  obtain ⟨-, hcut⟩ : _ ∧ (History.ofListing Chain.listing _).Truthful 4 := completion_truthful hsoundCut
  obtain ⟨-, hwhole⟩ : _ ∧ (History.ofListing Chain.listing _).Truthful 100 := completion_truthful hsound
  have hlimited : (History.ofListing Chain.listing { maxCycles := 4 }).completion = .cycleLimit := by
    decide +kernel
  have hfinished : (History.ofListing Chain.listing {}).completion = .finished := by decide +kernel
  obtain ⟨last, hlast⟩ : ∃ last,
      (History.ofListing Chain.listing { maxCycles := 4 }).states.getLast? = some last :=
    Option.isSome_iff_exists.mp (by decide +kernel)
  obtain ⟨rest, hrest⟩ : ∃ rest, (History.ofListing Chain.listing {}).states.getLast? = some rest :=
    Option.isSome_iff_exists.mp (by decide +kernel)
  have hwork := (hcut.limited.mp hlimited).2 last (List.mem_of_getLast? hlast)
  refine ⟨hlimited, ⟨last, hlast, (hcut.changes hlast 0).mp hwork⟩, by decide +kernel, rest, hrest, ?_⟩
  intro more
  by_contra hchanged
  have hquiet := (hwhole.finished hrest).mp hfinished more
  exact absurd (((hwhole.changes hrest more).mpr hchanged).symm.trans hquiet) (by simp)

end Tomasulo
