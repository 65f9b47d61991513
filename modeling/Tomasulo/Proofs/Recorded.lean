import Tomasulo.Proofs.Cycle
import Tomasulo.Proofs.Seeding
import Tomasulo.Run.History

/-!
# What a history records

A history repeats the cycle until one is quiet or the cap is reached, and then makes the addresses of all
states known to each of them.  This module reads it through the states after so many cycles
(`State.afterCycles`):

* the recorded states are those after none, one, two, ... cycles, apart from known addresses
  (`History.states_ofState`), and all recorded cycles but the last made progress
  (`State.hasWork_of_lt_cycles`);
* the statistics are those of the recorded reports (`History.statistics_ofState`), and a run is finished
  exactly if its last state has no work left (`History.finished_iff`).
-/

namespace Tomasulo

/-- The reports of the first cycles from a state on. -/
def State.reports (listing : Listing) (initial : State) (count : Nat) : List Report :=
  (List.range count).map fun n => ((initial.afterCycles listing n).cycleOnce listing).report

/-- The counters of some reports; those without progress do not count. -/
def Statistics.ofReports (reports : List Report) : Statistics :=
  ((reports.filter (·.progressed)).map Report.tally).foldl Statistics.record {}

/-- The frame of a run after some cycles, before any address is made known to it. -/
def State.frame (listing : Listing) (initial : State) : Nat → Frame
  | 0 => ⟨initial, []⟩
  | count + 1 =>
      ⟨initial.afterCycles listing (count + 1),
        ((initial.afterCycles listing count).cycleOnce listing).report.steps⟩

/-- The addresses that a run comes to know up to a cap on its cycles. -/
def State.addresses (listing : Listing) (initial : State) (cap : Nat) : List Int :=
  knownAddresses
    ((List.range ((initial.cycles listing cap).length + 1)).map (initial.frame listing))

variable {listing : Listing} {initial state : State} {cap n : Nat}

/-- The machine that a sound configuration prepares for a listing starts afresh. -/
theorem Listing.fresh_initialState {configuration : Configuration}
    (hsound : configuration.error? = none) :
    (listing.initialState configuration.stations).Fresh :=
  State.fresh_initial hsound seeded_settled

/-! ## Cycles in a row -/

theorem State.afterCycles_cycleOnce (state : State) (n : Nat) :
    (state.cycleOnce listing).state.afterCycles listing n = state.afterCycles listing (n + 1) := by
  induction n with
  | zero => rfl
  | succ n ih => rw [State.afterCycles, ih, ← State.afterCycles]

theorem State.execution_afterCycles (listing : Listing) (initial : State) (count : Nat) :
    ∃ frozen, Execution listing initial frozen (initial.journal listing count)
      (initial.afterCycles listing count) [] :=
  Run.execution (Run.afterCycles count)

/-- What has been fetched stays fetched to the end of the cycle. -/
theorem Execution.extends_finish {frozen state : State} {journal : List Deed} {todo : List Task}
    (hnow : Execution listing initial frozen journal state todo) (hfresh : initial.Fresh) :
    (stateAfter state (deedsFrom listing todo state)).cursor.Extends state.cursor := by
  refine hnow.rest_of_deeds
    (motive := fun state deeds => (stateAfter state deeds).cursor.Extends state.cursor) hfresh.inStep
    (fun _ => Cursor.Extends.refl _) fun deed later hvalid _ ih => ?_
  rw [stateAfter_cons]
  exact Cursor.Extends.trans ih hvalid.extends

/-- What has been fetched stays fetched. -/
theorem State.extends_afterCycles {more : Nat} (hfresh : initial.Fresh) (hle : n ≤ more) :
    (initial.afterCycles listing more).cursor.Extends (initial.afterCycles listing n).cursor := by
  induction more, hle using Nat.le_induction with
  | base => exact Cursor.Extends.refl _
  | succ more _ ih =>
      obtain ⟨_, hnow⟩ := State.execution_afterCycles listing initial more
      rw [State.afterCycles, state_cycleOnce]
      exact Cursor.Extends.trans (hnow.tick.extends_finish hfresh) ih

theorem State.cycles_eq (cap : Nat) (state : State) :
    state.cycles listing cap = (List.range (state.cycles listing cap).length).map fun n =>
      (state.afterCycles listing n).cycleOnce listing := by
  induction cap generalizing state with
  | zero => rfl
  | succ cap ih =>
      unfold State.cycles
      dsimp only
      split
      · rw [List.length_cons, List.range_succ_eq_map, List.map_cons, List.map_map]
        conv_lhs => rw [ih]
        simp only [Function.comp_def, State.afterCycles_cycleOnce, State.afterCycles]
      · rfl

theorem State.length_cycles_le (cap : Nat) (state : State) :
    (state.cycles listing cap).length ≤ cap := by
  induction cap generalizing state with
  | zero => rfl
  | succ cap ih =>
      unfold State.cycles
      dsimp only
      split
      · simpa using ih _
      · simp

/-- All recorded cycles but the last made progress. -/
theorem State.hasWork_of_lt_cycles (hlt : n + 1 < (state.cycles listing cap).length) :
    (state.afterCycles listing n).hasWork listing = true := by
  induction cap generalizing state n with
  | zero => simp [State.cycles] at hlt
  | succ cap ih =>
      unfold State.cycles at hlt
      dsimp only at hlt
      split at hlt
      case isTrue hprogressed =>
        cases n with
        | zero => exact hprogressed
        | succ n =>
            rw [← State.afterCycles_cycleOnce]
            exact ih (by simpa using hlt)
      case isFalse => simp at hlt

/-- Recording ends at the cap or behind a quiet cycle. -/
theorem State.length_cycles_eq_or (cap : Nat) (state : State) :
    (state.cycles listing cap).length = cap ∨
      ∃ n, (state.cycles listing cap).length = n + 1 ∧
        (state.afterCycles listing n).hasWork listing = false := by
  induction cap generalizing state with
  | zero => exact .inl rfl
  | succ cap ih =>
      unfold State.cycles
      dsimp only
      split
      case isTrue =>
        rcases ih (state.cycleOnce listing).state with hlength | ⟨n, hlength, hquiet⟩
        · exact .inl (by simp [hlength])
        · exact .inr ⟨n + 1, by simp [hlength], by rwa [← State.afterCycles_cycleOnce]⟩
      case isFalse hquiet => exact .inr ⟨0, rfl, Bool.eq_false_iff.mpr hquiet⟩

theorem State.hasWork_afterCycles_succ
    (hquiet : (state.afterCycles listing n).hasWork listing = false) :
    (state.afterCycles listing (n + 1)).hasWork listing = false :=
  State.quiet_cycleOnce hquiet

/-- Once a machine has no work left it never has any. -/
theorem State.hasWork_afterCycles_mono {more : Nat} (hle : n ≤ more)
    (hquiet : (state.afterCycles listing n).hasWork listing = false) :
    (state.afterCycles listing more).hasWork listing = false := by
  induction more, hle using Nat.le_induction with
  | base => exact hquiet
  | succ more _ ih => exact State.hasWork_afterCycles_succ ih

/-! ## Recorded states -/

section Knowing

variable (addresses : List Int)

@[simp]
theorem State.cursor_knowing : (state.knowing addresses).cursor = state.cursor :=
  rfl

@[simp]
theorem State.stations_knowing : (state.knowing addresses).stations = state.stations :=
  rfl

@[simp]
theorem State.registers_knowing : (state.knowing addresses).registers = state.registers :=
  rfl

@[simp]
theorem State.actions_knowing : (state.knowing addresses).actions = state.actions :=
  rfl

end Knowing

@[simp]
theorem State.state_frame (n : Nat) : (initial.frame listing n).state = initial.afterCycles listing n := by
  cases n <;> rfl

theorem State.frame_succ (n : Nat) :
    initial.frame listing (n + 1) =
      ⟨((initial.frame listing n).state.cycleOnce listing).state,
        ((initial.frame listing n).state.cycleOnce listing).report.steps⟩ := by
  cases n <;> rfl

theorem State.getLast?_cycles (cap : Nat) (state : State) :
    ((state.cycles listing cap).getLast?.map Outcome.state).getD state =
      state.afterCycles listing (state.cycles listing cap).length := by
  rw [State.cycles_eq, List.getLast?_map, List.length_map, List.length_range]
  cases (state.cycles listing cap).length with
  | zero => rfl
  | succ n => simp [List.range_succ, State.afterCycles]

namespace History

variable {count : Nat}

theorem frames_ofState : (ofState listing initial cap).frames =
    (List.range ((initial.cycles listing cap).length + 1)).map fun n =>
      (initial.frame listing n).knowing (initial.addresses listing cap) := by
  have hplain : (⟨initial, []⟩ :: (initial.cycles listing cap).map fun outcome =>
      (⟨outcome.state, outcome.report.steps⟩ : Frame)) =
        (List.range ((initial.cycles listing cap).length + 1)).map (initial.frame listing) := by
    rw [List.range_succ_eq_map, List.map_cons, List.map_map]
    conv_lhs => rw [State.cycles_eq, List.map_map]
    rfl
  show backfill _ = _
  rw [hplain, backfill, List.map_map]
  rfl

theorem length_frames_ofState :
    (ofState listing initial cap).frames.length = (initial.cycles listing cap).length + 1 := by
  rw [frames_ofState, List.length_map, List.length_range]

/-- Each recorded frame knows all addresses of the run, and nothing else was added to it. -/
theorem eq_knowing_of_frame {frame : Frame}
    (hframe : (ofState listing initial cap).frames[count]? = some frame) :
    frame = (initial.frame listing count).knowing (initial.addresses listing cap) := by
  rw [frames_ofState, List.getElem?_map] at hframe
  obtain ⟨n, hn, rfl⟩ := Option.map_eq_some_iff.mp hframe
  obtain ⟨hbound, hsame⟩ := List.getElem?_eq_some_iff.mp hn
  rw [List.getElem_range] at hsame
  rw [hsame]

/-- The steps of a frame are as many of a kind as the deeds of its cycle. -/
theorem countP_steps_le {frame : Frame} {p : Event → Bool} {bound : Nat}
    (hframe : (ofState listing initial cap).frames[count]? = some frame)
    (hdeeds : ∀ n < (initial.cycles listing cap).length,
      ((initial.afterCycles listing n).deeds listing).countP (fun deed => p deed.event) ≤ bound) :
    frame.steps.countP (fun step => p step.event) ≤ bound := by
  obtain ⟨hbound, -⟩ := List.getElem?_eq_some_iff.mp hframe
  rw [length_frames_ofState] at hbound
  obtain rfl := eq_knowing_of_frame hframe
  cases count with
  | zero => exact Nat.zero_le bound
  | succ n =>
      have hthen := hdeeds n (by omega)
      show (List.map _ (State.cycleOnce ..).report.steps).countP _ ≤ bound
      rw [steps_cycleOnce, List.map_map, List.countP_map]
      exact hthen

/-- The recorded states are those after so many cycles, apart from known addresses. -/
theorem states_ofState : (ofState listing initial cap).states =
    (List.range ((initial.cycles listing cap).length + 1)).map fun n =>
      (initial.afterCycles listing n).knowing (initial.addresses listing cap) := by
  rw [states, frames_ofState, List.map_map]
  refine List.map_congr_left fun n _ => ?_
  show (initial.frame listing n).state.knowing _ = _
  rw [State.state_frame]

theorem length_states_ofState :
    (ofState listing initial cap).states.length = (initial.cycles listing cap).length + 1 := by
  rw [states_ofState, List.length_map, List.length_range]

theorem exists_state (hstate : (ofState listing initial cap).states[count]? = some state) :
    ∃ addresses, state = (initial.afterCycles listing count).knowing addresses := by
  rw [states_ofState, List.getElem?_map] at hstate
  obtain ⟨n, hn, rfl⟩ := Option.map_eq_some_iff.mp hstate
  obtain ⟨hbound, hsame⟩ := List.getElem?_eq_some_iff.mp hn
  rw [List.getElem_range] at hsame
  exact ⟨_, by rw [hsame]⟩

theorem le_of_state (hstate : (ofState listing initial cap).states[count]? = some state) :
    count ≤ (initial.cycles listing cap).length := by
  obtain ⟨hbound, -⟩ := List.getElem?_eq_some_iff.mp hstate
  rw [length_states_ofState] at hbound
  omega

/-- The last recorded state is the one after all recorded cycles. -/
theorem exists_last : ∃ addresses, (ofState listing initial cap).states.getLast? =
    some ((initial.afterCycles listing (initial.cycles listing cap).length).knowing addresses) := by
  rw [states_ofState, List.range_succ, List.map_append, List.map_singleton, List.getLast?_concat]
  exact ⟨_, rfl⟩

/-- A row of the timeline shows what an instruction did in each recorded state. -/
theorem getElem?_timeline {codeOrder : Nat} (hbound : codeOrder < listing.instructions.length) :
    (ofState listing initial cap).timeline[codeOrder]? =
      some ((List.range ((initial.cycles listing cap).length + 1)).map fun n =>
        ((initial.afterCycles listing n).actions[codeOrder]?).join) := by
  have hrow : (List.range listing.instructions.length)[codeOrder]? = some codeOrder :=
    List.getElem?_range hbound
  show ((List.range listing.instructions.length).map _)[codeOrder]? = _
  rw [List.getElem?_map, hrow, Option.map_some, states_ofState, List.map_map]
  rfl

/-- The statistics are those of the recorded reports. -/
theorem statistics_ofState :
    (ofState listing initial cap).statistics =
      { Statistics.ofReports (initial.reports listing (initial.cycles listing cap).length) with
        truncated :=
          (initial.afterCycles listing (initial.cycles listing cap).length).hasWork listing } := by
  unfold ofState
  simp only [State.getLast?_cycles]
  have hreports : initial.reports listing (initial.cycles listing cap).length =
      (initial.cycles listing cap).map Outcome.report := by
    conv_rhs => rw [State.cycles_eq, List.map_map]
    rfl
  rw [Statistics.ofReports, hreports, List.filter_map, List.map_map]
  rfl

/-- A run is finished exactly if no work is left. -/
theorem finished_iff :
    (ofState listing initial cap).completion = .finished ↔
      (initial.afterCycles listing (initial.cycles listing cap).length).hasWork listing = false := by
  unfold ofState
  simp only [State.getLast?_cycles]
  cases (initial.afterCycles listing (initial.cycles listing cap).length).hasWork listing <;> simp

end History

/-! ## Counters -/

theorem State.reports_succ (initial : State) (count : Nat) :
    initial.reports listing (count + 1) =
      initial.reports listing count ++
        [((initial.afterCycles listing count).cycleOnce listing).report] := by
  simp [State.reports, List.range_succ]

/-- A report is added to the counters if it shows progress. -/
theorem Statistics.ofReports_snoc (reports : List Report) (report : Report) :
    Statistics.ofReports (reports ++ [report]) =
      if report.progressed then (Statistics.ofReports reports).record report.tally
      else Statistics.ofReports reports := by
  unfold Statistics.ofReports
  cases hprogressed : report.progressed <;> simp [hprogressed]

end Tomasulo
