import Mathlib.Tactic
import Tomasulo.Machine.Cycle

/-!
# The journal of a run

A state does not tell what led to it.  Properties of a whole run, such as "each result is published
once" or "this store wrote memory before that load read it", are stated about its journal: the list of
everything the machine did, task by task, with the states around each.

* `Deed` is a task that was carried out; `State.deeds` are those of one cycle, and by
  `steps_cycleOnce` they are exactly the steps that the cycle reports.
* `Run` relates an initial state to the states between cycles and the journal so far.
* `Observed` adds the snapshots within cycles.
* `Execution` is the same machine seen one task at a time, with the tasks of the current plan still to
  be carried out.  Invariants are proved by induction on it; `Run.execution` and
  `Observed.execution` carry them back.
-/

namespace Tomasulo

/-- The station that a task works on; the tasks of the fetch slot have none. -/
def Task.station? : Task → Option Nat
  | .compute id | .locate id | .load id | .publish id | .commit id => some id
  | .issue .. | .branch .. | .jump .. => none

/-- The value that an event puts on the bus. -/
def Event.published? : Event → Option Float
  | .published _ _ value _ _ => some value
  | _ => none

/-- A task that was carried out, with the states before and after it. -/
structure Deed where
  task : Task
  before : State
  event : Event
  after : State

namespace Deed

/-- The position of the instruction that acted. -/
def seq (deed : Deed) : Nat :=
  match deed.task.station? with
  | some id => ((deed.before.stations.slot? id).map Slot.seq).getD 0
  | none => deed.before.cursor.fetched

/-- The step that a report shows for a deed. -/
def step (deed : Deed) : Step :=
  ⟨deed.event, deed.after⟩

/-- Whether a deed is what comes of carrying out its task. -/
def Performs (listing : Listing) (deed : Deed) : Prop :=
  ∃ after, deed.task.perform listing deed.before = some (deed.event, after) ∧
    deed.after = after.note deed.event.codeOrder deed.event.action

theorem seq_of_station {deed : Deed} {id : Nat} {slot : Slot} (hstation : deed.task.station? = some id)
    (hslot : deed.before.stations.slot? id = some slot) : deed.seq = slot.seq := by
  simp [seq, hstation, hslot]

theorem seq_of_fetch {deed : Deed} (hfetch : deed.task.station? = none) :
    deed.seq = deed.before.cursor.fetched := by
  simp [seq, hfetch]

end Deed

/-- The value that the instruction at a position has published. -/
def publishedAt? (journal : List Deed) (n : Nat) : Option Float :=
  journal.findSome? fun deed => if deed.seq = n then deed.event.published? else none

/-- What tasks do, carried out one after the other from a state. -/
def deedsFrom (listing : Listing) : List Task → State → List Deed
  | [], _ => []
  | task :: todo, state =>
      match task.perform listing state with
      | none => deedsFrom listing todo state
      | some (event, after) =>
          let after := after.note event.codeOrder event.action
          ⟨task, state, event, after⟩ :: deedsFrom listing todo after

/-- What the machine does in a cycle. -/
def State.deeds (listing : Listing) (state : State) : List Deed :=
  deedsFrom listing (state.tick.plan listing).tasks state.tick

/-- The state that some deeds lead to. -/
def stateAfter (state : State) (deeds : List Deed) : State :=
  (deeds.getLast?.map Deed.after).getD state

@[simp]
theorem stateAfter_nil (state : State) : stateAfter state [] = state :=
  rfl

@[simp]
theorem stateAfter_cons (state : State) (deed : Deed) (deeds : List Deed) :
    stateAfter state (deed :: deeds) = stateAfter deed.after deeds := by
  unfold stateAfter
  rw [List.getLast?_cons]
  cases deeds.getLast? <;> rfl

/-- The states between cycles that a machine reaches, each with the journal of the run so far. -/
inductive Run (listing : Listing) (initial : State) : List Deed → State → Prop
  | start : Run listing initial [] initial
  | cycle {journal : List Deed} {state : State} (hrun : Run listing initial journal state) :
      Run listing initial (journal ++ state.deeds listing) (state.cycleOnce listing).state

/-- The states that a run shows: those between cycles and the snapshots within a cycle, each with the
journal up to there. -/
inductive Observed (listing : Listing) (initial : State) : List Deed → State → Prop
  | between {journal : List Deed} {state : State} (hrun : Run listing initial journal state) :
      Observed listing initial journal state
  | snapshot {journal done later : List Deed} {origin : State} {deed : Deed}
      (hrun : Run listing initial journal origin)
      (hdeeds : origin.deeds listing = done ++ deed :: later) :
      Observed listing initial (journal ++ done ++ [deed]) deed.after

/-- A machine one task at a time: the state on which the plan of the cycle was drawn up, the journal,
the present state, and the tasks of the plan that are still to be carried out. -/
inductive Execution (listing : Listing) (initial : State) :
    State → List Deed → State → List Task → Prop
  | start : Execution listing initial initial [] initial []
  | tick {frozen state : State} {journal : List Deed}
      (hbetween : Execution listing initial frozen journal state []) :
      Execution listing initial state.tick journal state.tick (state.tick.plan listing).tasks
  | pass {frozen state : State} {journal : List Deed} {task : Task} {todo : List Task}
      (hnow : Execution listing initial frozen journal state (task :: todo))
      (hnothing : task.perform listing state = none) :
      Execution listing initial frozen journal state todo
  | act {frozen state after : State} {journal : List Deed} {task : Task} {todo : List Task}
      {event : Event} (hnow : Execution listing initial frozen journal state (task :: todo))
      (hperform : task.perform listing state = some (event, after)) :
      Execution listing initial frozen
        (journal ++ [⟨task, state, event, after.note event.codeOrder event.action⟩])
        (after.note event.codeOrder event.action) todo

/-- The state that a machine reaches after some cycles. -/
def State.afterCycles (listing : Listing) (initial : State) : Nat → State
  | 0 => initial
  | count + 1 => ((initial.afterCycles listing count).cycleOnce listing).state

/-- The journal of the first cycles. -/
def State.journal (listing : Listing) (initial : State) : Nat → List Deed
  | 0 => []
  | count + 1 => initial.journal listing count ++ (initial.afterCycles listing count).deeds listing

variable {listing : Listing} {initial : State}

theorem Run.afterCycles (count : Nat) :
    Run listing initial (initial.journal listing count) (initial.afterCycles listing count) := by
  induction count with
  | zero => exact .start
  | succ count ih => exact ih.cycle

/-- A journal only grows. -/
theorem State.journal_prefix {count more : Nat} (hle : count ≤ more) :
    initial.journal listing count <+: initial.journal listing more := by
  induction more, hle using Nat.le_induction with
  | base => exact List.prefix_refl _
  | succ more _ ih => exact ih.trans (List.prefix_append ..)

/-! ## Deeds and reports -/

/-- Carrying out tasks in a cycle under way appends the steps of their deeds. -/
theorem foldl_perform (todo : List Task) (state : State) (steps : List Step) :
    todo.foldl (Progress.perform listing) ⟨state, steps⟩ =
      ⟨stateAfter state (deedsFrom listing todo state),
        steps ++ (deedsFrom listing todo state).map Deed.step⟩ := by
  induction todo generalizing state steps with
  | nil => simp [deedsFrom]
  | cons task todo ih =>
      rw [List.foldl_cons, deedsFrom, Progress.perform]
      cases hperform : task.perform listing state with
      | none => exact ih state steps
      | some outcome =>
          obtain ⟨event, after⟩ := outcome
          simp only [ih, stateAfter_cons, List.map_cons, List.append_assoc, List.singleton_append]
          rfl

/-- A cycle, told by its deeds. -/
theorem State.cycleOnce_eq (state : State) : state.cycleOnce listing =
    { state := stateAfter state.tick (state.deeds listing)
      report :=
        { progressed := !(state.tick.plan listing).tasks.isEmpty
          stalled := (state.tick.plan listing).isStalled
          steps := (state.deeds listing).map Deed.step } } := by
  simp only [State.cycleOnce, State.deeds, foldl_perform, List.nil_append]

/-- The steps that a cycle reports are those of its deeds. -/
theorem steps_cycleOnce (state : State) :
    (state.cycleOnce listing).report.steps = (state.deeds listing).map Deed.step := by
  rw [State.cycleOnce_eq]

/-- A cycle leads to the state after its last deed. -/
theorem state_cycleOnce (state : State) :
    (state.cycleOnce listing).state = stateAfter state.tick (state.deeds listing) := by
  rw [State.cycleOnce_eq]

/-! ## Executions and runs -/

/-- A deed leads to the point after it. -/
theorem Execution.next {frozen : State} {journal : List Deed} {rest : List Task} {deed : Deed}
    (hnow : Execution listing initial frozen journal deed.before (deed.task :: rest))
    (hperforms : deed.Performs listing) :
    Execution listing initial frozen (journal ++ [deed]) deed.after rest := by
  obtain ⟨task, before, event, noted⟩ := deed
  obtain ⟨after, hperform, hnoted⟩ := hperforms
  simp only at hperform hnoted
  rw [hnoted]
  exact hnow.act hperform

/-- From a point within a cycle the machine comes to each later deed of it. -/
theorem Execution.deeds {frozen state : State} {journal : List Deed} {todo : List Task}
    (hnow : Execution listing initial frozen journal state todo) {done later : List Deed} {deed : Deed}
    (hdeeds : deedsFrom listing todo state = done ++ deed :: later) :
    ∃ rest, Execution listing initial frozen (journal ++ done) deed.before (deed.task :: rest) ∧
      deed.Performs listing := by
  induction todo generalizing state journal done with
  | nil => simp [deedsFrom] at hdeeds
  | cons task todo ih =>
      rw [deedsFrom] at hdeeds
      cases hperform : task.perform listing state with
      | none =>
          rw [hperform] at hdeeds
          exact ih (hnow.pass hperform) hdeeds
      | some outcome =>
          obtain ⟨event, after⟩ := outcome
          simp only [hperform] at hdeeds
          -- The deed is the one that was just done, or one of the rest of the cycle.
          cases done with
          | nil =>
              obtain ⟨rfl, -⟩ := List.cons.inj hdeeds
              exact ⟨todo, by simpa using hnow, after, hperform, rfl⟩
          | cons first done =>
              obtain ⟨rfl, hrest⟩ := List.cons.inj hdeeds
              simpa using ih (hnow.act hperform) hrest

/-- The tasks of a plan are carried out to the end. -/
theorem Execution.finish {frozen state : State} {journal : List Deed} {todo : List Task}
    (hnow : Execution listing initial frozen journal state todo) :
    Execution listing initial frozen (journal ++ deedsFrom listing todo state)
      (stateAfter state (deedsFrom listing todo state)) [] := by
  induction todo generalizing state journal with
  | nil => simpa [deedsFrom] using hnow
  | cons task todo ih =>
      rw [deedsFrom]
      cases hperform : task.perform listing state with
      | none => exact ih (hnow.pass hperform)
      | some outcome =>
          obtain ⟨event, after⟩ := outcome
          simpa using ih (hnow.act hperform)

theorem Run.execution {journal : List Deed} {state : State}
    (hrun : Run listing initial journal state) :
    ∃ frozen, Execution listing initial frozen journal state [] := by
  induction hrun with
  | start => exact ⟨initial, .start⟩
  | @cycle journal state _ ih =>
      obtain ⟨frozen, hbetween⟩ := ih
      rw [state_cycleOnce]
      exact ⟨state.tick, hbetween.tick.finish⟩

theorem Observed.execution {journal : List Deed} {state : State}
    (hobserved : Observed listing initial journal state) :
    ∃ frozen todo, Execution listing initial frozen journal state todo := by
  cases hobserved with
  | between hrun =>
      obtain ⟨frozen, hbetween⟩ := hrun.execution
      exact ⟨frozen, [], hbetween⟩
  | @snapshot _ _ _ origin _ hrun hdeeds =>
      obtain ⟨frozen, hbetween⟩ := hrun.execution
      obtain ⟨rest, hnow, hperforms⟩ := hbetween.tick.deeds hdeeds
      exact ⟨origin.tick, rest, hnow.next hperforms⟩

/-- At the beginning of the present cycle the machine was where the plan was drawn up. -/
theorem Execution.begun {frozen state : State} {journal : List Deed} {todo : List Task}
    (hnow : Execution listing initial frozen journal state todo) :
    ∃ before done tasks, journal = before ++ done ∧
      Execution listing initial frozen before frozen tasks := by
  induction hnow with
  | start => exact ⟨[], [], [], rfl, .start⟩
  | @tick _ state journal hbetween _ => exact ⟨journal, [], _, by simp, hbetween.tick⟩
  | pass _ _ ih => exact ih
  | act _ _ ih =>
      obtain ⟨before, done, tasks, rfl, hthen⟩ := ih
      exact ⟨before, done ++ [_], tasks, List.append_assoc .., hthen⟩

/-- Every deed of a journal was done at some point of the execution. -/
theorem Execution.mem_journal {frozen state : State} {journal : List Deed} {todo : List Task}
    (hnow : Execution listing initial frozen journal state todo) {deed : Deed} (hdeed : deed ∈ journal) :
    ∃ origin past later rest, journal = past ++ deed :: later ∧
      Execution listing initial origin past deed.before (deed.task :: rest) ∧
      deed.Performs listing := by
  induction hnow with
  | start => simp at hdeed
  | tick _ ih => exact ih hdeed
  | pass _ _ ih => exact ih hdeed
  | @act frozen state after journal task todo event hnow hperform ih =>
      rcases List.mem_append.mp hdeed with hold | hnew
      · obtain ⟨origin, past, later, rest, rfl, hpoint⟩ := ih hold
        exact ⟨origin, past, later ++ [_], rest, List.append_assoc .., hpoint⟩
      · obtain rfl := List.mem_singleton.mp hnew
        exact ⟨frozen, journal, [], todo, rfl, hnow, after, hperform, rfl⟩

end Tomasulo
