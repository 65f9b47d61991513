import Tomasulo.Machine.Task

/-!
# One cycle

A cycle draws up its plan and carries out the tasks one after the other.  Each task that happens
leaves a step: what happened, with the state right after it.
-/

namespace Tomasulo

/-- Something that happened in a cycle, and the state right after it. -/
structure Step where
  event : Event
  state : State

/-- What happened in one cycle. -/
structure Report where
  /-- Whether anything was to be done. -/
  progressed : Bool
  /-- Whether the next instruction had to wait. -/
  stalled : Bool
  steps : List Step

namespace Report

/-- Whether an instruction entered a station. -/
def issued (report : Report) : Bool :=
  report.steps.any (·.event.isIssue)

/-- Whether a result was published. -/
def broadcast (report : Report) : Bool :=
  report.steps.any (·.event.isBroadcast)

/-- How many stores wrote memory. -/
def storesCommitted (report : Report) : Nat :=
  report.steps.countP (·.event.isCommit)

/-- How the branch or jump of the cycle continued. -/
def control? (report : Report) : Option Control :=
  report.steps.findSome? (·.event.control?)

end Report

/-- The state of a cycle under way, with its steps so far. -/
structure Progress where
  state : State
  steps : List Step

/-- Carries out one more task. -/
def Progress.perform (listing : Listing) (progress : Progress) (task : Task) : Progress :=
  match task.perform listing progress.state with
  | none => progress
  | some (event, state) =>
      let state := state.note event.codeOrder event.action
      ⟨state, progress.steps ++ [⟨event, state⟩]⟩

/-- What a cycle leads to. -/
structure Outcome where
  state : State
  report : Report

namespace State

/-- Runs one cycle. -/
def cycleOnce (listing : Listing) (state : State) : Outcome :=
  let state := state.tick
  let plan := state.plan listing
  let progress := plan.tasks.foldl (Progress.perform listing) ⟨state, []⟩
  ⟨progress.state,
    { progressed := !plan.tasks.isEmpty, stalled := plan.isStalled, steps := progress.steps }⟩

end State

end Tomasulo
