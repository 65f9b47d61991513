import Tomasulo.Assembly.Source
import Tomasulo.Run.Seed
import Tomasulo.Run.Statistics

/-!
# Histories of runs

A run repeats the cycle until one makes no progress or the cap on cycles is reached.  Its history
holds a frame for the initial state and for each cycle, also for the quiet one that ends it.  A run
is cut short when the cap was reached and one more cycle would still make progress.

In the finished history every state knows the same addresses: a cell that was touched later, or
earlier in another frame, is listed without a value.
-/

namespace Tomasulo

/-- A state of a run with the steps that led to it. -/
structure Frame where
  state : State
  steps : List Step

/-- How a run ended. -/
inductive Completion where
  | finished
  | cycleLimit
deriving DecidableEq

/-- A finished run. -/
structure History where
  listing : Listing
  frames : List Frame
  statistics : Statistics
  completion : Completion

namespace State

/-- The cycles from a state on, at most `cap` of them and none after one without progress. -/
def cycles (listing : Listing) : Nat → State → List Outcome
  | 0, _ => []
  | cap + 1, state =>
      let outcome := state.cycleOnce listing
      if outcome.report.progressed then outcome :: cycles listing cap outcome.state
      else [outcome]

/-- Whether one more cycle would make progress. -/
def hasWork (listing : Listing) (state : State) : Bool :=
  (state.cycleOnce listing).report.progressed

/-- Makes addresses known. -/
def knowing (addresses : List Int) (state : State) : State :=
  { state with memory := addresses.foldl Memory.touch state.memory }

end State

namespace Frame

/-- The states of a frame. -/
def states (frame : Frame) : List State :=
  frame.state :: frame.steps.map Step.state

/-- Makes addresses known to every state of a frame. -/
def knowing (addresses : List Int) (frame : Frame) : Frame :=
  { state := frame.state.knowing addresses
    steps := frame.steps.map fun step => { step with state := step.state.knowing addresses } }

end Frame

/-- The addresses that any state of some frames knows, in ascending order. -/
def knownAddresses (frames : List Frame) : List Int :=
  let memories := (frames.flatMap Frame.states).map State.memory
  let nothing : Memory := .empty
  (memories.foldl (fun known memory => memory.keys.foldl Memory.touch known) nothing).keys

/-- Lists the same addresses in every state of a run. -/
def backfill (frames : List Frame) : List Frame :=
  frames.map (Frame.knowing (knownAddresses frames))

namespace History

/-- Runs a listing from a state on. -/
def ofState (listing : Listing) (initial : State) (cap : Nat) : History :=
  let outcomes := initial.cycles listing cap
  let frames :=
    ⟨initial, []⟩ :: outcomes.map fun outcome => ⟨outcome.state, outcome.report.steps⟩
  let last := (outcomes.getLast?.map Outcome.state).getD initial
  let truncated := last.hasWork listing
  let tallies := (outcomes.filter (·.report.progressed)).map (·.report.tally)
  let statistics := tallies.foldl Statistics.record {}
  { listing
    frames := backfill frames
    statistics := { statistics with truncated }
    completion := if truncated then .cycleLimit else .finished }

/-- Runs a listing on the machine of a configuration, which is taken to be sound. -/
def ofListing (listing : Listing) (configuration : Configuration) : History :=
  ofState listing (listing.initialState configuration.stations) configuration.maxCycles

/-- The states of a run, cycle by cycle. -/
def states (history : History) : List State :=
  history.frames.map Frame.state

/-- What each instruction did, state by state. -/
def timeline (history : History) : List (List (Option Action)) :=
  (List.range history.listing.instructions.length).map fun codeOrder =>
    history.states.map fun state => (state.actions[codeOrder]?).join

end History

/-- Why a source is not run. -/
inductive RunError where
  /-- The source holds no instruction. -/
  | emptyProgram
  | configuration (error : ConfigurationError)
deriving DecidableEq

/-- The text of a refusal. -/
def RunError.message : RunError → String
  | emptyProgram => "nothing to simulate: the source contains no recognizable instruction"
  | configuration error => "invalid configuration: " ++ error.message

/-- Runs a source, unless the configuration is unsound or the source holds no instruction. -/
def History.ofSource (source : String) (configuration : Configuration) : Except RunError History :=
  match configuration.error? with
  | some error => .error (.configuration error)
  | none =>
      match Listing.ofSource? source with
      | none => .error .emptyProgram
      | some listing => .ok (.ofListing listing configuration)

end Tomasulo
