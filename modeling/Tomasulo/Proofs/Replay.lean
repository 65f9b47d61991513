import Tomasulo.Proofs.Recorded

/-!
# Replaying a history

A finished history lists cells that the machine did not know yet when its states were made.  The machine
does not notice them: a cell without a value is read, filled and written like one that is not listed, so a
task does the same on a state that knows more addresses (`Task.perform_knowing`), and so does a whole cycle
(`State.cycleOnce_knowing`).

All states of a history know the same addresses.  Hence each of them is what a cycle makes of the one
before it, cell by cell, and the steps of the cycle are the recorded ones (`replay_reproduces`).
-/

namespace Tomasulo

/-! ## Memory that knows more addresses -/

namespace Memory

/-- Makes addresses known. -/
def knowing (addresses : List Int) (memory : Memory) : Memory :=
  addresses.foldl touch memory

variable (addresses : List Int) (memory : Memory) (address other : Int)

theorem find?_touch : (memory.touch address).find? other =
    (memory.find? other).or (if other = address then some none else none) := by
  unfold touch
  split
  case isTrue hthere =>
    rw [OrderedMap.contains_eq_isSome_find?, Option.isSome_iff_exists] at hthere
    obtain ⟨cell, hcell⟩ := hthere
    by_cases hsame : other = address
    · simp [hsame, hcell]
    · simp [hsame]
  case isFalse habsent =>
    rw [OrderedMap.contains_eq_isSome_find?, Bool.not_eq_true, Option.isSome_eq_false_iff,
      Option.isNone_iff_eq_none] at habsent
    by_cases hsame : other = address
    · rw [hsame, OrderedMap.find?_insert_self, habsent, if_pos rfl, Option.none_or]
    · rw [OrderedMap.find?_insert_of_ne _ _ hsame, if_neg hsame, Option.or_none]

/-- Of the cells that are made known, those that memory lists already keep their content. -/
theorem find?_knowing : (memory.knowing addresses).find? other =
    (memory.find? other).or (if other ∈ addresses then some none else none) := by
  induction addresses generalizing memory with
  | nil => simp [knowing]
  | cons first rest ih =>
      rw [knowing, List.foldl_cons, ← knowing, ih, find?_touch, Option.or_assoc]
      by_cases hfirst : other = first <;> by_cases hrest : other ∈ rest <;> simp [hfirst, hrest]

@[simp]
theorem read_knowing : (memory.knowing addresses).read other = memory.read other := by
  unfold read
  rw [find?_knowing]
  cases memory.find? other with
  | none => split <;> rfl
  | some cell => rfl

theorem knowing_write (value : Float) :
    (memory.knowing addresses).write address value =
      (memory.write address value).knowing addresses := by
  refine OrderedMap.eq_of_find?_eq fun other => ?_
  rw [find?_knowing]
  unfold write
  by_cases hsame : other = address
  · rw [hsame, OrderedMap.find?_insert_self, OrderedMap.find?_insert_self, Option.some_or]
  · rw [OrderedMap.find?_insert_of_ne _ _ hsame, OrderedMap.find?_insert_of_ne _ _ hsame, find?_knowing]

theorem knowing_fill (value : Float) :
    (memory.knowing addresses).fill address value =
      (memory.fill address value).knowing addresses := by
  unfold fill
  rw [read_knowing, knowing_write]
  split <;> rfl

theorem readOr_knowing (value : Float) :
    (memory.knowing addresses).readOr address value = memory.readOr address value := by
  rw [readOr, read_knowing, readOr]

end Memory

/-! ## The machine does not notice -/

section Unnoticed

variable {listing : Listing} (addresses : List Int) (state : State)

@[simp]
theorem State.memory_knowing : (state.knowing addresses).memory = state.memory.knowing addresses :=
  rfl

theorem State.finishLoad_knowing (id : Nat) (slot : Slot) (address : Int) (stations : Pool) :
    State.finishLoad listing id slot address { state.knowing addresses with stations } =
      ((State.finishLoad listing id slot address { state with stations }).1,
        (State.finishLoad listing id slot address { state with stations }).2.knowing addresses) := by
  unfold finishLoad
  simp only [memory_knowing, Memory.readOr_knowing, Memory.knowing_fill]
  rfl

/-- To apply a function to what comes of an optional value, apply it to what comes of the value. -/
theorem bind_eq_map_bind {α β : Type} {value? : Option α} {f g : α → Option β} {after : β → β}
    (hsame : ∀ value, f value = (g value).map after) : value?.bind f = (value?.bind g).map after := by
  cases value? with
  | none => rfl
  | some value => exact hsame value

/-- A task does the same on a state that knows more addresses. -/
theorem Task.perform_knowing (task : Task) :
    task.perform listing (state.knowing addresses) =
      (task.perform listing state).map fun done => (done.1, done.2.knowing addresses) := by
  cases task with
  | issue instruction id => exact bind_eq_map_bind fun station => bind_eq_map_bind fun slot => rfl
  | branch instruction comparison lhs rhs target => rfl
  | jump instruction target => rfl
  | compute id =>
      refine bind_eq_map_bind fun station => bind_eq_map_bind fun slot => ?_
      dsimp only
      split
      · split <;> rfl
      · rfl
  | locate id =>
      refine bind_eq_map_bind fun station => bind_eq_map_bind fun slot => ?_
      dsimp only
      split
      · refine congrArg some (Prod.ext rfl ?_)
        -- Whether the load has to wait depends on the stations alone.
        dsimp only
        rw [apply_ite (State.knowing addresses)]
        exact ite_congr rfl (fun _ => congrArg Prod.snd (state.finishLoad_knowing addresses id _ _ _))
          fun _ => rfl
      · rfl
  | load id =>
      refine bind_eq_map_bind fun station => bind_eq_map_bind fun slot =>
        bind_eq_map_bind fun address => ?_
      dsimp only
      split
      · exact congrArg (fun read => some (Event.loaded station.name slot.codeOrder read.1 address, read.2))
          (state.finishLoad_knowing addresses id _ _ _)
      · rfl
  | publish id =>
      exact bind_eq_map_bind fun station => bind_eq_map_bind fun slot =>
        bind_eq_map_bind fun value => rfl
  | commit id =>
      refine bind_eq_map_bind fun station => bind_eq_map_bind fun slot =>
        bind_eq_map_bind fun address => bind_eq_map_bind fun value => ?_
      dsimp only
      split
      · have hwritten := state.memory.knowing_write addresses address value
        simp only [State.memory_knowing, hwritten]
        rfl
      · rfl

/-- Makes addresses known to the states around a deed. -/
def Deed.knowing (addresses : List Int) (deed : Deed) : Deed :=
  ⟨deed.task, deed.before.knowing addresses, deed.event, deed.after.knowing addresses⟩

theorem deedsFrom_knowing (todo : List Task) :
    deedsFrom listing todo (state.knowing addresses) =
      (deedsFrom listing todo state).map (Deed.knowing addresses) := by
  induction todo generalizing state with
  | nil => rfl
  | cons task todo ih =>
      rw [deedsFrom, deedsFrom, Task.perform_knowing]
      cases task.perform listing state with
      | none => exact ih state
      | some done => exact congrArg (_ :: ·) (ih (done.2.note done.1.codeOrder done.1.action))

theorem stateAfter_knowing (deeds : List Deed) :
    stateAfter (state.knowing addresses) (deeds.map (Deed.knowing addresses)) =
      (stateAfter state deeds).knowing addresses := by
  unfold stateAfter
  rw [List.getLast?_map]
  cases deeds.getLast? <;> rfl

/-- Makes addresses known to the state of a step. -/
def Step.knowing (addresses : List Int) (step : Step) : Step :=
  ⟨step.event, step.state.knowing addresses⟩

/-- Makes addresses known to the states of an outcome. -/
def Outcome.knowing (addresses : List Int) (outcome : Outcome) : Outcome :=
  { state := outcome.state.knowing addresses
    report := { outcome.report with steps := outcome.report.steps.map (Step.knowing addresses) } }

/-- A cycle does the same on a state that knows more addresses. -/
theorem State.cycleOnce_knowing :
    (state.knowing addresses).cycleOnce listing = (state.cycleOnce listing).knowing addresses := by
  have hdeeds : (state.knowing addresses).deeds listing =
      (state.deeds listing).map (Deed.knowing addresses) := deedsFrom_knowing addresses state.tick _
  have hafter : stateAfter (state.knowing addresses).tick
      ((state.deeds listing).map (Deed.knowing addresses)) =
        (stateAfter state.tick (state.deeds listing)).knowing addresses :=
    stateAfter_knowing addresses state.tick _
  have hsteps : ((state.deeds listing).map (Deed.knowing addresses)).map Deed.step =
      ((state.deeds listing).map Deed.step).map (Step.knowing addresses) := by
    rw [List.map_map, List.map_map]
    rfl
  rw [State.cycleOnce_eq, State.cycleOnce_eq, hdeeds, hafter, hsteps]
  rfl

end Unnoticed

/-! ## Main statement -/

/-- Of two frames of any history in a row, the second is what a cycle makes of the first: the state with all
its cells, those without a value included, and the steps.  More known addresses would change nothing. -/
theorem replay_reproduces {listing : Listing} {configuration : Configuration} {n : Nat}
    {frame next : Frame} (hframe : (History.ofListing listing configuration).frames[n]? = some frame)
    (hnext : (History.ofListing listing configuration).frames[n + 1]? = some next) :
    (frame.state.cycleOnce listing).state = next.state ∧
      (frame.state.cycleOnce listing).report.steps = next.steps ∧
      ∀ addresses, (frame.state.knowing addresses).cycleOnce listing =
        (frame.state.cycleOnce listing).knowing addresses := by
  obtain rfl := History.eq_knowing_of_frame hframe
  obtain rfl := History.eq_knowing_of_frame hnext
  rw [State.frame_succ]
  have hcycle (addresses : List Int) (state : State) :
      (state.knowing addresses).cycleOnce listing = (state.cycleOnce listing).knowing addresses :=
    State.cycleOnce_knowing addresses state
  exact ⟨congrArg Outcome.state (hcycle _ _), congrArg (·.report.steps) (hcycle _ _),
    fun addresses => hcycle addresses _⟩

namespace Discovery

/-- A load whose address is known only when the constant before it has been published. -/
def listing : Listing where
  instructions :=
    [⟨"li a1,200", "li", 0, .loadImmediate "a1" 200⟩, ⟨"lw x2,0(a1)", "lw", 1, .load "x2" "a1" 0⟩]
  sections := [⟨"main", [0, 1]⟩]
  initialValues := .empty

end Discovery

/-- The cycle in which the load discovers its cell is reproduced from a state that lists it without a
value. -/
theorem replay_reproduces_discovery :
    ∃ frame next, (History.ofListing Discovery.listing {}).frames[6]? = some frame ∧
      (History.ofListing Discovery.listing {}).frames[7]? = some next ∧
      frame.state.memory.find? 200 = some none ∧ (next.state.memory.read 200).isSome = true ∧
      (frame.state.cycleOnce Discovery.listing).state = next.state ∧
      (frame.state.cycleOnce Discovery.listing).report.steps = next.steps := by
  have hlisted : ((History.ofListing Discovery.listing {}).frames[6]?.map
      fun frame => frame.state.memory.find? 200) = some (some none) := by decide +kernel
  have hfilled : ((History.ofListing Discovery.listing {}).frames[7]?.map
      fun frame => (frame.state.memory.read 200).isSome) = some true := by decide +kernel
  obtain ⟨frame, hframe, hcell⟩ := Option.map_eq_some_iff.mp hlisted
  obtain ⟨next, hnext, hread⟩ := Option.map_eq_some_iff.mp hfilled
  obtain ⟨hstate, hsteps, -⟩ := replay_reproduces hframe hnext
  exact ⟨frame, next, hframe, hnext, hcell, hread, hstate, hsteps⟩

end Tomasulo
