import Tomasulo.Proofs.Ending

/-!
# Raising the cap

A cap on the cycles decides only how long a run is watched.  Two histories of one machine tell the same story
as far as the shorter one goes (`raising_cap_extends`): the longer one lists at most more addresses, those
that were touched behind the shorter one's end.  A run that finished below its cap has nothing to add but the
quiet cycle that the shorter history had no room for.

Both histories are read through the states after so many cycles.  A history with a higher cap is not shorter
(`State.length_cycles_mono`), and so it knows no fewer addresses (`State.addresses_subset`).
-/

namespace Tomasulo

/-- Whether two states agree apart from addresses that only the second one lists, without a value. -/
structure State.Extended (state more : State) : Prop where
  cycle : more.cycle = state.cycle
  cursor : more.cursor = state.cursor
  registers : more.registers = state.registers
  stations : more.stations = state.stations
  actions : more.actions = state.actions
  read : ∀ address, more.memory.read address = state.memory.read address
  cells : ∀ address, more.memory.find? address = state.memory.find? address ∨
    state.memory.find? address = none ∧ more.memory.find? address = some none

/-- Whether two frames tell the same events, with states that agree in this sense. -/
structure Frame.Extended (frame more : Frame) : Prop where
  state : frame.state.Extended more.state
  steps : List.Forall₂ (fun step other : Step => other.event = step.event ∧
    step.state.Extended other.state) frame.steps more.steps

/-- Whether a history tells at least as much of a run as another one, of which it differs in nothing that the
other one tells. -/
structure History.Extended (history more : History) : Prop where
  length : history.states.length ≤ more.states.length
  frames : ∀ {n : Nat} {frame : Frame}, history.frames[n]? = some frame →
    ∃ other, more.frames[n]? = some other ∧ frame.Extended other
  finished : history.completion = .finished → more.completion = .finished
  /-- Behind a finished run one more state may be recorded, -/
  brief : history.completion = .finished → more.states.length ≤ history.states.length + 1
  /-- that of a cycle without progress. -/
  quiet : history.completion = .finished →
    (∀ last, history.states.getLast? = some last → last.hasWork history.listing = false) ∧
      ∀ extra, more.frames[history.frames.length]? = some extra → extra.steps = []
  statistics : history.completion = .finished → history.statistics = more.statistics

/-! ## Known addresses -/

section Addresses

theorem OrderedMap.mem_keys_iff {κ β : Type} {cmp : κ → κ → Ordering} [Std.TransCmp cmp]
    [Std.LawfulEqCmp cmp] {map : OrderedMap κ β cmp} {key : κ} :
    key ∈ map.keys ↔ (map.find? key).isSome = true := by
  rw [← contains_eq_isSome_find?, contains, List.any_eq_true, keys, List.mem_map]
  constructor
  · rintro ⟨entry, hentry, rfl⟩
    exact ⟨entry, hentry, by simp [Std.ReflCmp.compare_self]⟩
  · rintro ⟨entry, hentry, hsame⟩
    exact ⟨entry, hentry, (Std.LawfulEqCmp.eq_of_compare (beq_iff_eq.mp hsame)).symm⟩

/-- The known addresses of frames are those that some state in them lists. -/
theorem mem_knownAddresses {frames : List Frame} {address : Int} :
    address ∈ knownAddresses frames ↔
      ∃ frame ∈ frames, ∃ state ∈ frame.states, address ∈ state.memory.keys := by
  have hknown : knownAddresses frames =
      (Memory.knowing ((frames.flatMap Frame.states).flatMap fun state => state.memory.keys)
        .empty).keys := by
    rw [knownAddresses, Memory.knowing, List.foldl_flatMap, List.foldl_map]
  rw [hknown, OrderedMap.mem_keys_iff, Memory.find?_knowing, OrderedMap.find?_empty, Option.none_or]
  simp only [Option.isSome_ite, List.mem_flatMap]
  constructor
  · rintro ⟨state, ⟨frame, hframe, hstate⟩, hlisted⟩
    exact ⟨frame, hframe, state, hstate, hlisted⟩
  · rintro ⟨frame, hframe, state, hstate, hlisted⟩
    exact ⟨state, ⟨frame, hframe, hstate⟩, hlisted⟩

/-- To know more addresses is all that a state gains by making more of them known. -/
theorem State.extended_knowing {addresses others : List Int} (hsubset : addresses ⊆ others)
    (state : State) : (state.knowing addresses).Extended (state.knowing others) where
  cycle := rfl
  cursor := rfl
  registers := rfl
  stations := rfl
  actions := rfl
  read address := by simp
  cells address := by
    simp only [State.memory_knowing, Memory.find?_knowing]
    by_cases hlisted : address ∈ addresses
    · exact .inl (by rw [if_pos hlisted, if_pos (hsubset hlisted)])
    · cases state.memory.find? address with
      | some cell => exact .inl rfl
      | none =>
          by_cases hother : address ∈ others
          · exact .inr ⟨by simp [hlisted], by simp [hother]⟩
          · exact .inl (by rw [if_neg hlisted, if_neg hother])

theorem Frame.extended_knowing {addresses others : List Int} (hsubset : addresses ⊆ others)
    (frame : Frame) : (frame.knowing addresses).Extended (frame.knowing others) where
  state := State.extended_knowing hsubset frame.state
  steps := by
    refine List.forall₂_map_left_iff.mpr (List.forall₂_map_right_iff.mpr (List.forall₂_same.mpr ?_))
    exact fun step _ => ⟨rfl, State.extended_knowing hsubset step.state⟩

end Addresses

/-! ## A higher cap -/

section Caps

variable {listing : Listing} {initial : State} {m n : Nat}

/-- Behind a state without work left at most one more cycle is recorded, a quiet one. -/
theorem State.length_cycles_le_of_quiet
    (hquiet : (initial.afterCycles listing m).hasWork listing = false) :
    (initial.cycles listing n).length ≤ m + 1 := by
  by_contra hlonger
  have hwork : (initial.afterCycles listing m).hasWork listing = true :=
    State.hasWork_of_lt_cycles (by omega : m + 1 < (initial.cycles listing n).length)
  exact absurd (hwork.symm.trans hquiet) (by simp)

theorem State.length_cycles_mono (hle : m ≤ n) :
    (initial.cycles listing m).length ≤ (initial.cycles listing n).length := by
  have hcap : (initial.cycles listing m).length ≤ m := State.length_cycles_le m initial
  have hend : (initial.cycles listing n).length = n ∨
      ∃ k, (initial.cycles listing n).length = k + 1 ∧
        (initial.afterCycles listing k).hasWork listing = false := State.length_cycles_eq_or n initial
  rcases hend with hlength | ⟨k, hlength, hquiet⟩
  · omega
  · -- Behind a quiet cycle the run with the lower cap records nothing either.
    exact (State.length_cycles_le_of_quiet hquiet).trans hlength.ge

theorem State.addresses_subset (hle : m ≤ n) :
    initial.addresses listing m ⊆ initial.addresses listing n := by
  intro address hlisted
  obtain ⟨frame, hframe, hstates⟩ := mem_knownAddresses.mp hlisted
  refine mem_knownAddresses.mpr ⟨frame, ?_, hstates⟩
  have hlonger : (initial.cycles listing m).length + 1 ≤ (initial.cycles listing n).length + 1 :=
    Nat.succ_le_succ (State.length_cycles_mono hle)
  exact List.map_subset _ (List.range_subset.mpr hlonger) hframe

namespace History

/-- The frames of a history are also those of one with a higher cap, which may know more addresses. -/
theorem exists_extended (hle : m ≤ n) {count : Nat} {frame : Frame}
    (hframe : (ofState listing initial m).frames[count]? = some frame) :
    ∃ more, (ofState listing initial n).frames[count]? = some more ∧ frame.Extended more := by
  obtain ⟨hbound, -⟩ := List.getElem?_eq_some_iff.mp hframe
  rw [length_frames_ofState] at hbound
  have hlonger : (initial.cycles listing m).length ≤ (initial.cycles listing n).length :=
    State.length_cycles_mono hle
  obtain rfl := eq_knowing_of_frame hframe
  have hmore : count < (ofState listing initial n).frames.length := by
    rw [length_frames_ofState]
    omega
  refine ⟨_, List.getElem?_eq_getElem hmore, ?_⟩
  rw [eq_knowing_of_frame (List.getElem?_eq_getElem hmore)]
  exact Frame.extended_knowing (State.addresses_subset hle) _

/-- A run that finished has the statistics of all runs with a higher cap. -/
theorem statistics_eq_of_finished (hle : m ≤ n)
    (hfinished : (ofState listing initial m).completion = .finished) :
    (ofState listing initial m).statistics = (ofState listing initial n).statistics := by
  have hquiet := finished_iff.mp hfinished
  have hlonger : (initial.cycles listing m).length ≤ (initial.cycles listing n).length :=
    State.length_cycles_mono hle
  have hone : (initial.cycles listing n).length ≤ (initial.cycles listing m).length + 1 :=
    State.length_cycles_le_of_quiet hquiet
  have hstill : (initial.afterCycles listing (initial.cycles listing n).length).hasWork listing = false :=
    State.hasWork_afterCycles_mono hlonger hquiet
  have hreports : Statistics.ofReports (initial.reports listing (initial.cycles listing n).length) =
      Statistics.ofReports (initial.reports listing (initial.cycles listing m).length) := by
    rcases hlonger.eq_or_lt with hsame | hless
    · rw [hsame]
    · rw [show (initial.cycles listing n).length = (initial.cycles listing m).length + 1 by omega,
        State.reports_succ, Statistics.ofReports_snoc]
      exact if_neg (Bool.eq_false_iff.mp hquiet)
  rw [statistics_ofState, statistics_ofState, hquiet, hstill, hreports]

/-- Behind the end of a finished run only a quiet cycle can be recorded. -/
theorem quiet_of_finished (hfinished : (ofState listing initial m).completion = .finished) :
    (∀ last, (ofState listing initial m).states.getLast? = some last → last.hasWork listing = false) ∧
      ∀ extra, (ofState listing initial n).frames[(ofState listing initial m).frames.length]? =
        some extra → extra.steps = [] := by
  have hquiet := finished_iff.mp hfinished
  refine ⟨fun last hlast => (finished_iff_rest hlast).mp hfinished 0, fun extra hextra => ?_⟩
  rw [length_frames_ofState] at hextra
  obtain rfl := eq_knowing_of_frame hextra
  show (((initial.afterCycles listing _).cycleOnce listing).report.steps.map _) = []
  rw [steps_cycleOnce, State.deeds_of_quiet hquiet]
  rfl

/-- A history is extended by one with a higher cap. -/
theorem extended_ofState (hle : m ≤ n) :
    (ofState listing initial m).Extended (ofState listing initial n) where
  length := by
    rw [length_states_ofState, length_states_ofState]
    exact Nat.succ_le_succ (State.length_cycles_mono hle)
  frames hframe := exists_extended hle hframe
  finished hfinished :=
    finished_iff.mpr (State.hasWork_afterCycles_mono (State.length_cycles_mono hle)
      (finished_iff.mp hfinished))
  brief hfinished := by
    rw [length_states_ofState, length_states_ofState]
    exact Nat.succ_le_succ (State.length_cycles_le_of_quiet (finished_iff.mp hfinished))
  quiet hfinished := quiet_of_finished hfinished
  statistics hfinished := statistics_eq_of_finished hle hfinished

end History

end Caps

/-! ## Main statement -/

/-- Raising the cap of a run only extends its history.  Each frame of the shorter history stands at the same
place in the longer one, with the same events and the same states, except that the longer one may list more
cells without a value.  If the run with the lower cap finished, then so did the other one, with the same
statistics and with at most one more state, that of a quiet cycle. -/
theorem raising_cap_extends (listing : Listing) (configuration : Configuration) {m n : Nat}
    (hle : m ≤ n) :
    (History.ofListing listing { configuration with maxCycles := m }).Extended
      (History.ofListing listing { configuration with maxCycles := n }) :=
  History.extended_ofState hle

/-- Ten cycles are enough for the product and the sum; with a higher cap the quiet cycle behind them is
recorded as well. -/
theorem raising_cap_extends_chain :
    (History.ofListing Chain.listing { maxCycles := 10 }).states.length = 11 ∧
      (History.ofListing Chain.listing { maxCycles := 12 }).states.length = 12 ∧
      (History.ofListing Chain.listing { maxCycles := 10 }).statistics =
        (History.ofListing Chain.listing { maxCycles := 12 }).statistics ∧
      ∀ extra, (History.ofListing Chain.listing { maxCycles := 12 }).frames[11]? = some extra →
        extra.steps = [] := by
  have hextended : (History.ofListing Chain.listing { maxCycles := 10 }).Extended
      (History.ofListing Chain.listing { maxCycles := 12 }) :=
    raising_cap_extends Chain.listing {} (by decide)
  have hfinished : (History.ofListing Chain.listing { maxCycles := 10 }).completion = .finished := by
    decide +kernel
  have hframes : (History.ofListing Chain.listing { maxCycles := 10 }).frames.length = 11 := by
    decide +kernel
  obtain ⟨-, hextra⟩ := hextended.quiet hfinished
  rw [hframes] at hextra
  exact ⟨by decide +kernel, by decide +kernel, hextended.statistics hfinished, hextra⟩

end Tomasulo
