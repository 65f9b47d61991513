import Tomasulo.Proofs.Career
import Tomasulo.Proofs.InOrder
import Tomasulo.Proofs.Recorded
import Tomasulo.Proofs.WellFormed

/-!
# Accounts

No instruction is lost or done twice, and the statistics account for all of them.

* Each position of the order of fetching is a branch or jump, which no station ever holds, or it is held by
  exactly one station, or it has completed, by one publication or, if it is a store, by one write that leaves
  its value in memory (`Accounted`).
* The counters of a run balance after every cycle: with the stations in use, with the number of fetched
  instructions, and with the number of cycles (`Statistics.Balanced`).

The first is read off careers.  For the second, both sides are compared with the journal: the counters of a
run are counts of its deeds (`Statistics.Counts`), because in a cycle at most one instruction is fetched
and at most one result published.
-/

namespace Tomasulo

/-- How often the instruction at a position has published a result. -/
def publicationsAt (journal : List Deed) (n : Nat) : Nat :=
  (eventsAt journal n).countP Event.isBroadcast

/-- How often the instruction at a position has written memory. -/
def commitsAt (journal : List Deed) (n : Nat) : Nat :=
  (eventsAt journal n).countP Event.isCommit

/-- What has become of a fetched instruction. -/
inductive Accounted (journal : List Deed) (state : State) (n codeOrder : Nat)
    (instruction : Instruction) : Prop
  /-- A branch or jump never enters a station and never completes. -/
  | steered (hcontrol : instruction.isControl = true) (hfree : ∀ id, ¬ state.Holds id n)
      (hpublications : publicationsAt journal n = 0) (hcommits : commitsAt journal n = 0)
  /-- The instruction is in exactly one station and has not completed. -/
  | held {id : Nat} {slot : Slot} (hcontrol : instruction.isControl = false)
      (hslot : state.stations.slot? id = some slot) (hseq : slot.seq = n)
      (hcodeOrder : slot.codeOrder = codeOrder) (hunique : ∀ other, state.Holds other n → other = id)
      (hpublications : publicationsAt journal n = 0) (hcommits : commitsAt journal n = 0)
  /-- The instruction has completed exactly once, a store by writing memory and all others by publishing;
  what a store has written is in its cell when the deed is done. -/
  | completed (hcontrol : instruction.isControl = false) (hfree : ∀ id, ¬ state.Holds id n)
      (hpublications : publicationsAt journal n = if instruction.opClass = .store then 0 else 1)
      (hcommits : commitsAt journal n = if instruction.opClass = .store then 1 else 0)
      (hwritten : instruction.opClass = .store → ∃ deed ∈ journal, deed.seq = n ∧
        ∃ address value, deed.access? = some (.write address value) ∧
          deed.after.memory.read address = some value)

/-- How many of the first cycles made progress with nothing left to fetch. -/
def State.drained (listing : Listing) (initial : State) (count : Nat) : Nat :=
  (List.range count).countP fun n =>
    (initial.afterCycles listing n).hasWork listing &&
      (initial.afterCycles listing n).cursor.isExhausted listing

/-- Whether counters balance with a state and a number of drained cycles. -/
structure Statistics.Balanced (statistics : Statistics) (state : State) (drained : Nat) : Prop where
  issued : statistics.issued =
    statistics.broadcasts + statistics.storeCommits + state.stations.countP Station.isBusy
  fetched : state.cursor.fetched =
    statistics.issued + statistics.branchesTaken + statistics.branchesNotTaken + statistics.jumps
  cycles : statistics.cycles =
    statistics.issued + statistics.stalls + statistics.branchesTaken + statistics.branchesNotTaken +
      statistics.jumps + drained

/-- Whether counters are those of the deeds of a journal. -/
structure Statistics.Counts (statistics : Statistics) (journal : List Deed) : Prop where
  issued : statistics.issued = journal.countP (·.event.isIssue)
  broadcasts : statistics.broadcasts = journal.countP (·.event.isBroadcast)
  storeCommits : statistics.storeCommits = journal.countP (·.event.isCommit)
  branchesTaken : statistics.branchesTaken = journal.countP (·.event.control? == some .taken)
  branchesNotTaken :
    statistics.branchesNotTaken = journal.countP (·.event.control? == some .notTaken)
  jumps : statistics.jumps = journal.countP (·.event.control? == some .jump)

/-! ## Completions in a career -/

section Careers

variable {delay : Nat} {instruction : Instruction} {slot : Slot} {events : List Event} {event : Event}

theorem Event.stays_iff (hstays : event.stays = true) :
    event.isIssue = false ∧ event.isBroadcast = false ∧ event.isCommit = false ∧
      event.control? = none := by
  cases event <;> simp_all [stays, isIssue, isBroadcast, isCommit, control?]

/-- What a career says of completions, by what is left in the station. -/
theorem Career.completions {slot? : Option Slot} (hcareer : Career delay instruction slot? events) :
    match slot? with
    | some _ =>
        instruction.isControl = false ∧ events.countP Event.isBroadcast = 0 ∧
          events.countP Event.isCommit = 0
    | none =>
        (instruction.isControl = true ∧ events.countP Event.isBroadcast = 0 ∧
            events.countP Event.isCommit = 0) ∨
          instruction.isControl = false ∧
            events.countP Event.isBroadcast = (if instruction.opClass = .store then 0 else 1) ∧
            events.countP Event.isCommit = if instruction.opClass = .store then 1 else 0 := by
  induction hcareer with
  | entered _ hcapture =>
      refine ⟨?_, by simp [Event.isBroadcast], by simp [Event.isCommit]⟩
      unfold Instruction.isControl
      cases hoperation : instruction.operation <;> simp_all [Slot.capture?, Operation.isControl]
  | steered hsteers =>
      refine .inl ?_
      unfold Instruction.isControl
      cases hsteers with
      | branched hoperation =>
          simp [hoperation, Operation.isControl, Event.isBroadcast, Event.isCommit]
      | jumped hoperation =>
          simp [hoperation, Operation.isControl, Event.isBroadcast, Event.isCommit]
  | received _ _ _ ih => exact ih
  | advanced _ _ hadvances ih =>
      obtain ⟨-, hbroadcast, hcommit, -⟩ := Event.stays_iff hadvances.stays
      simpa [hbroadcast, hcommit] using ih
  | left _ hfits hleaves ih =>
      obtain ⟨hcontrol, hpublications, hcommits⟩ := ih
      have hstore := hfits.opClass_eq_store_iff
      refine .inr ⟨hcontrol, ?_⟩
      cases hleaves with
      | publish hop =>
          have hne : instruction.opClass ≠ .store := fun hclass => hop (hstore.mp hclass)
          simp [hpublications, hcommits, hne, Event.isBroadcast, Event.isCommit]
      | store hop =>
          simp [hpublications, hcommits, hstore.mpr hop, Event.isBroadcast, Event.isCommit]

end Careers

/-! ## Every position is accounted for -/

section Positions

variable {listing : Listing} {banks : Banks} {initial frozen state : State} {journal : List Deed}
  {todo : List Task} {n codeOrder : Nat}

/-- A position with a write to memory has a deed that leaves its value in a cell. -/
theorem Execution.exists_write_of_commitsAt
    (hnow : Execution listing initial frozen journal state todo) (hfresh : initial.Fresh)
    {instruction : Instruction} (hat : state.cursor.instructionAt? listing n = some instruction)
    (hcommits : 0 < commitsAt journal n) :
    ∃ deed ∈ journal, deed.seq = n ∧ ∃ address value,
      deed.access? = some (.write address value) ∧ deed.after.memory.read address = some value := by
  obtain ⟨event, hevent, hcommit⟩ := List.countP_pos_iff.mp hcommits
  obtain ⟨deed, hdeed, rfl⟩ := List.mem_map.mp hevent
  obtain ⟨hjournal, hseq⟩ := List.mem_filter.mp hdeed
  obtain rfl := of_decide_eq_true hseq
  exact ⟨deed, hjournal, rfl, (hnow.inOrder_at hfresh hjournal hat).read_of_isCommit hcommit⟩

theorem Execution.accounted (hnow : Execution listing initial frozen journal state todo)
    (hfresh : initial.Fresh) (hlayout : initial.stations.layout = (Pool.ofBanks banks).layout)
    (hwellFormed : listing.WellFormed) (hposition : state.cursor.executionOrder[n]? = some codeOrder) :
    ∃ instruction, listing.instruction? codeOrder = some instruction ∧
      Accounted journal state n codeOrder instruction := by
  obtain ⟨hbound, -⟩ := List.getElem?_eq_some_iff.mp hposition
  obtain ⟨instruction, hat⟩ := hnow.exists_instructionAt hfresh hbound
  have hcodeOrder : codeOrder = instruction.codeOrder :=
    Option.some.inj (hposition.symm.trans (hwellFormed.executionOrder_eq hat))
  have hthere : listing.instruction? codeOrder = some instruction := by
    unfold Cursor.instructionAt? at hat
    rwa [hposition, Option.bind_some] at hat
  refine ⟨instruction, hthere, ?_⟩
  have hlife := hnow.lifecycle hfresh.free hfresh.delays
  cases hnow.tracked hfresh hlayout hat with
  | @held id slot hslot hseq _ hcareer =>
      obtain ⟨hcontrol, hpublications, hcommits⟩ := hcareer.completions
      have hfits := hlife.fits_at hslot (hseq ▸ hat)
      refine .held hcontrol hslot hseq (hfits.codeOrder.trans hcodeOrder.symm) ?_ hpublications
        hcommits
      rintro other ⟨rival, hrival, hsame⟩
      exact hlife.distinct other id rival slot hrival hslot (hsame.trans hseq.symm)
  | gone hfree hcareer =>
      rcases hcareer.completions with ⟨hcontrol, hpublications, hcommits⟩ |
        ⟨hcontrol, hpublications, hcommits⟩
      · exact .steered hcontrol hfree hpublications hcommits
      · refine .completed hcontrol hfree hpublications hcommits fun hstore => ?_
        exact hnow.exists_write_of_commitsAt hfresh hat (by simp [commitsAt, hcommits, hstore])

end Positions

/-! ## Stations in use -/

section Busy

variable {pool : Pool} {id : Nat}

/-- The numbers of the stations in use. -/
def Pool.busyIds (pool : Pool) : Finset Nat :=
  (Finset.range pool.length).filter fun id => (pool.slot? id).isSome

theorem Pool.mem_busyIds_iff : id ∈ pool.busyIds ↔ (pool.slot? id).isSome = true := by
  unfold busyIds
  rw [Finset.mem_filter, Finset.mem_range, and_iff_right_iff_imp]
  intro hsome
  obtain ⟨slot, hslot⟩ := Option.isSome_iff_exists.mp hsome
  exact lt_length_of_slot? hslot

theorem Pool.card_busyIds (pool : Pool) : pool.busyIds.card = pool.countP Station.isBusy := by
  have hrange (stations : List Station) : stations.countP Station.isBusy =
      (List.range stations.length).countP fun id => (slot? stations id).isSome := by
    induction stations with
    | nil => rfl
    | cons station rest ih =>
        rw [List.length_cons, List.range_succ_eq_map, List.countP_cons, List.countP_cons,
          List.countP_map, ih]
        rfl
  rw [hrange pool, List.countP_eq_length_filter, busyIds, Finset.card_def, Finset.filter_val,
    Finset.range_val, Multiset.range, Multiset.filter_coe, Multiset.coe_card]
  simp

end Busy

/-! ## Counts of deeds -/

section Lists

variable {α : Type}

theorem countP_cons_toNat (p : α → Bool) (entry : α) (rest : List α) :
    (entry :: rest).countP p = rest.countP p + (p entry).toNat := by
  cases hholds : p entry <;> simp [hholds]

theorem countP_snoc (p : α → Bool) (entries : List α) (entry : α) :
    (entries ++ [entry]).countP p = entries.countP p + (p entry).toNat := by
  rw [List.countP_append, countP_cons_toNat, List.countP_nil, Nat.zero_add]

/-- Counts of two conditions add up if each entry satisfies at most one of them. -/
theorem countP_add_countP {p q r : α → Bool} {entries : List α}
    (hsplit : ∀ entry ∈ entries, (p entry).toNat + (q entry).toNat = (r entry).toNat) :
    entries.countP p + entries.countP q = entries.countP r := by
  induction entries with
  | nil => rfl
  | cons entry rest ih =>
      have hentry := hsplit entry (List.mem_cons_self ..)
      have hrest := ih fun other hother => hsplit other (List.mem_cons_of_mem _ hother)
      simp only [countP_cons_toNat]
      omega

theorem toNat_any_of_countP_le_one {p : α → Bool} {entries : List α}
    (hle : entries.countP p ≤ 1) : (entries.any p).toNat = entries.countP p := by
  cases hany : entries.any p with
  | true =>
      obtain ⟨entry, hentry, hholds⟩ := List.any_eq_true.mp hany
      have hpositive := List.countP_pos_iff.mpr ⟨entry, hentry, hholds⟩
      simp only [Bool.toNat_true]
      omega
  | false =>
      rw [List.countP_eq_zero.mpr fun entry hentry => List.any_eq_false.mp hany entry hentry]
      rfl

/-- The first answer is the only one if there is at most one. -/
theorem toNat_findSome?_of_countP_le_one {β : Type} [BEq β] {f : α → Option β} {entries : List α}
    (hle : entries.countP (fun entry => (f entry).isSome) ≤ 1) (answer : β) :
    (entries.findSome? f == some answer).toNat =
      entries.countP fun entry => f entry == some answer := by
  induction entries with
  | nil => rfl
  | cons entry rest ih =>
      rw [List.findSome?_cons, List.countP_cons]
      cases hanswer : f entry with
      | none => simpa using ih (by simpa [hanswer] using hle)
      | some first =>
          -- There is no answer in the rest.
          have hnone : rest.countP (fun entry => f entry == some answer) = 0 := by
            rw [List.countP_eq_zero]
            intro other hother hsame
            have hzero : rest.countP (fun entry => (f entry).isSome) = 0 := by
              simpa [hanswer] using hle
            refine List.countP_eq_zero.mp hzero other hother ?_
            cases hf : f other with
            | none => simp [hf] at hsame
            | some _ => rfl
          rw [hnone]
          cases hsame : (some first == some answer) <;> rfl

end Lists

section Counts

variable {listing : Listing} {initial frozen state : State} {journal : List Deed} {deed : Deed}
  {todo : List Task}

/-- A deed issues, steers, works or completes. -/
theorem Deed.Valid.counts (hvalid : deed.Valid listing) :
    deed.after.stations.countP Station.isBusy + deed.event.isBroadcast.toNat +
          deed.event.isCommit.toNat =
        deed.before.stations.countP Station.isBusy + deed.event.isIssue.toNat ∧
      deed.event.isIssue.toNat + deed.event.control?.isSome.toNat =
        deed.task.station?.isNone.toNat := by
  obtain ⟨after, hchange, -, -, -, hstations, -⟩ := hvalid.change
  simp only [← Pool.card_busyIds]
  -- Stations apart from that of the task are in use exactly if they were.
  have hothers {other : Nat} (hsite : deed.task.site? ≠ some other) :
      other ∈ deed.after.stations.busyIds ↔ other ∈ deed.before.stations.busyIds := by
    rw [Pool.mem_busyIds_iff, Pool.mem_busyIds_iff, hstations]
    rcases hchange.slot?_of_ne hsite with hsame | ⟨_, _, hsame⟩ <;> simp [hsame]
  cases hvalid.stride with
  | @entered instruction id slot _ _ htask hevent hnext hcursor hclass hcapture hslot =>
      have hfree : id ∉ deed.before.stations.busyIds := by
        have henabled := hvalid.enabled
        rw [htask] at henabled
        obtain ⟨-, -, station, hstation, hempty, -⟩ := henabled
        simp [Pool.mem_busyIds_iff, Pool.slot?, hstation, hempty]
      have hmore : deed.after.stations.busyIds = insert id deed.before.stations.busyIds := by
        ext other
        rcases eq_or_ne other id with rfl | hne
        · simp [Pool.mem_busyIds_iff, hslot]
        · rw [Finset.mem_insert, or_iff_right hne]
          exact hothers (by rw [htask]; simpa [Task.site?] using Ne.symm hne)
      rw [hmore, Finset.card_insert_of_notMem hfree, hevent, htask]
      simp [Event.isBroadcast, Event.isCommit, Event.isIssue, Event.control?, Task.station?]
  | steered hsite hnext hcursor hsteers =>
      have hsame : deed.after.stations.busyIds = deed.before.stations.busyIds := by
        ext other
        exact hothers (by simp [hsite])
      rw [hsame, Task.station?_of_site hsite]
      generalize deed.event = event at hsteers
      cases hsteers <;>
        simp [Event.isBroadcast, Event.isCommit, Event.isIssue, Event.control?]
  | @advanced id old next hstation hold hnext hadvances =>
      have hsame : deed.after.stations.busyIds = deed.before.stations.busyIds := by
        ext other
        rcases eq_or_ne other id with rfl | hne
        · simp [Pool.mem_busyIds_iff, hnext, hold]
        · exact hothers (by rw [Task.site?_eq hstation]; simpa using Ne.symm hne)
      obtain ⟨hissue, hbroadcast, hcommit, hcontrol⟩ := Event.stays_iff hadvances.stays
      rw [hsame, hissue, hbroadcast, hcommit, hcontrol, hstation]
      simp
  | @left id old hstation hold hfree hleaves =>
      have hless : deed.after.stations.busyIds = deed.before.stations.busyIds.erase id := by
        ext other
        rcases eq_or_ne other id with rfl | hne
        · simp [Pool.mem_busyIds_iff, hfree]
        · rw [Finset.mem_erase, and_iff_right hne]
          exact hothers (by rw [Task.site?_eq hstation]; simpa using Ne.symm hne)
      have hthere : id ∈ deed.before.stations.busyIds := by simp [Pool.mem_busyIds_iff, hold]
      have hpositive := Finset.card_pos.mpr ⟨id, hthere⟩
      rw [hless, Finset.card_erase_of_mem hthere, hstation]
      generalize deed.event = event at hleaves
      cases hleaves <;>
        simp [Event.isBroadcast, Event.isCommit, Event.isIssue, Event.control?] <;> omega

/-- Stations in use, and fetched instructions, in terms of the journal. -/
theorem Execution.balance (hnow : Execution listing initial frozen journal state todo)
    (hfresh : initial.Fresh) :
    journal.countP (·.event.isIssue) =
        journal.countP (·.event.isBroadcast) + journal.countP (·.event.isCommit) +
          state.stations.countP Station.isBusy ∧
      state.cursor.fetched =
        journal.countP (·.event.isIssue) + journal.countP (·.event.control?.isSome) := by
  refine hnow.of_deeds (motive := fun journal state =>
    journal.countP (·.event.isIssue) =
        journal.countP (·.event.isBroadcast) + journal.countP (·.event.isCommit) +
          state.stations.countP Station.isBusy ∧
      state.cursor.fetched =
        journal.countP (·.event.isIssue) + journal.countP (·.event.control?.isSome)) hfresh ?_ ?_ ?_
  · have hfree : initial.stations.busyIds = ∅ := by
      ext id
      simp [Pool.mem_busyIds_iff, hfresh.free]
    simp [← Pool.card_busyIds, hfree, hfresh.fetched]
  · intro journal state ih
    have hbusy : state.tick.stations.countP Station.isBusy =
        state.stations.countP Station.isBusy := by
      simp only [State.tick, Pool.rest, List.countP_map]
      rfl
    rwa [hbusy]
  · intro frozen journal rest deed hbefore hvalid ih
    obtain ⟨hstations, hfetch⟩ := hvalid.counts
    have hfetched := hvalid.fetched_after
    simp only [countP_snoc]
    omega

end Counts

/-! ## One cycle -/

section Cycle

variable {listing : Listing} {initial frozen state : State} {journal : List Deed} {todo : List Task}

theorem Execution.valid_of_mem_deeds (hnow : Execution listing initial frozen journal state todo)
    (hstart : initial.InStep listing) {deed : Deed} (hdeed : deed ∈ deedsFrom listing todo state) :
    deed.Valid listing := by
  obtain ⟨done, later, hdeeds⟩ := List.append_of_mem hdeed
  obtain ⟨rest, hthen, hperforms⟩ := hnow.deeds hdeeds
  exact hthen.valid hstart hperforms

/-- Whether a task publishes a result. -/
def Task.isPublish : Task → Bool
  | .publish _ => true
  | _ => false

/-- Only a task that publishes is told as a publication. -/
theorem Deed.Valid.isPublish {deed : Deed} (hvalid : deed.Valid listing)
    (hbroadcast : deed.event.isBroadcast = true) : ∃ id, deed.task = .publish id := by
  obtain ⟨after, hchange, -⟩ := hvalid.change
  have hpublished : deed.event.published? ≠ none := by
    cases hevent : deed.event <;> simp_all [Event.isBroadcast, Event.published?]
  obtain ⟨task, before, event, noted⟩ := deed
  cases hchange with
  | @publish id => exact ⟨id, rfl⟩
  | steer _ hsilent => exact absurd hsilent hpublished
  | work _ hsilent _ => exact absurd hsilent hpublished
  | enter => exact absurd rfl hpublished
  | store => exact absurd rfl hpublished

variable (hnow : Execution listing initial frozen journal state []) (hstart : initial.InStep listing)

include hnow hstart

theorem Execution.countP_task_deeds (p : Task → Bool) :
    (state.deeds listing).countP (fun deed => p deed.task) =
      (state.tick.plan listing).tasks.countP p := by
  rw [← hnow.tick.tasks_deeds hstart, List.countP_map]
  rfl

/-- The fetch slot issues or steers exactly if a task was decided for it. -/
theorem Execution.countP_fetch_deeds :
    (state.deeds listing).countP (·.event.isIssue) +
        (state.deeds listing).countP (·.event.control?.isSome) =
      (state.tick.plan listing).fetchTask?.toList.length := by
  have hsplit : (state.deeds listing).countP (·.event.isIssue) +
      (state.deeds listing).countP (·.event.control?.isSome) =
        (state.deeds listing).countP (·.task.station?.isNone) :=
    countP_add_countP fun deed hdeed => (hnow.tick.valid_of_mem_deeds hstart hdeed).counts.2
  rw [hsplit, hnow.countP_task_deeds hstart (·.station?.isNone), Plan.tasks_eq, List.countP_append]
  have hfetch : (state.tick.plan listing).fetchTask?.toList.countP (·.station?.isNone) =
      (state.tick.plan listing).fetchTask?.toList.length := by
    refine List.countP_eq_length.mpr fun task htask => ?_
    rw [station?_of_fetch (Plan.mem_fetchTask?_iff.mp htask)]
    rfl
  have hstations : (state.tick.plan listing).stationTasks.countP (·.station?.isNone) = 0 := by
    refine List.countP_eq_zero.mpr fun task htask => ?_
    obtain ⟨id, hstation⟩ := Plan.station?_of_mem htask
    simp [hstation]
  rw [hfetch, hstations, Nat.add_zero]

/-- At most one result is published in a cycle. -/
theorem Execution.countP_publish_deeds : (state.deeds listing).countP (·.event.isBroadcast) ≤ 1 := by
  have hle : (state.deeds listing).countP (·.event.isBroadcast) ≤
      (state.deeds listing).countP (·.task.isPublish) := by
    refine List.countP_mono_left fun deed hdeed hbroadcast => ?_
    obtain ⟨id, htask⟩ := (hnow.tick.valid_of_mem_deeds hstart hdeed).isPublish hbroadcast
    rw [htask]
    rfl
  refine hle.trans ?_
  rw [hnow.countP_task_deeds hstart Task.isPublish, Plan.tasks_eq, List.countP_append]
  have hfetch : (state.tick.plan listing).fetchTask?.toList.countP Task.isPublish = 0 := by
    refine List.countP_eq_zero.mpr fun task htask hpublish => ?_
    have hnone := station?_of_fetch (Plan.mem_fetchTask?_iff.mp htask)
    cases task <;> simp_all [Task.isPublish, Task.station?]
  rw [hfetch, Nat.zero_add, Plan.stationTasks]
  -- Of the phases only one publishes, for at most one station.
  simp only [List.countP_append, List.countP_map, Function.comp_def, Task.isPublish, List.countP_false,
    List.countP_true]
  cases (state.tick.plan listing).publishes <;> simp

/-- What a report tells of a cycle are counts of its deeds. -/
theorem Execution.report_counts :
    (state.cycleOnce listing).report.issued.toNat =
        (state.deeds listing).countP (·.event.isIssue) ∧
      (state.cycleOnce listing).report.broadcast.toNat =
        (state.deeds listing).countP (·.event.isBroadcast) ∧
      (state.cycleOnce listing).report.storesCommitted =
        (state.deeds listing).countP (·.event.isCommit) ∧
      ∀ control, ((state.cycleOnce listing).report.control? == some control).toNat =
        (state.deeds listing).countP (·.event.control? == some control) := by
  have hfetch := hnow.countP_fetch_deeds hstart
  have hslot : (state.tick.plan listing).fetchTask?.toList.length ≤ 1 := by
    cases (state.tick.plan listing).fetchTask? <;> simp
  have hissue : (state.deeds listing).countP (·.event.isIssue) ≤ 1 := by omega
  have hcontrol : (state.deeds listing).countP (·.event.control?.isSome) ≤ 1 := by omega
  unfold Report.issued Report.broadcast Report.storesCommitted Report.control?
  rw [steps_cycleOnce, List.any_map, List.any_map, List.countP_map, List.findSome?_map]
  refine ⟨?_, ?_, rfl, fun control => ?_⟩
  · exact toNat_any_of_countP_le_one hissue
  · exact toNat_any_of_countP_le_one (hnow.countP_publish_deeds hstart)
  · exact toNat_findSome?_of_countP_le_one hcontrol control

/-- A cycle with something to do issues, stalls, steers, or has nothing left to fetch. -/
theorem Execution.cycle_accounts (hclosed : listing.Closed) :
    (state.deeds listing).countP (·.event.isIssue) +
        (state.deeds listing).countP (·.event.control?.isSome) +
        (state.cycleOnce listing).report.stalled.toNat +
        (state.cursor.isExhausted listing).toNat = 1 := by
  have hfetch := hnow.countP_fetch_deeds hstart
  have hstalled : (state.cycleOnce listing).report.stalled = (state.tick.plan listing).isStalled := rfl
  rw [hfetch, hstalled]
  have hplan : (state.tick.plan listing).fetch = state.tick.fetch listing := rfl
  have hdone : state.tick.fetch listing = .exhausted ↔ state.cursor.isExhausted listing = true :=
    State.fetch_eq_exhausted_iff.trans hclosed.next?_eq_none_iff
  unfold Plan.fetchTask? Plan.isStalled
  rw [hplan]
  cases hact : state.tick.fetch listing with
  | exhausted => simp [hdone.mp hact]
  | stall => simp [Bool.eq_false_iff.mpr fun h => absurd (hact.symm.trans (hdone.mpr h)) (by simp)]
  | act task => simp [Bool.eq_false_iff.mpr fun h => absurd (hact.symm.trans (hdone.mpr h)) (by simp)]

end Cycle

/-! ## Whole runs -/

section Runs

variable {listing : Listing} {initial : State}

/-- Branches and jumps are taken, not taken, or jumps. -/
theorem countP_control (journal : List Deed) :
    journal.countP (·.event.control?.isSome) =
      journal.countP (·.event.control? == some .taken) +
        journal.countP (·.event.control? == some .notTaken) +
        journal.countP (·.event.control? == some .jump) := by
  have hone (control? : Option Control) : control?.isSome.toNat =
      (control? == some .taken).toNat + (control? == some .notTaken).toNat +
        (control? == some .jump).toNat := by
    cases control? with
    | none => rfl
    | some control => cases control <;> rfl
  induction journal with
  | nil => rfl
  | cons deed rest ih =>
      have hdeed := hone deed.event.control?
      simp only [countP_cons_toNat, ih]
      omega

theorem State.drained_succ (initial : State) (count : Nat) :
    initial.drained listing (count + 1) = initial.drained listing count +
      ((initial.afterCycles listing count).hasWork listing &&
        (initial.afterCycles listing count).cursor.isExhausted listing).toNat := by
  unfold State.drained
  rw [List.range_succ, countP_snoc]

variable (hfresh : initial.Fresh)

include hfresh

/-- In a cycle at most one instruction is fetched, and what was fetched before stays. -/
theorem State.executionOrder_succ (count : Nat) :
    ∃ fetched, fetched.length ≤ 1 ∧
      (initial.afterCycles listing (count + 1)).cursor.executionOrder =
        (initial.afterCycles listing count).cursor.executionOrder ++ fetched := by
  obtain ⟨_, hnow⟩ := State.execution_afterCycles listing initial count
  obtain ⟨_, hthen⟩ := State.execution_afterCycles listing initial (count + 1)
  obtain ⟨fetched, hfetched⟩ : (initial.afterCycles listing (count + 1)).cursor.Extends
      (initial.afterCycles listing count).cursor := State.extends_afterCycles hfresh (by omega)
  refine ⟨fetched, ?_, hfetched.symm⟩
  have hlength := congrArg List.length hfetched
  rw [List.length_append] at hlength
  have hbefore := (hnow.balance hfresh).2
  have hafter := (hthen.balance hfresh).2
  have hslot := hnow.countP_fetch_deeds hfresh.inStep
  have hone : ((initial.afterCycles listing count).tick.plan listing).fetchTask?.toList.length ≤ 1 := by
    cases ((initial.afterCycles listing count).tick.plan listing).fetchTask? <;> simp
  unfold Cursor.fetched at hbefore hafter
  rw [State.journal, List.countP_append, List.countP_append] at hafter
  omega

/-- The counters of the first cycles are those of their journal. -/
theorem Statistics.counts_ofReports (count : Nat) :
    (Statistics.ofReports (initial.reports listing count)).Counts (initial.journal listing count) := by
  induction count with
  | zero => exact ⟨rfl, rfl, rfl, rfl, rfl, rfl⟩
  | succ count ih =>
      obtain ⟨_, hnow⟩ := State.execution_afterCycles listing initial count
      rw [State.reports_succ, Statistics.ofReports_snoc, State.journal]
      split
      case isTrue =>
        obtain ⟨hissued, hbroadcast, hcommits, hcontrol⟩ := hnow.report_counts hfresh.inStep
        have htaken := hcontrol .taken
        have hnotTaken := hcontrol .notTaken
        have hjump := hcontrol .jump
        constructor <;> simp only [Statistics.record, Report.tally, List.countP_append]
        · rw [ih.issued, hissued]
        · rw [ih.broadcasts, hbroadcast]
        · rw [ih.storeCommits, hcommits]
        · rw [ih.branchesTaken, htaken]
        · rw [ih.branchesNotTaken, hnotTaken]
        · rw [ih.jumps, hjump]
      case isFalse hquiet =>
        rw [State.deeds_of_quiet (Bool.eq_false_iff.mpr hquiet), List.append_nil]
        exact ih

theorem Statistics.cycles_ofReports (hclosed : listing.Closed) (count : Nat) :
    (Statistics.ofReports (initial.reports listing count)).cycles =
      (initial.journal listing count).countP (·.event.isIssue) +
        (Statistics.ofReports (initial.reports listing count)).stalls +
        (initial.journal listing count).countP (·.event.control?.isSome) +
        initial.drained listing count := by
  induction count with
  | zero => rfl
  | succ count ih =>
      obtain ⟨_, hnow⟩ := State.execution_afterCycles listing initial count
      have haccounts := hnow.cycle_accounts hfresh.inStep hclosed
      have hwork : (initial.afterCycles listing count).hasWork listing =
        ((initial.afterCycles listing count).cycleOnce listing).report.progressed := rfl
      rw [State.reports_succ, Statistics.ofReports_snoc, State.journal, State.drained_succ,
        List.countP_append, List.countP_append, hwork]
      split
      case isTrue hprogressed =>
        simp only [Statistics.record, Report.tally, hprogressed, Bool.true_and]
        omega
      case isFalse hquiet =>
        rw [State.deeds_of_quiet (Bool.eq_false_iff.mpr hquiet), Bool.eq_false_iff.mpr hquiet]
        simpa using ih

/-- Counters balance after any number of cycles. -/
theorem Statistics.balanced_ofReports (hclosed : listing.Closed) (count : Nat) :
    (Statistics.ofReports (initial.reports listing count)).Balanced
      (initial.afterCycles listing count) (initial.drained listing count) := by
  obtain ⟨_, hnow⟩ := State.execution_afterCycles listing initial count
  obtain ⟨hstations, hfetched⟩ := hnow.balance hfresh
  have hcycles := Statistics.cycles_ofReports hfresh hclosed count
  have hcontrol := countP_control (initial.journal listing count)
  obtain ⟨hissued, hbroadcasts, hcommits, htaken, hnotTaken, hjumps⟩ :
      (Statistics.ofReports (initial.reports listing count)).Counts (initial.journal listing count) :=
    Statistics.counts_ofReports hfresh count
  constructor
  · rw [hissued, hbroadcasts, hcommits]
    exact hstations
  · rw [hissued, htaken, hnotTaken, hjumps]
    omega
  · rw [hcycles, hissued, htaken, hnotTaken, hjumps]
    omega

end Runs

/-! ## Main statement -/

/-- Known addresses do not matter for what has become of an instruction. -/
theorem Accounted.knowing {journal : List Deed} {state : State} {n codeOrder : Nat}
    {instruction : Instruction} (haccounted : Accounted journal state n codeOrder instruction)
    (addresses : List Int) : Accounted journal (state.knowing addresses) n codeOrder instruction := by
  cases haccounted with
  | steered hcontrol hfree hpublications hcommits =>
      exact .steered hcontrol hfree hpublications hcommits
  | held hcontrol hslot hseq hcodeOrder hunique hpublications hcommits =>
      exact .held hcontrol hslot hseq hcodeOrder hunique hpublications hcommits
  | completed hcontrol hfree hpublications hcommits hwritten =>
      exact .completed hcontrol hfree hpublications hcommits hwritten

/-- In every recorded state of every run on a sound configuration: the next state adds at most one
instruction to the order of fetching and changes nothing of it, every position is accounted for, and the
counters balance; those of the whole run balance with the last state. -/
theorem instructions_accounted {listing : Listing} {configuration : Configuration} {count : Nat}
    {state : State} (hwellFormed : listing.WellFormed) (hsound : configuration.error? = none)
    (hstate : (History.ofListing listing configuration).states[count]? = some state) :
    (∀ next, (History.ofListing listing configuration).states[count + 1]? = some next →
      ∃ fetched, fetched.length ≤ 1 ∧
        next.cursor.executionOrder = state.cursor.executionOrder ++ fetched) ∧
      (∀ n codeOrder, state.cursor.executionOrder[n]? = some codeOrder →
        ∃ instruction, listing.instruction? codeOrder = some instruction ∧
          Accounted ((listing.initialState configuration.stations).journal listing count) state n
            codeOrder instruction) ∧
      (Statistics.ofReports
          ((listing.initialState configuration.stations).reports listing count)).Balanced state
        ((listing.initialState configuration.stations).drained listing count) ∧
      (count + 1 = (History.ofListing listing configuration).states.length →
        (History.ofListing listing configuration).statistics.Balanced state
          ((listing.initialState configuration.stations).drained listing count)) := by
  have hfresh : (listing.initialState configuration.stations).Fresh := Listing.fresh_initialState hsound
  obtain ⟨_, hnow⟩ :=
    State.execution_afterCycles listing (listing.initialState configuration.stations) count
  obtain ⟨addresses, rfl⟩ := History.exists_state hstate
  have hbalanced := Statistics.balanced_ofReports hfresh hwellFormed.closed count
  refine ⟨fun next hnext => ?_, fun n codeOrder hposition => ?_, ?_, fun hlast => ?_⟩
  · obtain ⟨addresses', rfl⟩ := History.exists_state hnext
    exact State.executionOrder_succ hfresh count
  · obtain ⟨instruction, hinstruction, haccounted⟩ :=
      hnow.accounted hfresh rfl hwellFormed hposition
    exact ⟨instruction, hinstruction, haccounted.knowing addresses⟩
  · exact ⟨hbalanced.issued, hbalanced.fetched, hbalanced.cycles⟩
  · have hcount : count = ((listing.initialState configuration.stations).cycles listing
        configuration.maxCycles).length := by
      simpa [History.states, History.ofListing, History.length_frames_ofState] using hlast
    rw [History.ofListing, History.statistics_ofState, ← hcount]
    exact ⟨hbalanced.issued, hbalanced.fetched, hbalanced.cycles⟩

/-- At the end of the loop over a cell the store of the second turn has completed, nine instructions have
entered stations, and two cycles only drained them. -/
theorem instructions_accounted_countdown :
    ∃ state, (History.ofListing Countdown.listing {}).states[20]? = some state ∧
      (∃ instruction, Countdown.listing.instruction? 3 = some instruction ∧
        Accounted ((Countdown.listing.initialState {}).journal Countdown.listing 20) state 8 3
          instruction) ∧
      (History.ofListing Countdown.listing {}).statistics.Balanced state
        ((Countdown.listing.initialState {}).drained Countdown.listing 20) ∧
      (History.ofListing Countdown.listing {}).statistics.issued = 9 ∧
      (Countdown.listing.initialState {}).drained Countdown.listing 20 = 2 := by
  have hwellFormed : Countdown.listing.WellFormed := by decide
  have hsound : Configuration.error? {} = none := by decide
  have hthere : ((History.ofListing Countdown.listing {}).states[20]?.map
      fun state => state.cursor.executionOrder[8]?) = some (some 3) := by decide +kernel
  obtain ⟨state, hstate, hposition⟩ := Option.map_eq_some_iff.mp hthere
  obtain ⟨-, hpositions, -, hwhole⟩ := instructions_accounted hwellFormed hsound hstate
  exact ⟨state, hstate, hpositions 8 3 hposition, hwhole (by decide +kernel), by decide +kernel,
    by decide +kernel⟩

end Tomasulo
