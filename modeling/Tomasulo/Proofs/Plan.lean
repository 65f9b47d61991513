import Tomasulo.Proofs.Task

/-!
# Plans are carried out

A plan is drawn up on the state at the beginning of a cycle, but its tasks are carried out one after the
other on states that earlier tasks have changed.  This module shows that this makes no difference to what
the tasks need: every task of a plan is possible when it is drawn up (`enabled_of_mem_plan`), no two
tasks of a plan want the same station (`pairwise_apart_tasks`), and so each is still possible when its
turn comes (`Execution.underway`).

The stations are assumed to take time, as they do on every sound configuration: a station without
delay could compute an address and publish a result in one cycle.
-/

namespace Tomasulo

variable {listing : Listing} {state : State} {task : Task}

/-! ## Every task of a plan is possible -/

theorem enabled_of_fetch (hfetch : state.fetch listing = .act task) :
    task.Enabled listing state := by
  unfold State.fetch at hfetch
  cases hnext : state.cursor.next? listing with
  | none => simp [hnext] at hfetch
  | some instruction =>
      simp only [hnext] at hfetch
      split at hfetch
      case h_1 target hoperation =>
        obtain rfl := Fetch.act.inj hfetch
        exact ⟨hnext, hoperation⟩
      case h_2 comparison left right target hoperation =>
        split at hfetch
        case h_1 lhs rhs hleft hright =>
          obtain rfl := Fetch.act.inj hfetch
          exact ⟨hnext, left, right, hoperation, Register.value?_eq_some_iff.mp hleft,
            Register.value?_eq_some_iff.mp hright⟩
        case h_2 => exact absurd hfetch (by simp)
      case h_3 hjump hbranch =>
        split at hfetch
        case h_1 id hfree =>
          obtain rfl := Fetch.act.inj hfetch
          refine ⟨hnext, ?_, Pool.freeFor?_spec hfree⟩
          unfold Instruction.isControl
          cases hoperation : instruction.operation with
          | branch comparison left right target =>
              exact absurd hoperation (hbranch comparison left right target)
          | jump target => exact absurd hoperation (hjump target)
          | _ => rfl
        case h_2 => exact absurd hfetch (by simp)

/-- The task of the fetch slot works on no station that is in use. -/
theorem station?_of_fetch (hfetch : state.fetch listing = .act task) : task.station? = none := by
  unfold State.fetch at hfetch
  split at hfetch
  case h_1 => exact Fetch.noConfusion hfetch
  case h_2 =>
    split at hfetch
    case h_1 =>
      obtain rfl := Fetch.act.inj hfetch
      rfl
    case h_2 =>
      split at hfetch
      case h_1 =>
        obtain rfl := Fetch.act.inj hfetch
        rfl
      case h_2 => exact Fetch.noConfusion hfetch
    case h_3 =>
      split at hfetch
      case h_1 =>
        obtain rfl := Fetch.act.inj hfetch
        rfl
      case h_2 => exact Fetch.noConfusion hfetch

/-- A station whose content satisfies the condition of a phase suits the task of the phase. -/
theorem enabled_of_mem_occupied {entry : Occupied} (hentry : entry ∈ state.stations.occupied)
    (hstation : task.station? = some entry.id)
    (hsuits : entry.slot.Suits entry.station.delay task) : task.Enabled listing state := by
  rw [Task.enabled_iff hstation]
  refine ⟨entry.slot, Pool.slot?_of_mem_occupied hentry, ?_⟩
  rwa [Pool.delay_of_mem_occupied hentry]

theorem Occupied.suits_compute {entry : Occupied} (hcomputes : entry.computes = true) :
    entry.slot.Suits entry.station.delay (.compute entry.id) := by
  unfold computes at hcomputes
  split at hcomputes
  case h_1 op hop =>
    simp only [Bool.and_eq_true, decide_eq_true_eq] at hcomputes
    obtain ⟨⟨⟨hj, hk⟩, hpositive⟩, hdelay⟩ := hcomputes
    obtain ⟨lhs, hj⟩ := Operand.isReady_iff.mp hj
    obtain ⟨rhs, hk⟩ := Operand.isReady_iff.mp hk
    exact ⟨⟨op, lhs, rhs, hop, hj, hk⟩, hpositive, hdelay⟩
  case h_2 => exact absurd hcomputes (by simp)

theorem Occupied.locates_iff_suits {entry : Occupied} :
    entry.locates = true ↔ entry.slot.Suits entry.station.delay (.locate entry.id) := by
  simp only [locates, Slot.Suits, Slot.isLoad, Slot.isStore, Bool.and_eq_true, Bool.or_eq_true,
    beq_iff_eq, Option.isNone_iff_eq_none, Operand.isReady_iff, and_assoc]

theorem Occupied.suits_load {pool : Pool} {entry : Occupied} (hloads : entry.loads pool = true) :
    entry.slot.Suits entry.station.delay (.load entry.id) := by
  simp only [loads, Slot.isLoad, Bool.and_eq_true, beq_iff_eq, decide_eq_true_eq,
    Option.isNone_iff_eq_none, Option.isSome_iff_exists] at hloads
  obtain ⟨⟨⟨⟨hop, haddress⟩, hstep⟩, hresult⟩, -⟩ := hloads
  exact ⟨hop, haddress, hstep, hresult⟩

theorem Occupied.suits_publish {entry : Occupied} (hpublishes : entry.publishes = true) :
    entry.slot.Suits entry.station.delay (.publish entry.id) := by
  simp only [publishes, Slot.isStore, Bool.and_eq_true, Bool.not_eq_true', beq_eq_false_iff_ne,
    beq_iff_eq, Option.isSome_iff_exists] at hpublishes
  obtain ⟨⟨hop, hstep⟩, hresult⟩ := hpublishes
  exact ⟨hop, hstep, hresult⟩

theorem Occupied.suits_commit {pool : Pool} {entry : Occupied} (hcommits : entry.commits pool = true) :
    entry.slot.Suits entry.station.delay (.commit entry.id) := by
  simp only [commits, Slot.isStore, Bool.and_eq_true, beq_iff_eq, decide_eq_true_eq,
    Option.isSome_iff_exists] at hcommits
  obtain ⟨⟨⟨⟨hop, haddress⟩, hstep⟩, hk⟩, -⟩ := hcommits
  exact ⟨hop, haddress, hstep, Operand.isReady_iff.mp hk⟩

/-- What it means that a task belongs to a plan, phase by phase. -/
theorem mem_tasks_iff {plan : Plan} :
    task ∈ plan.tasks ↔
      plan.fetch = .act task ∨ (∃ id ∈ plan.computes, task = .compute id) ∨
        (∃ id, plan.locates = some id ∧ task = .locate id) ∨
        (∃ id ∈ plan.loads, task = .load id) ∨
        (∃ id, plan.publishes = some id ∧ task = .publish id) ∨
        ∃ id ∈ plan.commits, task = .commit id := by
  have hfetch : plan.fetchTask? = some task ↔ plan.fetch = .act task := by
    unfold Plan.fetchTask?
    cases plan.fetch <;> simp
  simp [Plan.tasks, hfetch, eq_comm]

/-- Every task of a plan is possible on the state on which the plan was drawn up. -/
theorem enabled_of_mem_plan (htask : task ∈ (state.plan listing).tasks) :
    task.Enabled listing state := by
  rcases mem_tasks_iff.mp htask with hfetch | ⟨id, hid, rfl⟩ | ⟨id, hid, rfl⟩ | ⟨id, hid, rfl⟩ |
    ⟨id, hid, rfl⟩ | ⟨id, hid, rfl⟩
  · exact enabled_of_fetch hfetch
  · obtain ⟨entry, hentry, rfl, hholds⟩ := Pool.mem_byAge_iff.mp hid
    exact enabled_of_mem_occupied hentry rfl (Occupied.suits_compute hholds)
  · obtain ⟨entry, hentry, rfl, hholds, -⟩ := Pool.head?_byAge hid
    exact enabled_of_mem_occupied hentry rfl (Occupied.locates_iff_suits.mp hholds)
  · obtain ⟨entry, hentry, rfl, hholds⟩ := Pool.mem_byAge_iff.mp hid
    exact enabled_of_mem_occupied hentry rfl (Occupied.suits_load hholds)
  · obtain ⟨entry, hentry, rfl, hholds, -⟩ := Pool.head?_byAge hid
    exact enabled_of_mem_occupied hentry rfl (Occupied.suits_publish hholds)
  · obtain ⟨entry, hentry, rfl, hholds⟩ := Pool.mem_byAge_iff.mp hid
    exact enabled_of_mem_occupied hentry rfl (Occupied.suits_commit hholds)

/-- The tasks of a plan behind that of the fetch slot. -/
def Plan.stationTasks (plan : Plan) : List Task :=
  plan.computes.map .compute ++ plan.locates.toList.map .locate ++ plan.loads.map .load ++
    plan.publishes.toList.map .publish ++ plan.commits.map .commit

theorem Plan.mem_fetchTask?_iff {plan : Plan} :
    task ∈ plan.fetchTask?.toList ↔ plan.fetch = .act task := by
  unfold fetchTask?
  cases plan.fetch <;> simp [eq_comm]

theorem Plan.tasks_eq (plan : Plan) : plan.tasks = plan.fetchTask?.toList ++ plan.stationTasks := by
  simp [tasks, stationTasks]

theorem Plan.station?_of_mem {plan : Plan} (htask : task ∈ plan.stationTasks) :
    ∃ id, task.station? = some id := by
  simp only [stationTasks, List.mem_append, List.mem_map] at htask
  rcases htask with (((⟨id, -, rfl⟩ | ⟨id, -, rfl⟩) | ⟨id, -, rfl⟩) | ⟨id, -, rfl⟩) | ⟨id, -, rfl⟩ <;>
    exact ⟨id, rfl⟩

theorem mem_stationTasks (htask : task ∈ (state.plan listing).tasks) {id : Nat}
    (hstation : task.station? = some id) : task ∈ (state.plan listing).stationTasks := by
  rw [Plan.tasks_eq] at htask
  rcases List.mem_append.mp htask with hfetch | hlater
  · have hnone := station?_of_fetch (Plan.mem_fetchTask?_iff.mp hfetch)
    exact absurd (hnone.symm.trans hstation) (by simp)
  · exact hlater

/-- A load is planned only if no older store is in its way. -/
theorem loadBlocked_eq_false_of_mem_plan {id : Nat} (htask : .load id ∈ (state.plan listing).tasks) :
    state.stations.loadBlocked id = false := by
  have hid : id ∈ (state.plan listing).loads := by
    simpa [Plan.stationTasks] using mem_stationTasks htask rfl
  obtain ⟨entry, -, rfl, hholds⟩ := Pool.mem_byAge_iff.mp hid
  simp only [Occupied.loads, Bool.and_eq_true, Bool.not_eq_true'] at hholds
  exact hholds.2

/-- A store is planned to write only if no older load or store is in its way. -/
theorem storeBlocked_eq_false_of_mem_plan {id : Nat}
    (htask : .commit id ∈ (state.plan listing).tasks) : state.stations.storeBlocked id = false := by
  have hid : id ∈ (state.plan listing).commits := by
    simpa [Plan.stationTasks] using mem_stationTasks htask rfl
  obtain ⟨entry, -, rfl, hholds⟩ := Pool.mem_byAge_iff.mp hid
  simp only [Occupied.commits, Bool.and_eq_true, Bool.not_eq_true'] at hholds
  exact hholds.2

/-- The address that is computed in a cycle is that of the oldest load or store that could compute one. -/
theorem seq_le_of_locate_mem_plan {id other : Nat} {slot rival : Slot}
    (htask : .locate id ∈ (state.plan listing).tasks) (hslot : state.stations.slot? id = some slot)
    (hrival : state.stations.slot? other = some rival)
    (hsuits : rival.Suits (state.stations.delay other) (.locate other)) : slot.seq ≤ rival.seq := by
  have hid : (state.plan listing).locates = some id := by
    simpa [Plan.stationTasks] using mem_stationTasks htask rfl
  obtain ⟨entry, hentry, rfl, -, hfirst⟩ := Pool.head?_byAge hid
  obtain ⟨candidate, hcandidate, rfl, rfl⟩ := Pool.exists_occupied_of_slot? hrival
  obtain rfl := Option.some.inj (hslot.symm.trans (Pool.slot?_of_mem_occupied hentry))
  rw [Pool.delay_of_mem_occupied hcandidate] at hsuits
  exact hfirst candidate hcandidate (Occupied.locates_iff_suits.mpr hsuits)

/-! ## The tasks of a plan keep apart -/

theorem nodup_stationTasks : (state.plan listing).stationTasks.Nodup := by
  have hcomputes : (List.map Task.compute _).Nodup :=
    (state.stations.nodup_byAge Occupied.computes).map fun _ _ h => Task.compute.inj h
  have hloads : (List.map Task.load _).Nodup :=
    (state.stations.nodup_byAge (Occupied.loads state.stations)).map fun _ _ h => Task.load.inj h
  have hcommits : (List.map Task.commit _).Nodup :=
    (state.stations.nodup_byAge (Occupied.commits state.stations)).map fun _ _ h => Task.commit.inj h
  have hoption (choice : Option Nat) (phase : Nat → Task) : (choice.toList.map phase).Nodup := by
    cases choice <;> simp
  unfold Plan.stationTasks State.plan
  simp only [List.nodup_append]
  refine ⟨⟨⟨⟨hcomputes, hoption _ _, ?_⟩, hloads, ?_⟩, hoption _ _, ?_⟩, hcommits, ?_⟩ <;>
    -- Tasks of different phases differ by their constructor.
    · intro a ha b hb hsame
      simp only [List.mem_append, List.mem_map] at ha hb
      grind

/-- Two tasks of a plan never want the same station. -/
theorem pairwise_apart_tasks
    (hdelays : ∀ id < state.stations.length, 0 < state.stations.delay id) :
    (state.plan listing).tasks.Pairwise Task.Apart := by
  rw [Plan.tasks_eq]
  have hmem {task : Task} (htask : task ∈ (state.plan listing).stationTasks) :
      task ∈ (state.plan listing).tasks := by
    rw [Plan.tasks_eq]
    exact List.mem_append_right _ htask
  refine List.pairwise_append.mpr ⟨?_, ?_, ?_⟩
  · cases (state.plan listing).fetchTask? <;> simp
  -- Two station tasks on one station would be the same task.
  · refine nodup_stationTasks.imp_of_mem fun {earlier later} hearlier hlater hne => ?_
    obtain ⟨id, hid⟩ := Plan.station?_of_mem hlater
    refine ⟨id, hid, fun hsite => hne ?_⟩
    have hid' : earlier.station? = some id := by
      obtain ⟨site, hstation⟩ := Plan.station?_of_mem hearlier
      rw [hstation, ← Task.site?_eq hstation, hsite]
    obtain ⟨slot, hslot, hsuits⟩ := (Task.enabled_iff hid).mp (enabled_of_mem_plan (hmem hlater))
    obtain ⟨_, hslot', hsuits'⟩ := (Task.enabled_iff hid').mp (enabled_of_mem_plan (hmem hearlier))
    obtain rfl := Option.some.inj (hslot.symm.trans hslot')
    exact hsuits'.unique (hdelays id (Pool.lt_length_of_slot? hslot)) hsuits hid' hid
  · intro fetch hfetch later hlater
    obtain ⟨id, hid⟩ := Plan.station?_of_mem hlater
    refine ⟨id, hid, fun hsite => ?_⟩
    obtain ⟨slot, hslot, -⟩ := (Task.enabled_iff hid).mp (enabled_of_mem_plan (hmem hlater))
    -- The station that an issue fills is free, that of a station task is not.
    have henabled : fetch.Enabled listing state := by
      refine enabled_of_mem_plan ?_
      rw [Plan.tasks_eq]
      exact List.mem_append_left _ hfetch
    cases fetch with
    | issue instruction site =>
        obtain rfl := Option.some.inj hsite
        obtain ⟨-, -, station, hstation, hfree, -⟩ := henabled
        simp [Pool.slot?, hstation, hfree] at hslot
    | _ =>
        refine absurd hsite ?_
        have hstation : Task.station? _ = none := station?_of_fetch (Plan.mem_fetchTask?_iff.mp hfetch)
        simp_all [Task.site?, Task.station?]

/-! ## Each task is still possible when its turn comes -/

/-- Whether a slot holds the same instruction as before, at the same point of its work. -/
def Slot.Resembles (slot old : Slot) : Prop :=
  slot.seq = old.seq ∧ slot.op = old.op ∧ slot.address = old.address

/-- The tasks of a plan that are still to be carried out: planned, possible, and apart.  Their stations
are as they were when the plan was drawn up. -/
structure Underway (listing : Listing) (frozen state : State) (todo : List Task) : Prop where
  planned : ∀ task ∈ todo, task ∈ (frozen.plan listing).tasks
  enabled : ∀ task ∈ todo, task.Enabled listing state
  apart : todo.Pairwise Task.Apart
  delays : ∀ id < state.stations.length, 0 < state.stations.delay id
  advanced : state.cursor.Extends frozen.cursor
  kept : ∀ task ∈ todo, ∀ id slot, task.station? = some id →
    state.stations.slot? id = some slot →
      ∃ old, frozen.stations.slot? id = some old ∧ slot.Resembles old

theorem Underway.begin (hdelays : ∀ id < state.stations.length, 0 < state.stations.delay id) :
    Underway listing state state (state.plan listing).tasks where
  planned _ htask := htask
  enabled _ htask := enabled_of_mem_plan htask
  apart := pairwise_apart_tasks hdelays
  delays := hdelays
  advanced := Cursor.Extends.refl _
  kept _ _ _ slot _ hslot := ⟨slot, hslot, rfl, rfl, rfl⟩

variable {frozen after : State} {todo : List Task} {event : Event}

theorem Underway.pass (hnow : Underway listing frozen state (task :: todo)) :
    Underway listing frozen state todo where
  planned other hother := hnow.planned other (List.mem_cons_of_mem _ hother)
  enabled other hother := hnow.enabled other (List.mem_cons_of_mem _ hother)
  apart := (List.pairwise_cons.mp hnow.apart).2
  delays := hnow.delays
  advanced := hnow.advanced
  kept other hother := hnow.kept other (List.mem_cons_of_mem _ hother)

theorem Underway.change (hnow : Underway listing frozen state (task :: todo))
    (hperform : task.perform listing state = some (event, after)) :
    Change listing state task event after :=
  change_of_perform (hnow.enabled task (List.mem_cons_self ..)) hperform

theorem Underway.act (hnow : Underway listing frozen state (task :: todo))
    (hperform : task.perform listing state = some (event, after)) :
    Underway listing frozen (after.note event.codeOrder event.action) todo where
  planned := hnow.pass.planned
  enabled other hother := by
    have hapart := (List.pairwise_cons.mp hnow.apart).1 other hother
    have henabled := (hnow.change hperform).enabled hapart (hnow.pass.enabled other hother)
    cases other <;> exact henabled
  apart := hnow.pass.apart
  delays id hbound := by
    have hchange := hnow.change hperform
    have hbefore : id < state.stations.length := hchange.length ▸ hbound
    exact (hchange.delay id).symm ▸ hnow.delays id hbefore
  advanced := Cursor.Extends.trans (hnow.change hperform).extends hnow.advanced
  kept other hother id slot hstation hslot := by
    obtain ⟨site, hsite, hapart⟩ := (List.pairwise_cons.mp hnow.apart).1 other hother
    obtain rfl := Option.some.inj (hstation.symm.trans hsite)
    have hkept := hnow.kept other (List.mem_cons_of_mem _ hother) id
    -- The station is apart from that of the task, so at most it has received a value.
    rcases (hnow.change hperform).slot?_of_ne hapart with hsame | ⟨producer, value, hsame⟩
    · exact hkept slot hstation (hsame.symm.trans hslot)
    · obtain ⟨held, hheld, rfl⟩ := Option.map_eq_some_iff.mp (hsame.symm.trans hslot)
      exact hkept held hstation hheld

theorem Execution.underway {initial : State} {journal : List Deed}
    (hnow : Execution listing initial frozen journal state todo)
    (hdelays : ∀ id < initial.stations.length, 0 < initial.stations.delay id) :
    Underway listing frozen state todo := by
  induction hnow with
  | start => exact ⟨by simp, by simp, .nil, hdelays, Cursor.Extends.refl _, by simp⟩
  | tick _ ih =>
      refine Underway.begin fun id hbound => ?_
      have hpositive := ih.delays id (by simpa [State.tick] using hbound)
      simpa [State.tick] using hpositive
  | pass _ _ ih => exact ih.pass
  | act _ hperform ih => exact ih.act hperform

end Tomasulo
