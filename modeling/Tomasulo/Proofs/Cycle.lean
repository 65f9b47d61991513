import Tomasulo.Proofs.Dataflow

/-!
# What a cycle leaves out

`Proofs/Plan` shows that what is planned is possible and stays so.  This module gives the converses that
progress and cycle counts rest on:

* what a station could do is planned, unless a guard stands in its way or another station comes first
  at the address unit or on the bus (`compute_mem_plan`, `tasks_ne_nil_of_suits`);
* every task of a plan is carried out, in the order of the plan (`Execution.tasks_deeds`), and each
  instruction acts at most once in a cycle (`Execution.pairwise_seq_deeds`);
* after a quiet cycle all cycles are quiet (`State.quiet_cycleOnce`).
-/

namespace Tomasulo

/-! ## What is planned -/

/-- Among stations that satisfy a condition one comes first by age. -/
theorem Pool.exists_head?_byAge {pool : Pool} {condition : Occupied → Bool} {entry : Occupied}
    (hentry : entry ∈ pool.occupied) (hholds : condition entry = true) :
    ∃ id, (pool.byAge condition).head? = some id := by
  have hmem : entry.id ∈ pool.byAge condition := mem_byAge_iff.mpr ⟨entry, hentry, rfl, hholds⟩
  cases hlist : pool.byAge condition with
  | nil => simp [hlist] at hmem
  | cons first rest => exact ⟨first, rfl⟩

/-- A class without a free station has no station at all that is free for it. -/
theorem Pool.freeFor?_eq_none_iff {pool : Pool} {opClass : OpClass} :
    pool.freeFor? opClass = none ↔
      ∀ station ∈ pool, station.slot = none → station.stationClass.accepts opClass = false := by
  unfold freeFor?
  simp [List.findIdx?_eq_none_iff, Station.isBusy]

/-- Whether a memory guard stands in the way of a task. -/
def State.Guarded (state : State) : Task → Prop
  | .load id => state.stations.loadBlocked id = true
  | .commit id => state.stations.storeBlocked id = true
  | _ => False

section Planned

variable {listing : Listing} {state : State} {task : Task} {id : Nat} {slot : Slot}

theorem Plan.mem_tasks_of_station {plan : Plan} (htask : task ∈ plan.stationTasks) :
    task ∈ plan.tasks := by
  rw [Plan.tasks_eq]
  exact List.mem_append_right _ htask

/-- Arithmetic that could go on is planned. -/
theorem compute_mem_plan (hslot : state.stations.slot? id = some slot)
    (hsuits : slot.Suits (state.stations.delay id) (.compute id)) :
    .compute id ∈ (state.plan listing).tasks := by
  obtain ⟨entry, hentry, rfl, rfl⟩ := Pool.exists_occupied_of_slot? hslot
  rw [Pool.delay_of_mem_occupied hentry] at hsuits
  obtain ⟨⟨op, lhs, rhs, hop, hj, hk⟩, hpositive, hdelay⟩ := hsuits
  have hcomputes : entry.computes = true := by
    simp [Occupied.computes, hop, hj, hk, Operand.isReady, hpositive, hdelay]
  have hid : entry.id ∈ (state.plan listing).computes :=
    Pool.mem_byAge_iff.mpr ⟨entry, hentry, rfl, hcomputes⟩
  exact Plan.mem_tasks_of_station (by simpa [Plan.stationTasks] using hid)

theorem load_mem_plan (hslot : state.stations.slot? id = some slot)
    (hsuits : slot.Suits (state.stations.delay id) (.load id))
    (hfree : state.stations.loadBlocked id = false) : .load id ∈ (state.plan listing).tasks := by
  obtain ⟨entry, hentry, rfl, rfl⟩ := Pool.exists_occupied_of_slot? hslot
  rw [Pool.delay_of_mem_occupied hentry] at hsuits
  obtain ⟨hop, ⟨address, haddress⟩, hstep, hresult⟩ := hsuits
  have hloads : entry.loads state.stations = true := by
    simp [Occupied.loads, Slot.isLoad, hop, haddress, hstep, hresult, hfree]
  have hid : entry.id ∈ (state.plan listing).loads :=
    Pool.mem_byAge_iff.mpr ⟨entry, hentry, rfl, hloads⟩
  exact Plan.mem_tasks_of_station (by simpa [Plan.stationTasks] using hid)

theorem commit_mem_plan (hslot : state.stations.slot? id = some slot)
    (hsuits : slot.Suits (state.stations.delay id) (.commit id))
    (hfree : state.stations.storeBlocked id = false) : .commit id ∈ (state.plan listing).tasks := by
  obtain ⟨entry, hentry, rfl, rfl⟩ := Pool.exists_occupied_of_slot? hslot
  rw [Pool.delay_of_mem_occupied hentry] at hsuits
  obtain ⟨hop, ⟨address, haddress⟩, hstep, value, hk⟩ := hsuits
  have hcommits : entry.commits state.stations = true := by
    simp [Occupied.commits, Slot.isStore, hop, haddress, hstep, hk, Operand.isReady, hfree]
  have hid : entry.id ∈ (state.plan listing).commits :=
    Pool.mem_byAge_iff.mpr ⟨entry, hentry, rfl, hcommits⟩
  exact Plan.mem_tasks_of_station (by simpa [Plan.stationTasks] using hid)

/-- As long as some station could compute an address, one is computed. -/
theorem exists_locate_mem_plan (hslot : state.stations.slot? id = some slot)
    (hsuits : slot.Suits (state.stations.delay id) (.locate id)) :
    ∃ other, .locate other ∈ (state.plan listing).tasks := by
  obtain ⟨entry, hentry, rfl, rfl⟩ := Pool.exists_occupied_of_slot? hslot
  rw [Pool.delay_of_mem_occupied hentry] at hsuits
  obtain ⟨other, hother⟩ := Pool.exists_head?_byAge hentry (Occupied.locates_iff_suits.mpr hsuits)
  have hid : (state.plan listing).locates = some other := hother
  exact ⟨other, Plan.mem_tasks_of_station (by simpa [Plan.stationTasks] using hid)⟩

/-- As long as some result waits for the bus, one is published. -/
theorem exists_publish_mem_plan (hslot : state.stations.slot? id = some slot)
    (hsuits : slot.Suits (state.stations.delay id) (.publish id)) :
    ∃ other, .publish other ∈ (state.plan listing).tasks := by
  obtain ⟨entry, hentry, rfl, rfl⟩ := Pool.exists_occupied_of_slot? hslot
  obtain ⟨hop, hstep, value, hresult⟩ := hsuits
  have hpublishes : entry.publishes = true := by
    simp [Occupied.publishes, Slot.isStore, hop, hstep, hresult]
  obtain ⟨other, hother⟩ := Pool.exists_head?_byAge hentry hpublishes
  have hid : (state.plan listing).publishes = some other := hother
  exact ⟨other, Plan.mem_tasks_of_station (by simpa [Plan.stationTasks] using hid)⟩

/-- A station that could go on keeps the cycle busy, unless a guard stands in its way. -/
theorem tasks_ne_nil_of_suits (hslot : state.stations.slot? id = some slot)
    (hstation : task.station? = some id) (hsuits : slot.Suits (state.stations.delay id) task)
    (hfree : ¬ state.Guarded task) : (state.plan listing).tasks ≠ [] := by
  suffices hmem : ∃ other : Task, other ∈ (state.plan listing).tasks by
    obtain ⟨other, hother⟩ := hmem
    exact List.ne_nil_of_mem hother
  cases task with
  | compute site =>
      obtain rfl := Option.some.inj hstation
      exact ⟨_, compute_mem_plan hslot hsuits⟩
  | locate site =>
      obtain rfl := Option.some.inj hstation
      obtain ⟨other, hother⟩ : ∃ other, .locate other ∈ (state.plan listing).tasks :=
        exists_locate_mem_plan hslot hsuits
      exact ⟨_, hother⟩
  | load site =>
      obtain rfl := Option.some.inj hstation
      exact ⟨_, load_mem_plan hslot hsuits (Bool.eq_false_iff.mpr hfree)⟩
  | publish site =>
      obtain rfl := Option.some.inj hstation
      obtain ⟨other, hother⟩ : ∃ other, .publish other ∈ (state.plan listing).tasks :=
        exists_publish_mem_plan hslot hsuits
      exact ⟨_, hother⟩
  | commit site =>
      obtain rfl := Option.some.inj hstation
      exact ⟨_, commit_mem_plan hslot hsuits (Bool.eq_false_iff.mpr hfree)⟩
  | issue _ _ => exact hsuits.elim
  | branch _ _ _ _ _ => exact hsuits.elim
  | jump _ _ => exact hsuits.elim

/-- The fetch slot is exhausted exactly if there is no next instruction. -/
theorem State.fetch_eq_exhausted_iff :
    state.fetch listing = .exhausted ↔ state.cursor.next? listing = none := by
  unfold State.fetch
  cases state.cursor.next? listing with
  | none => simp
  | some instruction =>
      simp only [reduceCtorEq, iff_false]
      split
      case h_1 => simp
      all_goals split <;> simp

theorem tasks_ne_nil_of_fetch (hfetch : state.fetch listing = .act task) :
    (state.plan listing).tasks ≠ [] :=
  List.ne_nil_of_mem (mem_tasks_iff.mpr (.inl hfetch))

end Planned

/-! ## What is planned is carried out -/

section Performed

variable {listing : Listing} {initial frozen state : State} {journal : List Deed}
  {task : Task} {todo : List Task}

theorem Slot.exists_capture? {instruction : Instruction} (hcontrol : instruction.isControl = false)
    (registers : RegisterFile) (seq delay : Nat) :
    ∃ slot, Slot.capture? registers instruction seq delay = some slot := by
  obtain ⟨line, mnemonic, codeOrder, operation⟩ := instruction
  cases operation with
  | branch comparison lhs rhs target => exact absurd hcontrol (by simp [Instruction.isControl,
      Operation.isControl])
  | jump target => exact absurd hcontrol (by simp [Instruction.isControl, Operation.isControl])
  | _ => exact ⟨_, rfl⟩

/-- A load or store either has not begun, or has an address and has begun. -/
theorem Slot.Fits.symbolic_or_effective {instruction : Instruction} {delay : Nat} {slot : Slot}
    (hfits : slot.Fits instruction delay) (hop : slot.op = .load ∨ slot.op = .store) :
    (slot.effective? = none ∧ slot.step = delay ∧
        ∃ base offset, slot.address = some (.symbolic base offset)) ∨
      (∃ address, slot.effective? = some address) ∧ slot.step < delay := by
  obtain ⟨base, offset, -, ⟨haddress, hstep⟩ | ⟨hstep, _, -, haddress⟩⟩ := hfits.accessing hop
  · exact .inl ⟨by simp [Slot.effective?, haddress, Address.effective?], hstep, base, offset, haddress⟩
  · exact .inr ⟨⟨_, by rw [Slot.effective?, haddress]; rfl⟩, hstep⟩

theorem Slot.Fits.computing {instruction : Instruction} {delay : Nat} {slot : Slot}
    (hfits : slot.Fits instruction delay) {op : AluOp}
    (hop : slot.op = .alu op) : slot.Computing op delay := by
  have hshaped := hfits.shaped
  have hsame {other : AluOp} (hcomputing : slot.Computing other delay) : slot.Computing op delay := by
    obtain rfl : op = other := StationOp.alu.inj (hop.symm.trans hcomputing.op_eq)
    exact hcomputing
  cases hoperation : instruction.operation <;> rw [hoperation] at hshaped
  case load => exact absurd (hop.symm.trans hshaped.1) (by simp)
  case store => exact absurd (hop.symm.trans hshaped.1) (by simp)
  case loadImmediate => exact hsame hshaped.2.2
  case arithmetic => exact hsame hshaped
  case arithmeticImmediate => exact hsame hshaped.2
  case branch => exact hshaped.elim
  case jump => exact hshaped.elim

theorem Slot.Fits.result_of_load {instruction : Instruction} {delay : Nat} {slot : Slot}
    (hfits : slot.Fits instruction delay) (hop : slot.op = .load)
    (hresult : slot.result.isSome = true) : slot.step = 0 := by
  obtain ⟨dest, base, offset, hoperation⟩ := hfits.exists_load hop
  have hshaped := hfits.shaped
  rw [hoperation] at hshaped
  exact hshaped.2.2.2.1 hresult

/-- A task that is possible does something. -/
theorem Task.Enabled.exists_perform (henabled : task.Enabled listing state)
    (hlife : Lifecycle listing state) :
    ∃ event after, task.perform listing state = some (event, after) := by
  suffices hsome : (task.perform listing state).isSome = true by
    obtain ⟨⟨event, after⟩, hperform⟩ := Option.isSome_iff_exists.mp hsome
    exact ⟨event, after, hperform⟩
  cases task with
  | issue instruction id =>
      obtain ⟨-, hcontrol, station, hstation, -⟩ := henabled
      obtain ⟨slot, hslot⟩ :=
        Slot.exists_capture? hcontrol state.registers state.cursor.fetched station.delay
      simp [Task.perform, State.issue, hstation, hslot]
  | branch instruction comparison lhs rhs target => rfl
  | jump instruction target => rfl
  | compute id =>
      obtain ⟨slot, hslot, ⟨op, lhs, rhs, hop, hj, hk⟩, -⟩ := (Task.enabled_iff rfl).mp henabled
      obtain ⟨station, hstation, hheld⟩ := Pool.slot?_eq_some_iff.mp hslot
      simp only [Task.perform, State.compute, hstation, hheld, hop, hj, hk, Option.bind_eq_bind,
        Option.bind_some]
      split <;> rfl
  | locate id =>
      obtain ⟨slot, hslot, hop, -, hnone, baseValue, hj⟩ := (Task.enabled_iff rfl).mp henabled
      obtain ⟨instruction, -, hfits⟩ := hlife.fits id slot hslot
      obtain ⟨station, hstation, hheld⟩ := Pool.slot?_eq_some_iff.mp hslot
      rcases hfits.symbolic_or_effective hop with ⟨-, -, base, offset, haddress⟩ | ⟨⟨_, hsome⟩, -⟩
      · simp [Task.perform, State.locate, hstation, hheld, hj, haddress]
      · exact absurd (hnone.symm.trans hsome) (by simp)
  | load id =>
      obtain ⟨slot, hslot, -, ⟨address, haddress⟩, -⟩ := (Task.enabled_iff rfl).mp henabled
      obtain ⟨station, hstation, hheld⟩ := Pool.slot?_eq_some_iff.mp hslot
      simp only [Task.perform, State.load, hstation, hheld, haddress, Option.bind_eq_bind,
        Option.bind_some]
      split <;> rfl
  | publish id =>
      obtain ⟨slot, hslot, -, -, value, hvalue⟩ := (Task.enabled_iff rfl).mp henabled
      obtain ⟨station, hstation, hheld⟩ := Pool.slot?_eq_some_iff.mp hslot
      simp [Task.perform, State.publish, hstation, hheld, hvalue]
  | commit id =>
      obtain ⟨slot, hslot, -, ⟨address, haddress⟩, -, value, hk⟩ := (Task.enabled_iff rfl).mp henabled
      obtain ⟨station, hstation, hheld⟩ := Pool.slot?_eq_some_iff.mp hslot
      simp only [Task.perform, State.commit, hstation, hheld, haddress, hk, Operand.value?,
        Option.bind_eq_bind, Option.bind_some]
      split <;> rfl

variable (hnow : Execution listing initial frozen journal state todo) (hstart : initial.InStep listing)

include hnow hstart

/-- Every task that is still to be carried out leaves a deed. -/
theorem Execution.tasks_deeds : (deedsFrom listing todo state).map Deed.task = todo := by
  induction todo generalizing state journal with
  | nil => rfl
  | cons task todo ih =>
      have henabled := (hnow.underway hstart.delays).enabled task (List.mem_cons_self ..)
      obtain ⟨event, after, hperform⟩ := henabled.exists_perform (hnow.inStep hstart).lifecycle
      rw [deedsFrom, hperform]
      simp only [List.map_cons, List.cons.injEq, true_and]
      exact ih (hnow.act hperform)

/-- A deed of the present cycle is about an instruction that its station held when the plan was drawn
up, or about one that has been fetched since then. -/
theorem Execution.seq_of_deed {deed : Deed} (hdeed : deed ∈ deedsFrom listing todo state) :
    (∃ id old, deed.task.station? = some id ∧ frozen.stations.slot? id = some old ∧
      deed.seq = old.seq) ∨
      deed.task.station? = none ∧ frozen.cursor.fetched ≤ deed.seq := by
  obtain ⟨done, later, hdeeds⟩ := List.append_of_mem hdeed
  obtain ⟨rest, hthen, -⟩ := hnow.deeds hdeeds
  have hunderway := hthen.underway hstart.delays
  cases hstation : deed.task.station? with
  | none =>
      refine .inr ⟨rfl, ?_⟩
      rw [Deed.seq_of_fetch hstation]
      exact hunderway.advanced.fetched_le
  | some id =>
      have henabled := hunderway.enabled deed.task (List.mem_cons_self ..)
      obtain ⟨slot, hslot, -⟩ := (Task.enabled_iff hstation).mp henabled
      obtain ⟨old, hold, hseq, -⟩ :=
        hunderway.kept deed.task (List.mem_cons_self ..) id slot hstation hslot
      exact .inl ⟨id, old, rfl, hold, (Deed.seq_of_station hstation hslot).trans hseq⟩

/-- Each instruction acts at most once in a cycle. -/
theorem Execution.pairwise_seq_deeds :
    (deedsFrom listing todo state).Pairwise fun earlier later => earlier.seq ≠ later.seq := by
  have happart := (hnow.underway hstart.delays).apart
  rw [← hnow.tasks_deeds hstart, List.pairwise_map] at happart
  obtain ⟨before, done, tasks, -, hbegun⟩ := hnow.begun
  have hlife := (hbegun.inStep hstart).lifecycle
  refine happart.imp_of_mem fun {earlier later} hearlier hlater hapart hsame => ?_
  obtain ⟨id, hstation, hother⟩ := hapart
  rcases hnow.seq_of_deed hstart hlater with ⟨site, old, hsite, hold, hseq⟩ | ⟨hnone, -⟩
  · obtain rfl := Option.some.inj (hstation.symm.trans hsite)
    rcases hnow.seq_of_deed hstart hearlier with ⟨site', old', hsite', hold', hseq'⟩ | ⟨-, hle⟩
    · -- Two stations never held the same instruction.
      obtain rfl := hlife.distinct site' id old' old hold' hold (by omega)
      exact hother (Task.site?_eq hsite')
    · have hlt := hlife.seq_lt hold
      omega
  · exact absurd (hstation.symm.trans hnone) (by simp)

end Performed

/-! ## Quiet cycles -/

section Quiet

variable {listing : Listing} {state : State}

theorem progressed_eq_false_iff :
    (state.cycleOnce listing).report.progressed = false ↔ (state.tick.plan listing).tasks = [] := by
  simp [State.cycleOnce]

theorem Pool.rest_rest (pool : Pool) : pool.rest.rest = pool.rest := by
  simp [rest]

theorem plan_tick_tick : state.tick.tick.plan listing = state.tick.plan listing := by
  simp only [State.plan, State.fetch, State.tick, Pool.rest_rest]

/-- A quiet cycle does nothing. -/
theorem State.deeds_of_quiet (hquiet : (state.cycleOnce listing).report.progressed = false) :
    state.deeds listing = [] := by
  unfold State.deeds
  rw [progressed_eq_false_iff.mp hquiet]
  rfl

theorem State.cycleOnce_of_quiet (hquiet : (state.cycleOnce listing).report.progressed = false) :
    (state.cycleOnce listing).state = state.tick := by
  rw [state_cycleOnce, State.deeds_of_quiet hquiet, stateAfter_nil]

/-- After a quiet cycle all cycles are quiet. -/
theorem State.quiet_cycleOnce (hquiet : (state.cycleOnce listing).report.progressed = false) :
    ((state.cycleOnce listing).state.cycleOnce listing).report.progressed = false := by
  rw [State.cycleOnce_of_quiet hquiet, progressed_eq_false_iff, plan_tick_tick]
  exact progressed_eq_false_iff.mp hquiet

end Quiet

end Tomasulo
