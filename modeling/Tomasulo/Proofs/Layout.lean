import Tomasulo.Proofs.Content

/-!
# The layout of a machine

The classes and delays of the stations never change (`Execution.layout_eq`).  So how long an instruction
takes depends on its class alone: a station that accepts instructions of a class has the delay that the
configuration gives to its bank (`Pool.delay_of_accepts`).
-/

namespace Tomasulo

/-- The stations of a class. -/
def Banks.bank (banks : Banks) : StationClass → Bank
  | .loadStore => banks.load
  | .add => banks.add
  | .mul => banks.mul

/-- The stations that hold instructions of a class; branches and jumps have none. -/
def OpClass.stationClass? : OpClass → Option StationClass
  | .load | .store => some .loadStore
  | .add | .subtract => some .add
  | .multiply | .divide => some .mul
  | .branch => none

/-- How long the stations take that hold instructions of a class. -/
def Banks.delayFor (banks : Banks) (opClass : OpClass) : Nat :=
  (opClass.stationClass?.map fun stationClass => (banks.bank stationClass).delay).getD 0

/-- How many stations hold instructions of a class. -/
def Banks.countFor (banks : Banks) (opClass : OpClass) : Nat :=
  (opClass.stationClass?.map fun stationClass => (banks.bank stationClass).count).getD 0

/-- Classes and delays of the stations of a pool. -/
def Pool.layout (pool : Pool) : List (StationClass × Nat) :=
  pool.map fun station => (station.stationClass, station.delay)

theorem StationClass.accepts_iff {stationClass : StationClass} {opClass : OpClass} :
    stationClass.accepts opClass = true ↔ opClass.stationClass? = some stationClass := by
  cases stationClass <;> cases opClass <;> decide

/-! ## No operation changes the layout -/

section Layout

variable {pool : Pool} {id : Nat} {slot : Slot}

theorem Pool.layout_modify (f : Station → Station)
    (hsame : ∀ station,
      (f station).stationClass = station.stationClass ∧ (f station).delay = station.delay) :
    layout (pool.modify id f) = pool.layout := by
  refine List.ext_getElem? fun n => ?_
  simp only [layout, List.getElem?_map, List.getElem?_modify]
  cases pool[n]? with
  | none => rfl
  | some station => by_cases hsite : id = n <;> simp [hsite, hsame]

@[simp]
theorem Pool.layout_put : (pool.put id slot).layout = pool.layout :=
  layout_modify _ fun _ => ⟨rfl, rfl⟩

@[simp]
theorem Pool.layout_work : (pool.work id slot).layout = pool.layout :=
  layout_modify _ fun _ => ⟨rfl, rfl⟩

@[simp]
theorem Pool.layout_release : (pool.release id).layout = pool.layout :=
  layout_modify _ fun _ => ⟨rfl, rfl⟩

@[simp]
theorem Pool.layout_receive (producer : Nat) (value : Float) :
    (pool.receive producer value).layout = pool.layout := by
  simp [layout, receive]

@[simp]
theorem Pool.layout_rest : pool.rest.layout = pool.layout := by
  simp [layout, rest]

end Layout

section Execution

variable {listing : Listing} {initial frozen state after : State} {journal : List Deed} {task : Task}
  {todo : List Task} {event : Event}

/-- Carrying out a task changes neither the layout nor what was noted before, nor the number of the cycle. -/
theorem frame_of_perform (henabled : task.Enabled listing state)
    (hperform : task.perform listing state = some (event, after)) :
    after.stations.layout = state.stations.layout ∧ after.actions = state.actions ∧
      after.cycle = state.cycle := by
  cases task with
  | issue instruction id =>
      obtain ⟨_, _, _, -, -, -, rfl⟩ := issue_spec hperform
      simp
  | branch instruction comparison lhs rhs target =>
      obtain ⟨-, rfl⟩ := Prod.mk.inj (Option.some.inj hperform)
      exact ⟨rfl, rfl, rfl⟩
  | jump instruction target =>
      obtain ⟨-, rfl⟩ := Prod.mk.inj (Option.some.inj hperform)
      exact ⟨rfl, rfl, rfl⟩
  | compute id =>
      obtain ⟨slot, hslot, ⟨op, lhs, rhs, hop, hj, hk⟩, -⟩ := (Task.enabled_iff rfl).mp henabled
      obtain ⟨_, ⟨-, -, rfl⟩ | ⟨-, -, rfl⟩⟩ := compute_spec hslot hop hj hk hperform <;> simp
  | locate id =>
      obtain ⟨slot, hslot, -⟩ := (Task.enabled_iff rfl).mp henabled
      obtain ⟨_, _, _, _, -, -, -, ⟨-, -, -, rfl⟩ | ⟨-, rfl⟩⟩ := locate_spec hslot hperform <;>
        simp [State.afterRead]
  | load id =>
      obtain ⟨slot, hslot, -, ⟨address, haddress⟩, -⟩ := (Task.enabled_iff rfl).mp henabled
      obtain ⟨_, ⟨-, -, rfl⟩ | ⟨-, -, rfl⟩⟩ := load_spec hslot haddress hperform <;>
        simp [State.afterRead]
  | publish id =>
      obtain ⟨_, _, _, _, _, -, -, -, rfl⟩ := publish_spec hperform
      simp
  | commit id =>
      obtain ⟨slot, hslot, -, ⟨address, haddress⟩, -, value, hk⟩ := (Task.enabled_iff rfl).mp henabled
      obtain ⟨_, ⟨-, -, rfl⟩ | ⟨-, -, rfl⟩⟩ := commit_spec hslot haddress hk hperform <;> simp

/-- A deed keeps layout and cycle, and notes its action for the code order of its instruction and nothing
else. -/
theorem Deed.Valid.frame {deed : Deed} (hvalid : deed.Valid listing) :
    deed.after.stations.layout = deed.before.stations.layout ∧
      deed.after.actions = deed.before.actions.set deed.event.codeOrder (some deed.event.action) ∧
      deed.after.cycle = deed.before.cycle := by
  obtain ⟨after, hperform, hafter⟩ := hvalid.performs
  obtain ⟨hlayout, hactions, hcycle⟩ := frame_of_perform hvalid.enabled hperform
  rw [hafter]
  exact ⟨hlayout, congrArg (·.set deed.event.codeOrder (some deed.event.action)) hactions, hcycle⟩

theorem Execution.layout_eq (hnow : Execution listing initial frozen journal state todo)
    (hfresh : initial.Fresh) : state.stations.layout = initial.stations.layout := by
  refine hnow.of_deeds (motive := fun _ state => state.stations.layout = initial.stations.layout)
    hfresh rfl ?_ ?_
  · intro journal state ih
    simpa [State.tick] using ih
  · intro frozen journal rest deed hbefore hvalid ih
    exact hvalid.frame.1.trans ih

end Execution

/-! ## The layout of a configuration -/

section Banks

variable {banks : Banks} {pool : Pool} {station : Station} {opClass : OpClass}

theorem Pool.mem_layout_ofBanks_iff {stationClass : StationClass} {delay : Nat} :
    (stationClass, delay) ∈ (ofBanks banks).layout ↔
      0 < (banks.bank stationClass).count ∧ delay = (banks.bank stationClass).delay := by
  have hbank {other : StationClass} {bank : Bank} :
      (stationClass, delay) ∈ (Pool.bank other bank).layout ↔
        0 < bank.count ∧ stationClass = other ∧ delay = bank.delay := by
    simp only [layout, Pool.bank, List.map_map, List.mem_map, List.mem_range, Function.comp_apply,
      Prod.mk.injEq]
    constructor
    · rintro ⟨n, hn, rfl, rfl⟩
      exact ⟨by omega, rfl, rfl⟩
    · rintro ⟨hcount, rfl, rfl⟩
      exact ⟨0, hcount, rfl, rfl⟩
  have hall : (ofBanks banks).layout =
      (Pool.bank .loadStore banks.load).layout ++ (Pool.bank .add banks.add).layout ++
        (Pool.bank .mul banks.mul).layout := by
    simp [layout, ofBanks, Banks.classes]
  rw [hall, List.mem_append, List.mem_append, hbank, hbank, hbank]
  cases stationClass <;> simp [Banks.bank]

/-- A station takes as long as the configuration says for the instructions that it accepts. -/
theorem Pool.delay_of_accepts (hlayout : pool.layout = (ofBanks banks).layout)
    (hstation : station ∈ pool) (haccepts : station.stationClass.accepts opClass = true) :
    station.delay = banks.delayFor opClass := by
  have hmem : (station.stationClass, station.delay) ∈ (ofBanks banks).layout := by
    rw [← hlayout]
    exact List.mem_map_of_mem hstation
  unfold Banks.delayFor
  rw [StationClass.accepts_iff.mp haccepts]
  exact (mem_layout_ofBanks_iff.mp hmem).2

/-- A class for which the configuration has a station is accepted by one of the pool. -/
theorem Pool.exists_accepts (hlayout : pool.layout = (ofBanks banks).layout)
    (hcount : 0 < banks.countFor opClass) :
    ∃ station ∈ pool, station.stationClass.accepts opClass = true := by
  unfold Banks.countFor at hcount
  cases hclass : opClass.stationClass? with
  | none => simp [hclass] at hcount
  | some stationClass =>
      have hmem : (stationClass, (banks.bank stationClass).delay) ∈ pool.layout := by
        rw [hlayout, mem_layout_ofBanks_iff]
        exact ⟨by simpa [hclass] using hcount, rfl⟩
      obtain ⟨station, hstation, hsame⟩ := List.mem_map.mp hmem
      refine ⟨station, hstation, StationClass.accepts_iff.mpr ?_⟩
      rw [hclass, (Prod.mk.inj hsame).1]

end Banks

end Tomasulo
