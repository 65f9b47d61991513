import Tomasulo.Proofs.Layout
import Tomasulo.Proofs.Recorded
import Tomasulo.Proofs.Renaming
import Tomasulo.Proofs.Renumbering

/-!
# Machines in lockstep

Which station of a class holds an instruction makes no difference.  Two machines that are equal up to the
numbers of their stations are so after a cycle, and report the same (`station_choice_unobservable`); and so
they do the same in each of the cycles that follow (`Run.renumbered_afterCycles`).

* A plan chooses by age.  No two stations hold instructions of the same age, so the order of a plan says
  nothing about the order of the pool (`Pool.Renumbered.byAge`).
* The one exception is a free station for the next instruction: the first one in the pool is taken, and that
  may be another one on each machine.  The two stations that are taken are matched with each other from then
  on, and so are their former counterparts (`State.Renumbered.swap`).  Nothing names a free station, so all
  tags keep their meaning.
* With the plans matched, the machines do the same things one after the other (`deedsFrom_renumbered`).
-/

namespace Tomasulo

/-! ## Choices by age -/

/-- Whether two stations in use are counterparts. -/
structure Occupied.Renumbered (number : Nat → Nat) (entry other : Occupied) : Prop where
  id : other.id = number entry.id
  slot : other.slot = entry.slot.renumber number
  delay : other.station.delay = entry.station.delay

section Age

variable {number : Equiv.Perm Nat} {pool other : Pool} {condition twinCondition : Occupied → Bool}

variable (hpools : pool.Renumbered number other)
  (hdelays : ∀ id, other.delay (number id) = pool.delay id)

include hpools

theorem Pool.Renumbered.age (id : Nat) : other.age (number id) = pool.age id := by
  unfold Pool.age
  rw [hpools.slot?]
  cases pool.slot? id <;> rfl

include hdelays

theorem Pool.Renumbered.exists_twin {entry : Occupied} (hentry : entry ∈ pool.occupied) :
    ∃ twin ∈ other.occupied, entry.Renumbered number twin := by
  have hslot : other.slot? (number entry.id) = some (entry.slot.renumber number) := by
    rw [hpools.slot?, slot?_of_mem_occupied hentry, Option.map_some]
  obtain ⟨twin, htwin, hid, hheld⟩ := exists_occupied_of_slot? hslot
  refine ⟨twin, htwin, hid, hheld, ?_⟩
  rw [← delay_of_mem_occupied htwin, ← delay_of_mem_occupied hentry, hid, hdelays]

theorem Pool.Renumbered.exists_origin {twin : Occupied} (htwin : twin ∈ other.occupied) :
    ∃ entry ∈ pool.occupied, entry.Renumbered number twin := by
  have hslot : (pool.slot? (number.symm twin.id)).map (Slot.renumber number) = some twin.slot := by
    rw [← hpools.slot?, number.apply_symm_apply]
    exact slot?_of_mem_occupied htwin
  obtain ⟨slot, hheld, hsame⟩ := Option.map_eq_some_iff.mp hslot
  obtain ⟨entry, hentry, hid, rfl⟩ := exists_occupied_of_slot? hheld
  have hnumber : twin.id = number entry.id := by rw [hid, number.apply_symm_apply]
  refine ⟨entry, hentry, hnumber, hsame.symm, ?_⟩
  rw [← delay_of_mem_occupied htwin, ← delay_of_mem_occupied hentry, hnumber, hdelays]

/-- A condition that does not look at numbers holds of the same stations. -/
theorem Pool.Renumbered.mem_byAge_iff
    (hcondition : ∀ {entry twin : Occupied}, entry.Renumbered number twin →
      twinCondition twin = condition entry) {id : Nat} :
    number id ∈ other.byAge twinCondition ↔ id ∈ pool.byAge condition := by
  rw [Pool.mem_byAge_iff, Pool.mem_byAge_iff]
  constructor
  · rintro ⟨twin, htwin, hid, hholds⟩
    obtain ⟨entry, hentry, hsame⟩ := hpools.exists_origin hdelays htwin
    exact ⟨entry, hentry, number.injective (hsame.id.symm.trans hid),
      (hcondition hsame).symm.trans hholds⟩
  · rintro ⟨entry, hentry, rfl, hholds⟩
    obtain ⟨twin, htwin, hsame⟩ := hpools.exists_twin hdelays hentry
    exact ⟨twin, htwin, hsame.id, (hcondition hsame).trans hholds⟩

/-- The choice by age is the same on both machines, because no two stations hold instructions of one age. -/
theorem Pool.Renumbered.byAge
    (hdistinct : ∀ id site slot held, other.slot? id = some slot → other.slot? site = some held →
      slot.seq = held.seq → id = site)
    (hcondition : ∀ {entry twin : Occupied}, entry.Renumbered number twin →
      twinCondition twin = condition entry) :
    other.byAge twinCondition = (pool.byAge condition).map number := by
  have hmem (id : Nat) : id ∈ other.byAge twinCondition ↔ id ∈ (pool.byAge condition).map number := by
    rw [List.mem_map, ← number.apply_symm_apply id, hpools.mem_byAge_iff hdelays hcondition]
    constructor
    · intro hid
      exact ⟨_, hid, rfl⟩
    · rintro ⟨origin, horigin, hsame⟩
      rwa [← number.injective hsame]
  have hsorted : ((pool.byAge condition).map number).Pairwise fun a b => other.age a ≤ other.age b := by
    rw [List.pairwise_map]
    refine (pairwise_byAge condition).imp fun hle => ?_
    rwa [hpools.age, hpools.age]
  refine List.Perm.eq_of_pairwise ?_ (pairwise_byAge twinCondition) hsorted ?_
  · intro a b ha hb hle hge
    obtain ⟨entry, hentry, rfl, -⟩ := Pool.mem_byAge_iff.mp ha
    obtain ⟨rival, hrival, rfl, -⟩ := Pool.mem_byAge_iff.mp ((hmem b).mpr hb)
    rw [age_of_mem_occupied hentry, age_of_mem_occupied hrival] at hle hge
    exact hdistinct _ _ _ _ (slot?_of_mem_occupied hentry) (slot?_of_mem_occupied hrival)
      (le_antisymm hle hge)
  · rw [List.perm_ext_iff_of_nodup (nodup_byAge _) ((nodup_byAge _).map number.injective)]
    exact hmem

end Age

/-! ## The plan -/

/-- What becomes of the next instruction, with other numbers for the stations. -/
def Fetch.renumber (number : Nat → Nat) : Fetch → Fetch
  | exhausted => exhausted
  | stall => stall
  | act task => act (task.renumber number)

/-- A plan with other numbers for the stations. -/
def Plan.renumber (number : Nat → Nat) (plan : Plan) : Plan where
  fetch := plan.fetch.renumber number
  computes := plan.computes.map number
  locates := plan.locates.map number
  loads := plan.loads.map number
  publishes := plan.publishes.map number
  commits := plan.commits.map number

section Plan

variable {listing : Listing} {number : Equiv.Perm Nat} {state other : State}

theorem Plan.tasks_renumber (plan : Plan) :
    (plan.renumber number).tasks = plan.tasks.map (Task.renumber number) := by
  have hfetch : (plan.renumber number).fetchTask?.toList =
      plan.fetchTask?.toList.map (Task.renumber number) := by
    unfold fetchTask? renumber
    cases plan.fetch <;> rfl
  have hchoice (choice : Option Nat) : (choice.map number).toList = choice.toList.map number := by
    cases choice <;> rfl
  rw [tasks, hfetch]
  simp only [tasks, renumber, hchoice, List.map_append, List.map_map]
  rfl

theorem Plan.isStalled_renumber (plan : Plan) : (plan.renumber number).isStalled = plan.isStalled := by
  unfold isStalled renumber
  cases plan.fetch <;> rfl

/-- The fetch slot decides the same if the free stations are matched. -/
theorem State.Renumbered.fetch (hsame : state.Renumbered number other)
    (hfree : ∀ instruction, state.cursor.next? listing = some instruction →
      other.stations.freeFor? instruction.opClass =
        (state.stations.freeFor? instruction.opClass).map number) :
    other.fetch listing = (state.fetch listing).renumber number := by
  have hvalue (name : String) : (other.registers.get name).value? = (state.registers.get name).value? := by
    rw [hsame.registers, RegisterFile.get_renumber]
    cases state.registers.get name <;> rfl
  unfold State.fetch
  rw [hsame.cursor]
  cases hnext : state.cursor.next? listing with
  | none => rfl
  | some instruction =>
      dsimp only
      rw [hfree instruction hnext]
      simp only [hvalue]
      cases instruction.operation with
      | jump target => rfl
      | branch comparison lhs rhs target =>
          dsimp only
          cases (state.registers.get lhs).value? <;> cases (state.registers.get rhs).value? <;> rfl
      | _ => cases state.stations.freeFor? instruction.opClass <;> rfl

section Conditions

variable {entry twin : Occupied} (htwins : entry.Renumbered number twin)

include htwins

theorem Occupied.Renumbered.computes : twin.computes = entry.computes := by
  unfold Occupied.computes
  rw [htwins.slot, htwins.delay]
  simp only [Slot.renumber, Operand.isReady_renumber]
  rfl

theorem Occupied.Renumbered.locates : twin.locates = entry.locates := by
  unfold Occupied.locates
  rw [htwins.slot, htwins.delay]
  simp only [Slot.renumber, Operand.isReady_renumber]
  rfl

theorem Occupied.Renumbered.publishes : twin.publishes = entry.publishes := by
  unfold Occupied.publishes
  rw [htwins.slot]
  rfl

variable (hsame : state.Renumbered number other)

include hsame

theorem Occupied.Renumbered.loads : twin.loads other.stations = entry.loads state.stations := by
  unfold Occupied.loads
  rw [htwins.slot, htwins.delay, htwins.id, hsame.stations.loadBlocked]
  rfl

theorem Occupied.Renumbered.commits : twin.commits other.stations = entry.commits state.stations := by
  unfold Occupied.commits
  rw [htwins.slot, htwins.delay, htwins.id, hsame.stations.storeBlocked]
  simp only [Slot.renumber, Operand.isReady_renumber]
  rfl

end Conditions

/-- Both machines have the same plan if the free stations are matched. -/
theorem State.Renumbered.plan (hsame : state.Renumbered number other)
    (hdelays : ∀ id, other.stations.delay (number id) = state.stations.delay id)
    (hlife : Lifecycle listing other)
    (hfree : ∀ instruction, state.cursor.next? listing = some instruction →
      other.stations.freeFor? instruction.opClass =
        (state.stations.freeFor? instruction.opClass).map number) :
    other.plan listing = (state.plan listing).renumber number := by
  have hchoice {condition twinCondition : Occupied → Bool}
      (hcondition : ∀ {entry twin : Occupied}, entry.Renumbered number twin →
        twinCondition twin = condition entry) :
      other.stations.byAge twinCondition = (state.stations.byAge condition).map number :=
    hsame.stations.byAge hdelays hlife.distinct hcondition
  unfold State.plan Plan.renumber
  rw [hsame.fetch hfree]
  dsimp only
  rw [hchoice Occupied.Renumbered.computes, hchoice Occupied.Renumbered.locates,
    hchoice Occupied.Renumbered.publishes, hchoice fun htwins => htwins.loads hsame,
    hchoice fun htwins => htwins.commits hsame, List.head?_map, List.head?_map]

end Plan

/-! ## Free stations -/

/-- Whether some register or operand waits for a station. -/
inductive State.Names (state : State) (id : Nat) : Prop
  | register {name : String} (hregister : state.registers.get name = .pending id)
  | operand {holder : Nat} {slot : Slot} (hslot : state.stations.slot? holder = some slot)
      (hwaiting : slot.j = .waiting id ∨ slot.k = .waiting id)

/-- Whether a station is free and rests. -/
def Pool.Free (pool : Pool) (id : Nat) (stationClass : StationClass) : Prop :=
  ∃ station, pool[id]? = some station ∧ station.slot = none ∧ station.working = false ∧
    station.stationClass = stationClass

section Free

variable {number twinNumber : Equiv.Perm Nat} {state other : State}

theorem Slot.renumber_congr {slot : Slot}
    (hagree : ∀ id, slot.j = .waiting id ∨ slot.k = .waiting id → number id = twinNumber id) :
    slot.renumber number = slot.renumber twinNumber := by
  have hoperand {operand : Operand} (hwaits : ∀ id, operand = .waiting id → number id = twinNumber id) :
      operand.renumber number = operand.renumber twinNumber := by
    cases operand with
    | empty => rfl
    | ready value => rfl
    | waiting id => exact congrArg Operand.waiting (hwaits id rfl)
  unfold renumber
  rw [hoperand fun id hj => hagree id (.inl hj), hoperand fun id hk => hagree id (.inr hk)]

theorem RegisterFile.renumber_congr {file : RegisterFile}
    (hagree : ∀ name id, file.get name = .pending id → number id = twinNumber id) :
    file.mapValues (Register.renumber number) = file.mapValues (Register.renumber twinNumber) := by
  apply OrderedMap.eq_of_find?_eq
  intro name
  rw [OrderedMap.find?_mapValues, OrderedMap.find?_mapValues]
  cases hfind : file.find? name with
  | none => rfl
  | some register =>
      have hget : file.get name = register := by rw [get, hfind, Option.getD_some]
      cases register with
      | empty => rfl
      | ready value => rfl
      | pending id => exact congrArg (some ∘ Register.pending) (hagree name id hget)

/-- Numbers may be matched differently as long as those that the state names keep their counterparts. -/
theorem State.Renumbered.rematch (hsame : state.Renumbered number other)
    (hnames : ∀ id, state.Names id → number id = twinNumber id)
    (hstations : ∀ id, Option.Rel (Station.Renumbered twinNumber) state.stations[id]?
      other.stations[twinNumber id]?) : state.Renumbered twinNumber other :=
  { hsame with
    registers := by
      rw [hsame.registers]
      exact RegisterFile.renumber_congr fun name id hregister => hnames id (.register hregister)
    stations := hstations }

theorem Station.Renumbered.rematch {station twin : Station} {id : Nat}
    (hsame : station.Renumbered number twin) (hstation : state.stations[id]? = some station)
    (hnames : ∀ id, state.Names id → number id = twinNumber id) : station.Renumbered twinNumber twin := by
  refine { hsame with slot := ?_ }
  rw [hsame.slot]
  cases hslot : station.slot with
  | none => rfl
  | some slot =>
      have hholds : state.stations.slot? id = some slot := Pool.slot?_eq_some_iff.mpr ⟨_, hstation, hslot⟩
      exact congrArg some (Slot.renumber_congr fun tag hwaiting => hnames tag (.operand hholds hwaiting))

theorem Pool.Free.renumbered {pool twins : Pool} {id site : Nat} {stationClass : StationClass}
    (hfree : pool.Free id stationClass) (htwin : twins.Free site stationClass) :
    Option.Rel (Station.Renumbered number) pool[id]? twins[site]? := by
  obtain ⟨station, hstation, hslot, hworking, hclass⟩ := hfree
  obtain ⟨twin, htwin, hslot', hworking', hclass'⟩ := htwin
  rw [hstation, htwin]
  exact .some ⟨hclass'.trans hclass.symm, hworking'.trans hworking.symm, by rw [hslot, hslot']; rfl⟩

theorem Pool.Renumbered.free_iff {pool twins : Pool} (hpools : pool.Renumbered number twins) {id : Nat}
    {stationClass : StationClass} :
    twins.Free (number id) stationClass ↔ pool.Free id stationClass := by
  unfold Free
  rcases rel_cases (hpools id) with ⟨hnone, hnone'⟩ | ⟨station, twin, hstation, htwin, hsame⟩
  · simp [hnone, hnone']
  · simp [hstation, htwin, hsame.slot, hsame.working, hsame.stationClass]

theorem Pool.Free.slot?_ne {pool : Pool} {id : Nat} {stationClass : StationClass}
    (hfree : pool.Free id stationClass) {slot : Slot} : pool.slot? id ≠ some slot := by
  obtain ⟨station, hstation, hslot, -⟩ := hfree
  simp [slot?, hstation, hslot]

/-- Two free stations of one class can be matched with each other, and their counterparts as well. -/
theorem State.Renumbered.swap (hsame : state.Renumbered number other)
    (hbusy : ∀ id, state.Names id → ∃ slot, state.stations.slot? id = some slot)
    {first second : Nat} {stationClass : StationClass} (hfirst : state.stations.Free first stationClass)
    (hsecond : other.stations.Free second stationClass) :
    state.Renumbered (number.trans (Equiv.swap (number first) second)) other := by
  have hapart {id : Nat} {slot : Slot} (hslot : state.stations.slot? id = some slot) :
      number id ≠ number first ∧ number id ≠ second := by
    constructor
    · intro heq
      obtain rfl := number.injective heq
      exact hfirst.slot?_ne hslot
    · rintro rfl
      exact (hsame.stations.free_iff.mp hsecond).slot?_ne hslot
  have hnames (id : Nat) (hnamed : state.Names id) :
      number id = number.trans (Equiv.swap (number first) second) id := by
    obtain ⟨slot, hslot⟩ := hbusy id hnamed
    obtain ⟨hne, hne'⟩ := hapart hslot
    exact (Equiv.swap_apply_of_ne_of_ne hne hne').symm
  refine hsame.rematch hnames fun id => ?_
  rw [Equiv.trans_apply, Equiv.swap_apply_def]
  split
  case isTrue heq =>
    obtain rfl := number.injective heq
    exact hfirst.renumbered hsecond
  case isFalse hne =>
    split
    case isTrue heq =>
      subst heq
      exact (hsame.stations.free_iff.mp hsecond).renumbered (hsame.stations.free_iff.mpr hfirst)
    case isFalse hne' =>
      rcases rel_cases (hsame.stations id) with ⟨hnone, hnone'⟩ | ⟨station, twin, hstation, htwin, hkept⟩
      · rw [hnone, hnone']
        exact .none
      · rw [hstation, htwin]
        exact .some (hkept.rematch hstation hnames)

theorem Pool.free_of_freeFor? {pool : Pool} {id : Nat} {opClass : OpClass}
    (hrest : ∀ station ∈ pool, station.working = false) (hfree : pool.freeFor? opClass = some id) :
    ∃ stationClass, pool.Free id stationClass ∧ opClass.stationClass? = some stationClass := by
  obtain ⟨station, hstation, hslot, haccepts⟩ := freeFor?_spec hfree
  have hresting := hrest station (List.mem_of_getElem? hstation)
  exact ⟨station.stationClass, ⟨station, hstation, hslot, hresting, rfl⟩,
    StationClass.accepts_iff.mp haccepts⟩

theorem Pool.exists_freeFor? {pool : Pool} {id : Nat} {opClass : OpClass} {stationClass : StationClass}
    (hfree : pool.Free id stationClass) (hclass : opClass.stationClass? = some stationClass) :
    ∃ site, pool.freeFor? opClass = some site := by
  obtain ⟨station, hstation, hslot, -, hsame⟩ := hfree
  rw [← Option.ne_none_iff_exists', ne_eq, freeFor?_eq_none_iff]
  intro hnone
  have haccepts := hnone station (List.mem_of_getElem? hstation) hslot
  rw [hsame, StationClass.accepts_iff.mpr hclass] at haccepts
  exact absurd haccepts (by simp)

/-- The numbers can be matched so that the next instruction enters counterparts. -/
theorem State.Renumbered.exists_aligned (hsame : state.Renumbered number other)
    (hbusy : ∀ id, state.Names id → ∃ slot, state.stations.slot? id = some slot)
    (hrest : ∀ station ∈ state.stations, station.working = false)
    (hrest' : ∀ station ∈ other.stations, station.working = false) (opClass : OpClass) :
    ∃ aligned, state.Renumbered aligned other ∧
      other.stations.freeFor? opClass = (state.stations.freeFor? opClass).map aligned := by
  cases hfirst : state.stations.freeFor? opClass with
  | none =>
      refine ⟨number, hsame, ?_⟩
      cases hsecond : other.stations.freeFor? opClass with
      | none => rfl
      | some second =>
          obtain ⟨stationClass, hfree, hclass⟩ := Pool.free_of_freeFor? hrest' hsecond
          rw [← number.apply_symm_apply second, hsame.stations.free_iff] at hfree
          obtain ⟨site, hsite⟩ := Pool.exists_freeFor? hfree hclass
          exact absurd (hfirst.symm.trans hsite) (by simp)
  | some first =>
      obtain ⟨stationClass, hfree, hclass⟩ := Pool.free_of_freeFor? hrest hfirst
      obtain ⟨second, hsecond⟩ := Pool.exists_freeFor? (hsame.stations.free_iff.mpr hfree) hclass
      obtain ⟨stationClass', hfree', hclass'⟩ := Pool.free_of_freeFor? hrest' hsecond
      obtain rfl := Option.some.inj (hclass.symm.trans hclass')
      refine ⟨_, hsame.swap hbusy hfree hfree', ?_⟩
      rw [hsecond, Option.map_some, Equiv.trans_apply, Equiv.swap_apply_left]

end Free

/-! ## Lockstep -/

theorem map_eq_of_forall₂ {α β γ : Type} {r : α → β → Prop} {as : List α} {bs : List β} {f : α → γ}
    {g : β → γ} (hall : List.Forall₂ r as bs) (hkeep : ∀ {a b}, r a b → g b = f a) :
    bs.map g = as.map f := by
  induction hall with
  | nil => rfl
  | cons hhead _ ih => rw [List.map_cons, List.map_cons, hkeep hhead, ih]

/-- Whether two deeds are counterparts. -/
structure Deed.Renumbered (number : Equiv.Perm Nat) (deed other : Deed) : Prop where
  task : other.task = deed.task.renumber number
  before : deed.before.Renumbered number other.before
  event : other.event.anonymous = deed.event.anonymous
  after : deed.after.Renumbered number other.after

section Lockstep

variable {listing : Listing} {banks : Banks} {number : Equiv.Perm Nat}
  {initial initial' frozen frozen' state other : State} {journal journal' : List Deed} {todo : List Task}

/-- Counterparts do the same for the same instruction. -/
theorem Deed.Renumbered.seq {deed other : Deed} (hsame : deed.Renumbered number other) :
    other.seq = deed.seq := by
  have hstation : other.task.station? = deed.task.station?.map number := by
    rw [hsame.task]
    cases deed.task <;> rfl
  unfold Deed.seq
  rw [hstation]
  cases deed.task.station? with
  | none => exact congrArg Cursor.fetched hsame.before.cursor
  | some id =>
      rw [Option.map_some]
      dsimp only
      rw [hsame.before.stations.slot?]
      cases deed.before.stations.slot? id <;> rfl

/-- On machines of one layout counterparts take equally long. -/
theorem State.Renumbered.delay (hsame : state.Renumbered number other)
    (hlayout : state.stations.layout = (Pool.ofBanks banks).layout)
    (hlayout' : other.stations.layout = (Pool.ofBanks banks).layout) (id : Nat) :
    other.stations.delay (number id) = state.stations.delay id := by
  have hclass {pool : Pool} {station : Station} {site : Nat}
      (hpool : pool.layout = (Pool.ofBanks banks).layout) (hstation : pool[site]? = some station) :
      pool.delay site = (banks.bank station.stationClass).delay := by
    rw [Pool.delay_eq hstation]
    refine (Pool.mem_layout_ofBanks_iff.mp (?_ : (station.stationClass, station.delay) ∈ _)).2
    rw [← hpool]
    exact List.mem_map_of_mem (List.mem_of_getElem? hstation)
  rcases rel_cases (hsame.stations id) with ⟨hnone, hnone'⟩ | ⟨station, twin, hstation, htwin, htwins⟩
  · simp [Pool.delay, hnone, hnone']
  · rw [hclass hlayout hstation, hclass hlayout' htwin, htwins.stationClass]

/-- What a tag names is in use. -/
theorem Execution.busy_of_names (hnow : Execution listing initial frozen journal state todo)
    (hfresh : initial.Fresh) {id : Nat} (hnamed : state.Names id) :
    ∃ slot, state.stations.slot? id = some slot := by
  have hexact := (hnow.dataflow hfresh).tagsExact (hnow.lifecycle hfresh.free hfresh.delays) hfresh.settled
  cases hnamed with
  | register hregister =>
      obtain ⟨slot, -, hslot, -⟩ := hexact.supplier _ _ _ ((hexact.registers _ _).mp hregister)
      exact ⟨slot, hslot⟩
  | operand hslot hwaiting =>
      obtain ⟨-, producer, hproducer, -⟩ := hexact.older _ _ _ hslot hwaiting
      exact ⟨producer, hproducer⟩

variable (hfresh : initial.Fresh) (hfresh' : initial'.Fresh)
  (hlayout : initial.stations.layout = (Pool.ofBanks banks).layout)
  (hlayout' : initial'.stations.layout = (Pool.ofBanks banks).layout)

include hfresh hfresh' hlayout hlayout'

/-- Machines with the same tasks before them do the same. -/
theorem deedsFrom_renumbered (hnow : Execution listing initial frozen journal state todo)
    (hnow' : Execution listing initial' frozen' journal' other (todo.map (Task.renumber number)))
    (hsame : state.Renumbered number other) :
    List.Forall₂ (Deed.Renumbered number) (deedsFrom listing todo state)
      (deedsFrom listing (todo.map (Task.renumber number)) other) := by
  induction todo generalizing state other journal journal' with
  | nil => exact .nil
  | cons task todo ih =>
      have hdelays := hsame.delay ((hnow.layout_eq hfresh).trans hlayout)
        ((hnow'.layout_eq hfresh').trans hlayout')
      have hperforms : Option.Rel (Task.SameOutcome number) (task.perform listing state)
          ((task.renumber number).perform listing other) := Task.perform_renumbered hsame hdelays task
      rw [List.map_cons, deedsFrom, deedsFrom]
      rcases rel_cases hperforms with ⟨hnone, hnone'⟩ | ⟨done, done', hdone, hdone', hevent, hafter⟩
      · rw [hnone, hnone']
        exact ih (hnow.pass hnone) (hnow'.pass hnone') hsame
      · rw [hdone, hdone']
        have hnoted : (done.2.note done.1.codeOrder done.1.action).Renumbered number
            (done'.2.note done'.1.codeOrder done'.1.action) := by
          rw [← Event.codeOrder_anonymous done'.1, ← Event.action_anonymous done'.1, hevent,
            Event.codeOrder_anonymous, Event.action_anonymous]
          exact hafter.note _ _
        exact .cons ⟨rfl, hsame, hevent, hnoted⟩ (ih (hnow.act hdone) (hnow'.act hdone') hnoted)

omit hfresh hfresh' hlayout hlayout' in
theorem stateAfter_renumbered {deeds twins : List Deed} (hsame : state.Renumbered number other)
    (hdeeds : List.Forall₂ (Deed.Renumbered number) deeds twins) :
    (stateAfter state deeds).Renumbered number (stateAfter other twins) := by
  induction hdeeds generalizing state other with
  | nil => exact hsame
  | cons hdeed _ ih =>
      rw [stateAfter_cons, stateAfter_cons]
      exact ih hdeed.after

/-- With the numbers matched anew, both machines do the same in a cycle. -/
theorem State.Renumbered.exists_deeds (hnow : Execution listing initial frozen journal state [])
    (hnow' : Execution listing initial' frozen' journal' other []) (hsame : state.Renumbered number other) :
    ∃ aligned, state.tick.Renumbered aligned other.tick ∧
      other.tick.plan listing = (state.tick.plan listing).renumber aligned ∧
      List.Forall₂ (Deed.Renumbered aligned) (state.deeds listing) (other.deeds listing) := by
  have hrest (pool : Pool) : ∀ station ∈ pool.rest, station.working = false := by
    intro station hstation
    obtain ⟨origin, -, rfl⟩ := List.mem_map.mp hstation
    rfl
  obtain ⟨aligned, haligned, hfree⟩ : ∃ aligned, state.tick.Renumbered aligned other.tick ∧
      ∀ instruction, state.tick.cursor.next? listing = some instruction →
        other.tick.stations.freeFor? instruction.opClass =
          (state.tick.stations.freeFor? instruction.opClass).map aligned := by
    cases hnext : state.tick.cursor.next? listing with
    | none => exact ⟨number, hsame.tick, fun _ hsome => absurd hsome (by simp)⟩
    | some instruction =>
        obtain ⟨aligned, haligned, hfree⟩ := hsame.tick.exists_aligned
          (fun _ hnamed => hnow.tick.busy_of_names hfresh hnamed) (hrest _) (hrest _) instruction.opClass
        refine ⟨aligned, haligned, fun other hother => ?_⟩
        obtain rfl := Option.some.inj hother
        exact hfree
  have hplan : other.tick.plan listing = (state.tick.plan listing).renumber aligned :=
    haligned.plan (haligned.delay ((hnow.tick.layout_eq hfresh).trans hlayout)
      ((hnow'.tick.layout_eq hfresh').trans hlayout'))
      (hnow'.tick.lifecycle hfresh'.free hfresh'.delays) hfree
  refine ⟨aligned, haligned, hplan, ?_⟩
  have htick' := hnow'.tick
  unfold State.deeds
  rw [hplan, Plan.tasks_renumber] at htick' ⊢
  exact deedsFrom_renumbered hfresh hfresh' hlayout hlayout' hnow.tick htick' haligned

end Lockstep

/-! ## Reports -/

/-- Whether two reports tell the same, apart from the names of stations. -/
structure Report.Agrees (report other : Report) : Prop where
  progressed : other.progressed = report.progressed
  stalled : other.stalled = report.stalled
  issued : other.issued = report.issued
  broadcast : other.broadcast = report.broadcast
  storesCommitted : other.storesCommitted = report.storesCommitted
  control : other.control? = report.control?
  length : other.steps.length = report.steps.length
  events : other.steps.map (·.event.anonymous) = report.steps.map (·.event.anonymous)

/-- What a report tells of its steps does not depend on the names of stations. -/
theorem Report.agrees_of_events {report other : Report} (hprogressed : other.progressed = report.progressed)
    (hstalled : other.stalled = report.stalled)
    (hevents : other.steps.map (·.event.anonymous) = report.steps.map (·.event.anonymous)) :
    report.Agrees other where
  progressed := hprogressed
  stalled := hstalled
  issued := by
    simpa [issued, List.any_map, Function.comp_def] using congrArg (List.any · Event.isIssue) hevents
  broadcast := by
    simpa [broadcast, List.any_map, Function.comp_def] using
      congrArg (List.any · Event.isBroadcast) hevents
  storesCommitted := by
    simpa [storesCommitted, List.countP_map, Function.comp_def] using
      congrArg (List.countP Event.isCommit) hevents
  control := by
    simpa [control?, List.findSome?_map, Function.comp_def] using
      congrArg (List.findSome? Event.control?) hevents
  length := by simpa using congrArg List.length hevents
  events := hevents

/-! ## Main statement -/

section Cycle

variable {listing : Listing} {banks : Banks} {number : Equiv.Perm Nat} {initial initial' state other : State}
  {journal journal' : List Deed}

/-- A run goes on from each state that it reaches. -/
theorem Run.more (hrun : Run listing initial journal state) (count : Nat) :
    Run listing initial (journal ++ state.journal listing count) (state.afterCycles listing count) := by
  induction count with
  | zero => simpa [State.journal, State.afterCycles] using hrun
  | succ count ih => simpa [State.journal, State.afterCycles] using ih.cycle

/-- Machines that are equal up to the numbers of their stations are so after a cycle, which was the same on
both. -/
theorem Run.renumbered (hfresh : initial.Fresh) (hfresh' : initial'.Fresh)
    (hlayout : initial.stations.layout = (Pool.ofBanks banks).layout)
    (hlayout' : initial'.stations.layout = (Pool.ofBanks banks).layout)
    (hrun : Run listing initial journal state) (hrun' : Run listing initial' journal' other)
    (hsame : state.Renumbered number other) :
    (∃ aligned, (state.cycleOnce listing).state.Renumbered aligned (other.cycleOnce listing).state) ∧
      (state.cycleOnce listing).report.Agrees (other.cycleOnce listing).report ∧
      (other.deeds listing).map Deed.seq = (state.deeds listing).map Deed.seq := by
  obtain ⟨_, hnow⟩ := hrun.execution
  obtain ⟨_, hnow'⟩ := hrun'.execution
  obtain ⟨aligned, haligned, hplan, hdeeds⟩ :=
    hsame.exists_deeds hfresh hfresh' hlayout hlayout' hnow hnow'
  refine ⟨⟨aligned, ?_⟩, Report.agrees_of_events ?_ ?_ ?_, ?_⟩
  · rw [state_cycleOnce, state_cycleOnce]
    exact stateAfter_renumbered haligned hdeeds
  · show (!(other.tick.plan listing).tasks.isEmpty) = !(state.tick.plan listing).tasks.isEmpty
    rw [hplan, Plan.tasks_renumber, List.isEmpty_map]
  · show (other.tick.plan listing).isStalled = (state.tick.plan listing).isStalled
    rw [hplan, Plan.isStalled_renumber]
  · rw [steps_cycleOnce, steps_cycleOnce, List.map_map, List.map_map]
    exact map_eq_of_forall₂ hdeeds fun hdeed => hdeed.event
  · exact map_eq_of_forall₂ hdeeds fun hdeed => hdeed.seq

/-- They are so after each number of cycles, and what they do over these cycles is the same as well. -/
theorem Run.renumbered_afterCycles (hfresh : initial.Fresh) (hfresh' : initial'.Fresh)
    (hlayout : initial.stations.layout = (Pool.ofBanks banks).layout)
    (hlayout' : initial'.stations.layout = (Pool.ofBanks banks).layout)
    (hrun : Run listing initial journal state) (hrun' : Run listing initial' journal' other)
    (hsame : state.Renumbered number other) (count : Nat) :
    (∃ aligned, (state.afterCycles listing count).Renumbered aligned (other.afterCycles listing count)) ∧
      (other.journal listing count).map Deed.seq = (state.journal listing count).map Deed.seq := by
  induction count with
  | zero => exact ⟨⟨number, hsame⟩, rfl⟩
  | succ count ih =>
      obtain ⟨⟨aligned, hthen⟩, hdone⟩ := ih
      obtain ⟨hnext, -, hseqs⟩ := (hrun.more count).renumbered hfresh hfresh' hlayout hlayout'
        (hrun'.more count) hthen
      refine ⟨hnext, ?_⟩
      rw [State.journal, State.journal, List.map_append, List.map_append, hdone, hseqs]

end Cycle

/-- Which station of a class holds an instruction cannot be observed.  Take two states that machines with the
same stations reach on one listing, from whatever registers and memory, and let the states be equal up to a
permutation of the stations that keeps their classes.  Then the states after one more cycle are equal up to
such a permutation, the cycles are reported in the same way, and in both of them the same instructions act in
the same order. -/
theorem station_choice_unobservable {listing : Listing} {configuration : Configuration}
    {registers registers' : RegisterFile} {memory memory' : Memory} {journal journal' : List Deed}
    {state other : State} {number : Equiv.Perm Nat} (hsound : configuration.error? = none)
    (hsettled : ∀ name producer, registers.get name ≠ .pending producer)
    (hsettled' : ∀ name producer, registers'.get name ≠ .pending producer)
    (hrun : Run listing (.initial listing registers memory configuration.stations) journal state)
    (hrun' : Run listing (.initial listing registers' memory' configuration.stations) journal' other)
    (hsame : state.Renumbered number other) :
    (∃ aligned, (state.cycleOnce listing).state.Renumbered aligned (other.cycleOnce listing).state) ∧
      (state.cycleOnce listing).report.Agrees (other.cycleOnce listing).report ∧
      (other.deeds listing).map Deed.seq = (state.deeds listing).map Deed.seq :=
  hrun.renumbered (State.fresh_initial hsound hsettled) (State.fresh_initial hsound hsettled') rfl rfl hrun'
    hsame

namespace Crowding

/-- The load waits for the store if both use one cell, so the sum behind it is still in its station when the
last sum is issued. -/
def listing : Listing where
  instructions :=
    [⟨"mul x5,x6,x6", "mul", 0, .arithmetic .mul "x5" "x6" "x6"⟩,
      ⟨"mul x7,x5,x5", "mul", 1, .arithmetic .mul "x7" "x5" "x5"⟩,
      ⟨"sw x1,0(a0)", "sw", 2, .store "x1" "a0" 0⟩,
      ⟨"lw x2,0(a1)", "lw", 3, .load "x2" "a1" 0⟩,
      ⟨"add x3,x2,x2", "add", 4, .arithmetic .add "x3" "x2" "x2"⟩,
      ⟨"li a1,0", "li", 5, .loadImmediate "a1" 0⟩,
      ⟨"j on", "j", 6, .jump "on"⟩,
      ⟨"j on", "j", 7, .jump "on"⟩,
      ⟨"j on", "j", 8, .jump "on"⟩,
      ⟨"j on", "j", 9, .jump "on"⟩,
      ⟨"j on", "j", 10, .jump "on"⟩,
      ⟨"add x4,x7,x7", "add", 11, .arithmetic .add "x4" "x7" "x7"⟩]
  sections := [⟨"main", [0, 1, 2, 3, 4, 5, 6, 7, 8, 9, 10, 11]⟩]
  initialValues := .empty

/-- Registers in which the load has the given base. -/
def registers (base : Float) : RegisterFile :=
  (((RegisterFile.write .empty "x1" 5).write "x6" 2).write "a0" 100).write "a1" base

theorem settled (base : Float) (name : String) (producer : Nat) :
    (registers base).get name ≠ .pending producer := by
  unfold registers
  simp only [RegisterFile.get_write]
  repeat' split
  all_goals exact Register.noConfusion

def initial (base : Float) : State :=
  .initial listing (registers base) (.write .empty 200 5) {}

def state (base : Float) : State :=
  (initial base).afterCycles listing 13

/-- After thirteen cycles the last sum is in the first station for sums or in the second one, and otherwise
the machines do not differ. -/
theorem renumbered : (state 200).Renumbered (Equiv.swap 3 4) (state 100) := by
  -- All at once, for the runs are evaluated for each closed fact anew.
  obtain ⟨hcycle, hcursor, hregisters, hmemory, hactions, hlength, hlength', hstations⟩ :
      (state 100).cycle = (state 200).cycle ∧ (state 100).cursor = (state 200).cursor ∧
      (state 100).registers.entries =
        ((state 200).registers.mapValues (Register.renumber (Equiv.swap 3 4))).entries ∧
      (state 100).memory.entries = (state 200).memory.entries ∧
      (state 100).actions = (state 200).actions ∧
      (state 200).stations.length ≤ 8 ∧ (state 100).stations.length ≤ 8 ∧
      ∀ id < 8, Option.Rel (Station.Renumbered (Equiv.swap 3 4)) (state 200).stations[id]?
        (state 100).stations[Equiv.swap 3 4 id]? := by decide +kernel
  have hkept (id : Nat) (hle : 8 ≤ id) : Equiv.swap 3 4 id = id :=
    Equiv.swap_apply_of_ne_of_ne (by omega) (by omega)
  exact ⟨hcycle, hcursor, OrderedMap.ext hregisters,
    Pool.renumbered_of_forall_lt 8 hlength hlength' hkept hstations, OrderedMap.ext hmemory, hactions⟩

end Crowding

/-- The last sum is in different stations, but the next cycle reports the same on both machines. -/
theorem station_choice_unobservable_crowding :
    (Crowding.state 200).stations.slot? 4 = none ∧
      ((Crowding.state 100).stations.slot? 4).map Slot.codeOrder = some 11 ∧
      ((Crowding.state 200).cycleOnce Crowding.listing).report.Agrees
        ((Crowding.state 100).cycleOnce Crowding.listing).report := by
  have hsound : Configuration.error? {} = none := by decide
  have hlockstep := station_choice_unobservable hsound (Crowding.settled 200) (Crowding.settled 100)
    (Run.afterCycles 13) (Run.afterCycles 13) Crowding.renumbered
  exact ⟨by decide +kernel, by decide +kernel, hlockstep.2.1⟩

end Tomasulo
