import Tomasulo.Proofs.Task

/-!
# Renumbered machines

Stations are known by number: registers and operands name the station that they wait for.  This module
compares two machines whose stations are numbered differently, by a permutation of the numbers.  Each station
has the class of its counterpart and holds the same instruction, with its tags renumbered, and registers wait
for the counterparts of the stations that they waited for; all the rest is equal (`State.Renumbered`).
Stations keep their names, so names say nothing here.

A task does the same on both machines, if it is renumbered as well (`Task.perform_renumbered`).  Scans of the
pool do not notice the numbers, because a guard asks whether some station is in the way, and not for the first
one (`Pool.Renumbered.olderConflict`); a publication goes to all that wait; and what an event says is the same
apart from the names of stations (`Event.anonymous`).
-/

namespace Tomasulo

/-! ## Renumbering -/

/-- A register with other numbers for the stations. -/
def Register.renumber (number : Nat → Nat) : Register → Register
  | pending station => pending (number station)
  | register => register

/-- An operand with other numbers for the stations. -/
def Operand.renumber (number : Nat → Nat) : Operand → Operand
  | waiting station => waiting (number station)
  | operand => operand

/-- A slot with other numbers for the stations. -/
def Slot.renumber (number : Nat → Nat) (slot : Slot) : Slot :=
  { slot with j := slot.j.renumber number, k := slot.k.renumber number }

/-- A task with other numbers for the stations. -/
def Task.renumber (number : Nat → Nat) : Task → Task
  | issue instruction id => issue instruction (number id)
  | branch instruction comparison lhs rhs target => branch instruction comparison lhs rhs target
  | jump instruction target => jump instruction target
  | compute id => compute (number id)
  | locate id => locate (number id)
  | load id => load (number id)
  | publish id => publish (number id)
  | commit id => commit (number id)

/-- What an instruction finds in a register, without the name of a station. -/
def Reading.anonymous : Reading → Reading
  | awaits _ => awaits ""
  | reading => reading

/-- An event without the names of stations. -/
def Event.anonymous : Event → Event
  | issued instruction _ readings =>
      issued instruction "" (readings.map fun entry => (entry.1, entry.2.anonymous))
  | branched instruction comparison lhs rhs target => branched instruction comparison lhs rhs target
  | jumped instruction target => jumped instruction target
  | worked _ codeOrder left => worked "" codeOrder left
  | computed _ codeOrder op lhs rhs result => computed "" codeOrder op lhs rhs result
  | located _ codeOrder baseValue offset address => located "" codeOrder baseValue offset address
  | accessed _ codeOrder left => accessed "" codeOrder left
  | loaded _ codeOrder value address => loaded "" codeOrder value address
  | published _ codeOrder value registers _ => published "" codeOrder value registers []
  | storing _ codeOrder left => storing "" codeOrder left
  | stored _ codeOrder value address => stored "" codeOrder value address

/-- Whether two stations are of one class and hold the same, apart from the numbers of stations. -/
structure Station.Renumbered (number : Nat → Nat) (station other : Station) : Prop where
  stationClass : other.stationClass = station.stationClass
  working : other.working = station.working
  slot : other.slot = station.slot.map (Slot.renumber number)

/-- Whether each station of a pool has its counterpart in another one. -/
def Pool.Renumbered (number : Equiv.Perm Nat) (pool other : Pool) : Prop :=
  ∀ id, Option.Rel (Station.Renumbered number) pool[id]? other[number id]?

/-- Whether two states are equal up to a permutation of the stations that keeps their classes. -/
structure State.Renumbered (number : Equiv.Perm Nat) (state other : State) : Prop where
  cycle : other.cycle = state.cycle
  cursor : other.cursor = state.cursor
  registers : other.registers = state.registers.mapValues (Register.renumber number)
  stations : state.stations.Renumbered number other.stations
  memory : other.memory = state.memory
  actions : other.actions = state.actions

/-! ## Comparing machines -/

deriving instance DecidableEq for Operand, Address, Slot, Register

section Evaluation

variable {number : Nat → Nat}

instance (station other : Station) : Decidable (Station.Renumbered number station other) :=
  decidable_of_iff (other.stationClass = station.stationClass ∧ other.working = station.working ∧
      other.slot = station.slot.map (Slot.renumber number))
    ⟨fun ⟨hclass, hworking, hslot⟩ => ⟨hclass, hworking, hslot⟩,
      fun h => ⟨h.stationClass, h.working, h.slot⟩⟩

instance (station? other? : Option Station) :
    Decidable (Option.Rel (Station.Renumbered number) station? other?) :=
  match station?, other? with
  | none, none => isTrue .none
  | none, some _ => isFalse nofun
  | some _, none => isFalse nofun
  | some station, some other =>
      decidable_of_iff (Station.Renumbered number station other) ⟨.some, fun | .some h => h⟩

end Evaluation

/-- Pools are compared station by station, if all numbers from a bound on are kept. -/
theorem Pool.renumbered_of_forall_lt {number : Equiv.Perm Nat} {pool other : Pool} (bound : Nat)
    (hpool : pool.length ≤ bound) (hother : other.length ≤ bound)
    (hkept : ∀ id, bound ≤ id → number id = id)
    (hstations : ∀ id < bound, Option.Rel (Station.Renumbered number) pool[id]? other[number id]?) :
    pool.Renumbered number other := by
  intro id
  by_cases hlt : id < bound
  · exact hstations id hlt
  · have hle : bound ≤ id := Nat.le_of_not_lt hlt
    rw [hkept id hle, List.getElem?_eq_none (hpool.trans hle), List.getElem?_eq_none (hother.trans hle)]
    exact .none

/-! ## Nameless events -/

section Anonymous

variable (event : Event)

@[simp]
theorem Event.codeOrder_anonymous : event.anonymous.codeOrder = event.codeOrder := by
  cases event <;> rfl

@[simp]
theorem Event.action_anonymous : event.anonymous.action = event.action := by
  cases event <;> rfl

@[simp]
theorem Event.control?_anonymous : event.anonymous.control? = event.control? := by
  cases event <;> rfl

@[simp]
theorem Event.isIssue_anonymous : event.anonymous.isIssue = event.isIssue := by
  cases event <;> rfl

@[simp]
theorem Event.isBroadcast_anonymous : event.anonymous.isBroadcast = event.isBroadcast := by
  cases event <;> rfl

@[simp]
theorem Event.isCommit_anonymous : event.anonymous.isCommit = event.isCommit := by
  cases event <;> rfl

end Anonymous

/-! ## Registers and slots -/

section Registers

variable (number : Equiv.Perm Nat) (file : RegisterFile) (name : String) (id : Nat) (value : Float)

@[simp]
theorem RegisterFile.get_renumber :
    get (file.mapValues (Register.renumber number)) name = (file.get name).renumber number := by
  unfold get
  rw [OrderedMap.find?_mapValues]
  cases file.find? name <;> rfl

theorem RegisterFile.await_renumber :
    await (file.mapValues (Register.renumber number)) name (number id) =
      (file.await name id).mapValues (Register.renumber number) := by
  apply OrderedMap.eq_of_find?_eq
  intro other
  unfold await
  rw [OrderedMap.find?_mapValues]
  by_cases hsame : other = name
  · rw [hsame, OrderedMap.find?_insert_self, OrderedMap.find?_insert_self]
    rfl
  · rw [OrderedMap.find?_insert_of_ne _ _ hsame, OrderedMap.find?_insert_of_ne _ _ hsame,
      OrderedMap.find?_mapValues]

@[simp]
theorem Register.receive_renumber (register : Register) :
    (register.renumber number).receive (number id) value =
      (register.receive id value).renumber number := by
  cases register with
  | empty => rfl
  | ready held => rfl
  | pending station =>
      simp only [renumber, receive_pending, EmbeddingLike.apply_eq_iff_eq]
      split <;> rfl

theorem RegisterFile.receive_renumber :
    receive (file.mapValues (Register.renumber number)) (number id) value =
      (file.receive id value).mapValues (Register.renumber number) := by
  apply OrderedMap.eq_of_find?_eq
  intro other
  unfold receive
  simp only [OrderedMap.find?_mapValues, Option.map_map]
  congr 1
  funext register
  exact Register.receive_renumber number id value register

/-- The registers that wait for a station are those that wait for its counterpart. -/
theorem RegisterFile.awaiting_renumber :
    awaiting (file.mapValues (Register.renumber number)) (number id) = file.awaiting id := by
  have hproducer (register : Register) :
      ((register.renumber number).producer? == some (number id)) = (register.producer? == some id) := by
    cases register <;> simp [Register.renumber, Register.producer?]
  unfold awaiting OrderedMap.mapValues
  simp only [List.filter_map, List.map_map, Function.comp_def, hproducer]

@[simp]
theorem Operand.isReady_renumber (operand : Operand) :
    (operand.renumber number).isReady = operand.isReady := by
  cases operand <;> rfl

@[simp]
theorem Operand.value?_renumber (operand : Operand) :
    (operand.renumber number).value? = operand.value? := by
  cases operand <;> rfl

theorem Operand.receive_renumber (operand : Operand) :
    (operand.renumber number).receive (number id) value = (operand.receive id value).renumber number := by
  cases operand with
  | empty => rfl
  | ready held => rfl
  | waiting station =>
      simp only [renumber, receive_waiting, EmbeddingLike.apply_eq_iff_eq]
      split <;> rfl

theorem Operand.ofRegister_renumber (register : Register) :
    ofRegister (register.renumber number) = (ofRegister register).renumber number := by
  cases register <;> rfl

theorem Slot.receive_renumber (slot : Slot) :
    (slot.renumber number).receive (number id) value = (slot.receive id value).renumber number := by
  simp only [receive, renumber, Operand.receive_renumber]

theorem Slot.capture?_renumber (instruction : Instruction) (seq delay : Nat) :
    Slot.capture? (file.mapValues (Register.renumber number)) instruction seq delay =
      (Slot.capture? file instruction seq delay).map (Slot.renumber number) := by
  unfold capture?
  cases instruction.operation <;>
    simp [Operand.ofRegister_renumber, Slot.renumber, Operand.renumber]

end Registers

/-! ## Pools -/

section Relations

variable {α β γ δ : Type} {r : α → β → Prop} {q : γ → δ → Prop} {a? : Option α} {b? : Option β}

theorem rel_cases (hrel : Option.Rel r a? b?) :
    (a? = none ∧ b? = none) ∨ ∃ a b, a? = some a ∧ b? = some b ∧ r a b := by
  cases hrel with
  | none => exact .inl ⟨rfl, rfl⟩
  | some hsome => exact .inr ⟨_, _, rfl, rfl, hsome⟩

theorem rel_map (hrel : Option.Rel r a? b?) {f : α → γ} {g : β → δ}
    (hkeep : ∀ {a b}, r a b → q (f a) (g b)) : Option.Rel q (a?.map f) (b?.map g) := by
  cases hrel with
  | none => exact .none
  | some hsome => exact .some (hkeep hsome)

theorem rel_bind (hrel : Option.Rel r a? b?) {f : α → Option γ} {g : β → Option δ}
    (hkeep : ∀ {a b}, r a b → Option.Rel q (f a) (g b)) : Option.Rel q (a?.bind f) (b?.bind g) := by
  cases hrel with
  | none => exact .none
  | some hsome => exact hkeep hsome

theorem rel_ite {p : Prop} [Decidable p] {c? c'? : Option γ} {d? d'? : Option δ}
    (hpos : Option.Rel q c? d?) (hneg : Option.Rel q c'? d'?) :
    Option.Rel q (if p then c? else c'?) (if p then d? else d'?) := by
  split
  · exact hpos
  · exact hneg

end Relations

section Pools

variable {number : Equiv.Perm Nat} {pool other : Pool} {id : Nat} {slot : Slot}

theorem Pool.Renumbered.modify (hpools : pool.Renumbered number other) {f g : Station → Station}
    (hsame : ∀ {station twin : Station}, station.Renumbered number twin →
      (f station).Renumbered number (g twin)) :
    Pool.Renumbered number (pool.modify id f) (other.modify (number id) g) := by
  intro site
  rw [List.getElem?_modify, List.getElem?_modify]
  refine rel_map (hpools site) fun hstation => ?_
  simp only [EmbeddingLike.apply_eq_iff_eq]
  split
  · exact hsame hstation
  · exact hstation

theorem Pool.Renumbered.map (hpools : pool.Renumbered number other) {f g : Station → Station}
    (hsame : ∀ {station twin : Station}, station.Renumbered number twin →
      (f station).Renumbered number (g twin)) :
    Pool.Renumbered number (pool.map f) (other.map g) := by
  intro site
  rw [List.getElem?_map, List.getElem?_map]
  exact rel_map (hpools site) hsame

theorem Pool.Renumbered.put (hpools : pool.Renumbered number other) :
    (pool.put id slot).Renumbered number (other.put (number id) (slot.renumber number)) :=
  hpools.modify fun hsame => ⟨hsame.stationClass, hsame.working, rfl⟩

theorem Pool.Renumbered.work (hpools : pool.Renumbered number other) :
    (pool.work id slot).Renumbered number (other.work (number id) (slot.renumber number)) :=
  hpools.modify fun hsame => ⟨hsame.stationClass, rfl, rfl⟩

theorem Pool.Renumbered.release (hpools : pool.Renumbered number other) :
    (pool.release id).Renumbered number (other.release (number id)) :=
  hpools.modify fun hsame => ⟨hsame.stationClass, hsame.working, rfl⟩

theorem Pool.Renumbered.rest (hpools : pool.Renumbered number other) :
    pool.rest.Renumbered number other.rest :=
  hpools.map fun hsame => ⟨hsame.stationClass, rfl, hsame.slot⟩

theorem Pool.Renumbered.receive (hpools : pool.Renumbered number other) (value : Float) :
    (pool.receive id value).Renumbered number (other.receive (number id) value) := by
  refine hpools.map fun {station twin} hsame => ⟨hsame.stationClass, hsame.working, ?_⟩
  show twin.slot.map _ = (station.slot.map _).map _
  rw [hsame.slot]
  cases station.slot with
  | none => rfl
  | some slot => exact congrArg some (Slot.receive_renumber number id value slot)

theorem Pool.Renumbered.slot? (hpools : pool.Renumbered number other) (id : Nat) :
    other.slot? (number id) = (pool.slot? id).map (Slot.renumber number) := by
  unfold Pool.slot?
  rcases rel_cases (hpools id) with ⟨hnone, hnone'⟩ | ⟨station, twin, hstation, htwin, hsame⟩
  · rw [hnone, hnone']
    rfl
  · rw [hstation, htwin]
    exact hsame.slot

/-- A guard asks whether some older instruction is in the way, whatever the number of its station. -/
theorem Pool.Renumbered.olderConflict (hpools : pool.Renumbered number other) {kind : Slot → Bool}
    (hkind : ∀ slot : Slot, kind (slot.renumber number) = kind slot) (slot : Slot) :
    other.olderConflict (slot.renumber number) kind = pool.olderConflict slot kind := by
  rw [Bool.eq_iff_iff, olderConflict_iff, olderConflict_iff]
  refine exists_congr fun address => and_congr_right fun _ => ?_
  constructor
  · rintro ⟨site, older, holder, hage, holderKind, hplace⟩
    rw [← number.apply_symm_apply site, hpools.slot?] at holder
    obtain ⟨held, hheld, rfl⟩ := Option.map_eq_some_iff.mp holder
    exact ⟨number.symm site, held, hheld, hage, (hkind held).symm.trans holderKind, hplace⟩
  · rintro ⟨site, older, holder, hage, holderKind, hplace⟩
    refine ⟨number site, older.renumber number, ?_, hage, (hkind older).trans holderKind, hplace⟩
    rw [hpools.slot?, holder, Option.map_some]

theorem Pool.Renumbered.loadBlocked (hpools : pool.Renumbered number other) (id : Nat) :
    other.loadBlocked (number id) = pool.loadBlocked id := by
  unfold Pool.loadBlocked
  rw [hpools.slot?, Option.any_map]
  congr 1
  funext slot
  exact hpools.olderConflict (fun _ => rfl) slot

theorem Pool.Renumbered.storeBlocked (hpools : pool.Renumbered number other) (id : Nat) :
    other.storeBlocked (number id) = pool.storeBlocked id := by
  unfold Pool.storeBlocked
  rw [hpools.slot?, Option.any_map]
  congr 1
  funext slot
  exact hpools.olderConflict (fun _ => rfl) slot

/-- Counterparts take equally long if the delays are matched. -/
theorem Pool.Renumbered.and_delay (hpools : pool.Renumbered number other)
    (hdelays : ∀ id, other.delay (number id) = pool.delay id) (id : Nat) :
    Option.Rel (fun station twin => station.Renumbered number twin ∧ twin.delay = station.delay)
      pool[id]? other[number id]? := by
  have hdelay := hdelays id
  unfold Pool.delay at hdelay
  rcases rel_cases (hpools id) with ⟨hnone, hnone'⟩ | ⟨station, twin, hstation, htwin, hsame⟩
  · rw [hnone, hnone']
    exact .none
  · rw [hstation, htwin] at hdelay ⊢
    exact .some ⟨hsame, hdelay⟩

end Pools

/-! ## Tasks -/

section Tasks

variable {listing : Listing} {number : Equiv.Perm Nat} {state other : State} {id : Nat} {slot : Slot}

/-- What comes of a task on one machine, against what comes of it on the other. -/
def Task.SameOutcome (number : Equiv.Perm Nat) (done other : Event × State) : Prop :=
  other.1.anonymous = done.1.anonymous ∧ done.2.Renumbered number other.2

variable (hsame : state.Renumbered number other)

include hsame

theorem State.Renumbered.tick : state.tick.Renumbered number other.tick where
  cycle := congrArg (· + 1) hsame.cycle
  cursor := hsame.cursor
  registers := hsame.registers
  stations := hsame.stations.rest
  memory := hsame.memory
  actions := congrArg (List.map fun _ => none) hsame.actions

theorem State.Renumbered.note (codeOrder : Nat) (action : Action) :
    (state.note codeOrder action).Renumbered number (other.note codeOrder action) :=
  { hsame with actions := congrArg (·.set codeOrder (some action)) hsame.actions }

theorem State.Renumbered.reading (name : String) :
    (other.reading name).anonymous = (state.reading name).anonymous := by
  unfold State.reading
  rw [hsame.registers, RegisterFile.get_renumber]
  cases state.registers.get name <;> rfl

theorem State.Renumbered.finishLoad (address : Int) :
    (State.finishLoad listing (number id) (slot.renumber number) address other).1 =
        (State.finishLoad listing id slot address state).1 ∧
      (State.finishLoad listing id slot address state).2.Renumbered number
        (State.finishLoad listing (number id) (slot.renumber number) address other).2 := by
  unfold State.finishLoad
  rw [hsame.memory]
  exact ⟨rfl, { hsame with memory := rfl, stations := hsame.stations.put }⟩

theorem State.Renumbered.advance (label : Option String) :
    { state with cursor := state.cursor.advance listing label }.Renumbered number
      { other with cursor := other.cursor.advance listing label } :=
  { hsame with cursor := congrArg (Cursor.advance listing label) hsame.cursor }

theorem State.Renumbered.work (next : Slot) :
    { state with stations := state.stations.work id next }.Renumbered number
      { other with stations := other.stations.work (number id) (next.renumber number) } :=
  { hsame with stations := hsame.stations.work }

/-- What is done with the content of a station is done with that of its counterpart. -/
theorem State.Renumbered.bind_slot {γ δ : Type} {q : γ → δ → Prop} {f : Station → Slot → Option γ}
    {g : Station → Slot → Option δ}
    (hkeep : ∀ station twin slot, Option.Rel q (f station slot) (g twin (slot.renumber number))) :
    Option.Rel q (state.stations[id]?.bind fun station => station.slot.bind (f station))
      (other.stations[number id]?.bind fun twin => twin.slot.bind (g twin)) := by
  refine rel_bind (hsame.stations id) fun {station twin} hstation => ?_
  rw [hstation.slot]
  cases station.slot with
  | none => exact .none
  | some slot => exact hkeep station twin slot

omit hsame in
theorem State.Renumbered.ite {condition twin : Bool} {first second first' second' : State}
    (hcondition : twin = condition) (hfirst : first.Renumbered number first')
    (hsecond : second.Renumbered number second') :
    (if condition then first else second).Renumbered number (if twin then first' else second') := by
  rw [hcondition]
  split
  · exact hfirst
  · exact hsecond

theorem State.Renumbered.issue (instruction : Instruction)
    (hdelays : ∀ id, other.stations.delay (number id) = state.stations.delay id) :
    Option.Rel (Task.SameOutcome number) (state.issue listing instruction id)
      (other.issue listing instruction (number id)) := by
  refine rel_bind (hsame.stations.and_delay hdelays id) fun {station twin} htwins => ?_
  simp only [Option.bind_eq_bind, htwins.2, hsame.cursor, hsame.registers, Slot.capture?_renumber]
  cases Slot.capture? state.registers instruction state.cursor.fetched station.delay with
  | none => exact .none
  | some slot =>
      refine .some ⟨?_, ?_⟩
      · simp only [Event.anonymous, List.map_map, Function.comp_def, hsame.reading]
      · refine { hsame with registers := ?_, stations := hsame.stations.put, cursor := rfl }
        cases instruction.operation.dest? with
        | none => rfl
        | some name => exact RegisterFile.await_renumber number state.registers name id

theorem State.Renumbered.compute :
    Option.Rel (Task.SameOutcome number) (state.compute id) (other.compute (number id)) := by
  refine hsame.bind_slot fun station twin slot => ?_
  obtain ⟨mnemonic, codeOrder, seq, op, j, k, address, step, result⟩ := slot
  -- Only arithmetic on two values has a last step.
  cases op <;> cases j <;> cases k <;> try exact .some ⟨rfl, hsame.work _⟩
  exact rel_ite (.some ⟨rfl, hsame.work _⟩) (.some ⟨rfl, hsame.work _⟩)

theorem State.Renumbered.locate :
    Option.Rel (Task.SameOutcome number) (state.locate listing id)
      (other.locate listing (number id)) := by
  refine hsame.bind_slot fun station twin slot => ?_
  obtain ⟨mnemonic, codeOrder, seq, op, j, k, address, step, result⟩ := slot
  rcases j with _ | baseValue | tag
  · exact .none
  · rcases address with _ | ⟨base, offset⟩ | ⟨address, base, baseValue', offset⟩
    · exact .none
    · let slot : Slot :=
        ⟨mnemonic, codeOrder, seq, op, .ready baseValue, k, some (.symbolic base offset), step, result⟩
      have hlocated : Renumbered number
          { state with stations := state.stations.work id (slot.located base baseValue offset) } _ :=
        hsame.work _
      refine .some ⟨rfl, ?_⟩
      -- The guard is asked on both machines, and gives the same answer.
      have hguard := congrArg (fun blocked => decide (slot.step - 1 = 0) && slot.isLoad && !blocked)
        (hlocated.stations.loadBlocked id)
      exact .ite hguard (hlocated.finishLoad _).2 hlocated
    · exact .none
  · exact .none

theorem State.Renumbered.load :
    Option.Rel (Task.SameOutcome number) (state.load listing id) (other.load listing (number id)) := by
  refine hsame.bind_slot fun station twin slot => ?_
  have haddress : (slot.renumber number).effective? = slot.effective? := rfl
  simp only [Option.bind_eq_bind, haddress]
  cases slot.effective? with
  | none => exact .none
  | some address =>
      obtain ⟨hvalue, hread⟩ := (hsame.work { slot with step := slot.step - 1 }).finishLoad address
      refine rel_ite (.some ⟨?_, hread⟩) (.some ⟨rfl, hsame.work _⟩)
      exact congrArg (Event.loaded "" slot.codeOrder · address) hvalue

theorem State.Renumbered.publish :
    Option.Rel (Task.SameOutcome number) (state.publish id) (other.publish (number id)) := by
  refine hsame.bind_slot fun station twin slot => ?_
  have hresult : (slot.renumber number).result = slot.result := rfl
  simp only [Option.bind_eq_bind, hresult]
  cases slot.result with
  | none => exact .none
  | some value =>
      refine .some ⟨?_, ?_⟩
      · rw [hsame.registers, RegisterFile.awaiting_renumber]
        rfl
      · refine { hsame with registers := ?_, stations := (hsame.stations.receive value).release }
        rw [hsame.registers]
        exact RegisterFile.receive_renumber number state.registers id value

theorem State.Renumbered.commit :
    Option.Rel (Task.SameOutcome number) (state.commit id) (other.commit (number id)) := by
  refine hsame.bind_slot fun station twin slot => ?_
  have haddress : (slot.renumber number).effective? = slot.effective? := rfl
  have hk : (slot.renumber number).k.value? = slot.k.value? := Operand.value?_renumber number slot.k
  simp only [Option.bind_eq_bind, haddress, hk]
  cases slot.effective? with
  | none => exact .none
  | some address =>
      cases slot.k.value? with
      | none => exact .none
      | some value =>
          refine rel_ite (.some ⟨rfl, ?_⟩) (.some ⟨rfl, hsame.work _⟩)
          exact { hsame with
            memory := congrArg (·.write address value) hsame.memory
            stations := hsame.stations.work.release }

/-- A task does the same on both machines. -/
theorem Task.perform_renumbered
    (hdelays : ∀ id, other.stations.delay (number id) = state.stations.delay id) (task : Task) :
    Option.Rel (Task.SameOutcome number) (task.perform listing state)
      ((task.renumber number).perform listing other) := by
  cases task with
  | issue instruction id => exact hsame.issue instruction hdelays
  | branch instruction comparison lhs rhs target => exact .some ⟨rfl, hsame.advance _⟩
  | jump instruction target => exact .some ⟨rfl, hsame.advance _⟩
  | compute id => exact hsame.compute
  | locate id => exact hsame.locate
  | load id => exact hsame.load
  | publish id => exact hsame.publish
  | commit id => exact hsame.commit

end Tasks

end Tomasulo
