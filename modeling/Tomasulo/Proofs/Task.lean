import Tomasulo.Proofs.Journal
import Tomasulo.Proofs.Pool
import Tomasulo.Proofs.Position
import Tomasulo.Proofs.Storage

/-!
# What each task needs and what it does

A task of a plan was found possible on the state at the beginning of the cycle.  `Task.Enabled` says
what that means, and for each task one lemma `..._spec` says everything the task does: the event, and
the state after it as an update of the state before.  Later proofs use these lemmas and never unfold a
task.

Most tasks leave the tags of the machine alone: they advance one instruction in its station and change
neither registers nor operands.  `Working` describes them all at once.
-/

namespace Tomasulo

/-! ## What a task needs -/

/-- Whether a station task can be carried out on what its station holds. -/
def Slot.Suits (slot : Slot) (delay : Nat) : Task → Prop
  | .compute _ =>
      (∃ op lhs rhs, slot.op = .alu op ∧ slot.j = .ready lhs ∧ slot.k = .ready rhs) ∧
        0 < slot.step ∧ slot.step ≤ delay
  | .locate _ =>
      (slot.op = .load ∨ slot.op = .store) ∧ slot.step = delay ∧ slot.effective? = none ∧
        ∃ baseValue, slot.j = .ready baseValue
  | .load _ =>
      slot.op = .load ∧ (∃ address, slot.effective? = some address) ∧ slot.step < delay ∧
        slot.result = none
  | .publish _ => slot.op ≠ .store ∧ slot.step = 0 ∧ ∃ value, slot.result = some value
  | .commit _ =>
      slot.op = .store ∧ (∃ address, slot.effective? = some address) ∧ slot.step < delay ∧
        ∃ value, slot.k = .ready value
  | .issue .. | .branch .. | .jump .. => False

/-- Whether a task can be carried out on a state. -/
def Task.Enabled (listing : Listing) (state : State) : Task → Prop
  | .issue instruction id =>
      state.cursor.next? listing = some instruction ∧ instruction.isControl = false ∧
        ∃ station, state.stations[id]? = some station ∧ station.slot = none ∧
          station.stationClass.accepts instruction.opClass = true
  | .branch instruction comparison lhs rhs target =>
      state.cursor.next? listing = some instruction ∧
        ∃ left right, instruction.operation = .branch comparison left right target ∧
          state.registers.get left = .ready lhs ∧ state.registers.get right = .ready rhs
  | .jump instruction target =>
      state.cursor.next? listing = some instruction ∧ instruction.operation = .jump target
  | task => ∃ id slot, task.station? = some id ∧ state.stations.slot? id = some slot ∧
      slot.Suits (state.stations.delay id) task

theorem Task.enabled_iff {listing : Listing} {state : State} {task : Task} {id : Nat}
    (hstation : task.station? = some id) :
    task.Enabled listing state ↔
      ∃ slot, state.stations.slot? id = some slot ∧ slot.Suits (state.stations.delay id) task := by
  cases task <;> simp_all [Task.station?, Task.Enabled]

/-- The station that a task changes: that of a station task, and the one that an issue fills. -/
def Task.site? : Task → Option Nat
  | .issue _ id => some id
  | task => task.station?

theorem Task.site?_eq {task : Task} {id : Nat} (hstation : task.station? = some id) :
    task.site? = some id := by
  cases task <;> first
    | exact hstation
    | exact absurd hstation (by simp [Task.station?])

/-- A later task of a plan is a station task, on another station than an earlier one. -/
def Task.Apart (earlier later : Task) : Prop :=
  ∃ id, later.station? = some id ∧ earlier.site? ≠ some id

section Operands

variable {operand : Operand} {producer : Nat} {value : Float}

theorem Operand.isReady_iff : operand.isReady = true ↔ ∃ held, operand = .ready held := by
  cases operand <;> simp [isReady]

theorem Operand.value?_eq_some_iff : operand.value? = some value ↔ operand = .ready value := by
  cases operand <;> simp [value?]

theorem Operand.receive_waiting (station : Nat) :
    (Operand.waiting station).receive producer value =
      if station = producer then .ready value else .waiting station := by
  unfold receive waitsFor
  by_cases hsame : station = producer <;> simp [hsame]

@[simp]
theorem Operand.receive_ready (held : Float) :
    (Operand.ready held).receive producer value = .ready held := by
  simp [receive, waitsFor]

@[simp]
theorem Operand.receive_empty : Operand.empty.receive producer value = .empty := by
  simp [receive, waitsFor]

/-- Operands follow registers: both receive in the same way. -/
theorem Operand.receive_ofRegister (register : Register) :
    (ofRegister register).receive producer value = ofRegister (register.receive producer value) := by
  cases register with
  | empty => simp [ofRegister]
  | ready held => simp [ofRegister]
  | pending station =>
      rw [ofRegister, receive_waiting, Register.receive_pending]
      by_cases hsame : station = producer <;> simp [hsame, ofRegister]

theorem Register.value?_eq_some_iff {register : Register} :
    register.value? = some value ↔ register = .ready value := by
  cases register <;> simp [value?]

end Operands

/-- A publication takes nothing away that a task needs. -/
theorem Slot.Suits.receive {slot : Slot} {delay : Nat} {task : Task} (hsuits : slot.Suits delay task)
    (producer : Nat) (value : Float) : (slot.receive producer value).Suits delay task := by
  cases task with
  | compute id =>
      obtain ⟨⟨op, lhs, rhs, hop, hj, hk⟩, hstep⟩ := hsuits
      exact ⟨⟨op, lhs, rhs, hop, by simp [Slot.receive, hj], by simp [Slot.receive, hk]⟩, hstep⟩
  | locate id =>
      obtain ⟨hop, hstep, haddress, baseValue, hj⟩ := hsuits
      exact ⟨hop, hstep, haddress, baseValue, by simp [Slot.receive, hj]⟩
  | load id => exact hsuits
  | publish id => exact hsuits
  | commit id =>
      obtain ⟨hop, haddress, hstep, held, hk⟩ := hsuits
      exact ⟨hop, haddress, hstep, held, by simp [Slot.receive, hk]⟩
  | issue _ _ => exact hsuits
  | branch _ _ _ _ _ => exact hsuits
  | jump _ _ => exact hsuits

/-- In a station that takes time, at most one task can be carried out. -/
theorem Slot.Suits.unique {slot : Slot} {delay id : Nat} {task other : Task} (hdelay : 0 < delay)
    (htask : slot.Suits delay task) (hother : slot.Suits delay other)
    (hid : task.station? = some id) (hid' : other.station? = some id) : task = other := by
  -- Different phases want another operation, another step or another state of the address.
  cases task <;> cases other <;> simp only [Task.station?, reduceCtorEq] at hid hid' <;>
    simp only [Suits] at htask hother <;> grind

/-! ## What a task does -/

section Spec

variable {listing : Listing} {state after : State} {event : Event} {id : Nat} {slot : Slot}

/-- The registers after an instruction with a destination has entered a station. -/
def RegisterFile.renamed (file : RegisterFile) (dest : Option String) (id : Nat) : RegisterFile :=
  match dest with
  | some name => file.await name id
  | none => file

theorem RegisterFile.get_renamed (file : RegisterFile) (dest : Option String) (id : Nat)
    (name : String) :
    (file.renamed dest id).get name = if dest = some name then .pending id else file.get name := by
  cases dest with
  | none => simp [renamed]
  | some other =>
      rw [renamed, get_await]
      by_cases hsame : name = other
      · simp [hsame]
      · simp [hsame, Ne.symm hsame]

theorem issue_spec {instruction : Instruction}
    (hperform : state.issue listing instruction id = some (event, after)) :
    ∃ slot name readings, id < state.stations.length ∧
      Slot.capture? state.registers instruction state.cursor.fetched (state.stations.delay id) =
        some slot ∧
      event = .issued instruction name readings ∧
      after =
        { state with
          registers := state.registers.renamed instruction.operation.dest? id
          stations := state.stations.put id slot
          cursor := state.cursor.advance listing none } := by
  unfold State.issue at hperform
  simp only [Option.bind_eq_bind, Option.bind_eq_some_iff, Option.pure_def, Option.some.injEq,
    Prod.mk.injEq] at hperform
  obtain ⟨station, hstation, slot, hslot, rfl, rfl⟩ := hperform
  refine ⟨slot, station.name, _, (List.getElem?_eq_some_iff.mp hstation).1, ?_, rfl, rfl⟩
  rw [Pool.delay_eq hstation]
  exact hslot

theorem compute_spec {op : AluOp} {lhs rhs : Float} (hslot : state.stations.slot? id = some slot)
    (hop : slot.op = .alu op) (hj : slot.j = .ready lhs) (hk : slot.k = .ready rhs)
    (hperform : state.compute id = some (event, after)) :
    ∃ name,
      (slot.step - 1 = 0 ∧
        event = .computed name slot.codeOrder op lhs rhs (op.apply lhs rhs) ∧
        after =
          { state with
            stations := state.stations.work id
              { slot with step := slot.step - 1, result := some (op.apply lhs rhs) } }) ∨
      (slot.step - 1 ≠ 0 ∧ event = .worked name slot.codeOrder (slot.step - 1) ∧
        after =
          { state with stations := state.stations.work id { slot with step := slot.step - 1 } }) := by
  obtain ⟨station, hstation, hheld⟩ := Pool.slot?_eq_some_iff.mp hslot
  refine ⟨station.name, ?_⟩
  unfold State.compute at hperform
  simp only [hstation, hheld, hop, hj, hk, Option.bind_eq_bind, Option.bind_some] at hperform
  split at hperform
  case isTrue hlast =>
    simp only [Option.pure_def, Option.some.injEq, Prod.mk.injEq] at hperform
    exact .inl ⟨hlast, hperform.1.symm, by rw [← hperform.2, hlast, hop, hj, hk]⟩
  case isFalse hmore =>
    simp only [Option.pure_def, Option.some.injEq, Prod.mk.injEq] at hperform
    exact .inr ⟨hmore, hperform.1.symm, by rw [← hperform.2, hop, hj, hk]⟩

/-- The state after a load has read its cell into its station. -/
def State.afterRead (listing : Listing) (state : State) (id : Nat) (slot : Slot) (address : Int) :
    State :=
  { state with
    memory := state.memory.fill address (State.sampleFor listing slot.codeOrder)
    stations := (state.stations.work id slot).put id
      { slot with
        result := some (state.memory.readOr address (State.sampleFor listing slot.codeOrder)) } }

/-- A slot that has computed its address. -/
def Slot.located (slot : Slot) (base : String) (baseValue : Float) (offset : Int) : Slot :=
  { slot with
    address := some (.effective (effectiveAddress baseValue offset) base baseValue offset)
    step := slot.step - 1 }

theorem locate_spec (hslot : state.stations.slot? id = some slot)
    (hperform : state.locate listing id = some (event, after)) :
    ∃ name baseValue base offset,
      slot.j = .ready baseValue ∧ slot.address = some (.symbolic base offset) ∧
      event = .located name slot.codeOrder baseValue offset (effectiveAddress baseValue offset) ∧
      ((slot.op = .load ∧ slot.step - 1 = 0 ∧
          (state.stations.work id (slot.located base baseValue offset)).loadBlocked id = false ∧
          after = state.afterRead listing id (slot.located base baseValue offset)
            (effectiveAddress baseValue offset)) ∨
        ((slot.op = .load → slot.step - 1 = 0 →
            (state.stations.work id (slot.located base baseValue offset)).loadBlocked id = true) ∧
          after =
            { state with
              stations := state.stations.work id (slot.located base baseValue offset) })) := by
  obtain ⟨station, hstation, hheld⟩ := Pool.slot?_eq_some_iff.mp hslot
  unfold State.locate at hperform
  simp only [hstation, hheld, Option.bind_eq_bind, Option.bind_some] at hperform
  split at hperform
  case h_2 => exact absurd hperform (by simp)
  case h_1 baseValue base offset hj haddress =>
    simp only [Option.pure_def, Option.some.injEq, Prod.mk.injEq] at hperform
    obtain ⟨hevent, hafter⟩ := hperform
    refine ⟨station.name, baseValue, base, offset, hj, haddress, hevent.symm, ?_⟩
    -- Whether the address belongs to a load that reads at once.
    split at hafter
    case isTrue hread =>
      simp only [Slot.isLoad, Bool.and_eq_true, beq_iff_eq, decide_eq_true_eq,
        Bool.not_eq_true'] at hread
      exact .inl ⟨hread.1.2, hread.1.1, hread.2, hafter.symm⟩
    case isFalse hwait =>
      refine .inr ⟨fun hop hstep => ?_, hafter.symm⟩
      simpa [Slot.located, Slot.isLoad, hop, hstep] using hwait

theorem load_spec {address : Int} (hslot : state.stations.slot? id = some slot)
    (haddress : slot.effective? = some address)
    (hperform : state.load listing id = some (event, after)) :
    ∃ name,
      (slot.step - 1 = 0 ∧
        event = .loaded name slot.codeOrder
          (state.memory.readOr address (State.sampleFor listing slot.codeOrder)) address ∧
        after = state.afterRead listing id { slot with step := slot.step - 1 } address) ∨
      (slot.step - 1 ≠ 0 ∧ event = .accessed name slot.codeOrder (slot.step - 1) ∧
        after =
          { state with stations := state.stations.work id { slot with step := slot.step - 1 } }) := by
  obtain ⟨station, hstation, hheld⟩ := Pool.slot?_eq_some_iff.mp hslot
  refine ⟨station.name, ?_⟩
  unfold State.load at hperform
  simp only [hstation, hheld, haddress, Option.bind_eq_bind, Option.bind_some] at hperform
  split at hperform
  case isTrue hlast =>
    simp only [Option.pure_def, Option.some.injEq, Prod.mk.injEq] at hperform
    exact .inl ⟨hlast, hperform.1.symm, hperform.2.symm⟩
  case isFalse hmore =>
    simp only [Option.pure_def, Option.some.injEq, Prod.mk.injEq] at hperform
    exact .inr ⟨hmore, hperform.1.symm, hperform.2.symm⟩

theorem publish_spec (hperform : state.publish id = some (event, after)) :
    ∃ slot value name registers stations,
      state.stations.slot? id = some slot ∧ slot.result = some value ∧
      event = .published name slot.codeOrder value registers stations ∧
      after =
        { state with
          registers := state.registers.receive id value
          stations := (state.stations.receive id value).release id } := by
  unfold State.publish at hperform
  simp only [Option.bind_eq_bind, Option.bind_eq_some_iff, Option.pure_def, Option.some.injEq,
    Prod.mk.injEq] at hperform
  obtain ⟨station, hstation, slot, hheld, value, hvalue, hevent, hafter⟩ := hperform
  exact ⟨slot, value, station.name, _, _, Pool.slot?_eq_some_iff.mpr ⟨station, hstation, hheld⟩,
    hvalue, hevent.symm, hafter.symm⟩

theorem commit_spec {address : Int} {value : Float} (hslot : state.stations.slot? id = some slot)
    (haddress : slot.effective? = some address) (hk : slot.k = .ready value)
    (hperform : state.commit id = some (event, after)) :
    ∃ name,
      (slot.step - 1 = 0 ∧ event = .stored name slot.codeOrder value address ∧
        after =
          { state with
            memory := state.memory.write address value
            stations := (state.stations.work id { slot with step := slot.step - 1 }).release id }) ∨
      (slot.step - 1 ≠ 0 ∧ event = .storing name slot.codeOrder (slot.step - 1) ∧
        after =
          { state with stations := state.stations.work id { slot with step := slot.step - 1 } }) := by
  obtain ⟨station, hstation, hheld⟩ := Pool.slot?_eq_some_iff.mp hslot
  refine ⟨station.name, ?_⟩
  unfold State.commit at hperform
  simp only [hstation, hheld, haddress, hk, Operand.value?, Option.bind_eq_bind,
    Option.bind_some] at hperform
  split at hperform
  case isTrue hlast =>
    simp only [Option.pure_def, Option.some.injEq, Prod.mk.injEq] at hperform
    exact .inl ⟨hlast, hperform.1.symm, by rw [← hperform.2, hk]⟩
  case isFalse hmore =>
    simp only [Option.pure_def, Option.some.injEq, Prod.mk.injEq] at hperform
    exact .inr ⟨hmore, hperform.1.symm, by rw [← hperform.2, hk]⟩

end Spec

/-! ## How a state changes -/

/-- One instruction goes on in its station; tags, registers and the cursor stay as they are. -/
structure Working (before after : State) (id : Nat) (slot next : Slot) : Prop where
  held : before.stations.slot? id = some slot
  seq : next.seq = slot.seq
  op : next.op = slot.op
  j : next.j = slot.j
  k : next.k = slot.k
  cursor : after.cursor = before.cursor
  registers : after.registers = before.registers
  slots : ∀ other,
    after.stations.slot? other = if other = id then some next else before.stations.slot? other
  delays : ∀ other, after.stations.delay other = before.stations.delay other
  length : after.stations.length = before.stations.length

/-- Everything that can happen to the tags of a machine when an enabled task is carried out. -/
inductive Change (listing : Listing) (before : State) : Task → Event → State → Prop
  /-- An instruction enters a station and renames its destination. -/
  | enter {instruction : Instruction} {id : Nat} {slot : Slot} {name : String}
      {readings : List (String × Reading)} (hnext : before.cursor.next? listing = some instruction)
      (hbound : id < before.stations.length) (hfree : before.stations.slot? id = none)
      (hslot : Slot.capture? before.registers instruction before.cursor.fetched
        (before.stations.delay id) = some slot) :
      Change listing before (.issue instruction id) (.issued instruction name readings)
        { before with
          registers := before.registers.renamed instruction.operation.dest? id
          stations := before.stations.put id slot
          cursor := before.cursor.advance listing none }
  /-- A branch or jump moves the cursor. -/
  | steer {task : Task} {event : Event} {instruction : Instruction} {label : Option String}
      (hfetch : task.station? = none) (hsilent : event.published? = none)
      (hnext : before.cursor.next? listing = some instruction)
      (hcontrol : instruction.isControl = true) :
      Change listing before task event { before with cursor := before.cursor.advance listing label }
  /-- An instruction goes on in its station. -/
  | work {task : Task} {event : Event} {after : State} {id : Nat} {slot next : Slot}
      (hstation : task.station? = some id) (hsilent : event.published? = none)
      (hworking : Working before after id slot next) : Change listing before task event after
  /-- A result goes to all registers and operands that wait for it, and its station is freed. -/
  | publish {id : Nat} {slot : Slot} {value : Float} {name : String}
      {registers stations : List String} (hslot : before.stations.slot? id = some slot)
      (hvalue : slot.result = some value) :
      Change listing before (.publish id)
        (.published name slot.codeOrder value registers stations)
        { before with
          registers := before.registers.receive id value
          stations := (before.stations.receive id value).release id }
  /-- A store writes memory and its station is freed. -/
  | store {id : Nat} {slot next : Slot} {name : String} {value : Float} {address : Int}
      (hslot : before.stations.slot? id = some slot) (hop : slot.op = .store)
      (haddress : slot.effective? = some address) (hvalue : slot.k = .ready value) :
      Change listing before (.commit id) (.stored name slot.codeOrder value address)
        { before with
          memory := before.memory.write address value
          stations := (before.stations.work id next).release id }

section Change

variable {listing : Listing} {before after : State} {task : Task} {event : Event} {id : Nat}

theorem working_of_work {slot next : Slot} (hslot : before.stations.slot? id = some slot)
    (hsame : next.seq = slot.seq ∧ next.op = slot.op ∧ next.j = slot.j ∧ next.k = slot.k) :
    Working before { before with stations := before.stations.work id next } id slot next where
  held := hslot
  seq := hsame.1
  op := hsame.2.1
  j := hsame.2.2.1
  k := hsame.2.2.2
  cursor := rfl
  registers := rfl
  slots _ := Pool.slot?_work (Pool.lt_length_of_slot? hslot)
  delays _ := Pool.delay_work
  length := Pool.length_work

theorem slot?_afterRead {slot : Slot} {address : Int} (hbound : id < before.stations.length) :
    (before.afterRead listing id slot address).stations.slot? id =
      some { slot with
        result := some (before.memory.readOr address (State.sampleFor listing slot.codeOrder)) } := by
  unfold State.afterRead
  rw [Pool.slot?_put (by simpa using hbound), if_pos rfl]

theorem working_of_afterRead {slot next : Slot} {address : Int}
    (hslot : before.stations.slot? id = some slot)
    (hsame : next.seq = slot.seq ∧ next.op = slot.op ∧ next.j = slot.j ∧ next.k = slot.k) :
    Working before (before.afterRead listing id next address) id slot
      { next with
        result := some
          (before.memory.readOr address (State.sampleFor listing next.codeOrder)) } where
  held := hslot
  seq := hsame.1
  op := hsame.2.1
  j := hsame.2.2.1
  k := hsame.2.2.2
  cursor := rfl
  registers := rfl
  slots other := by
    have hbound := Pool.lt_length_of_slot? hslot
    unfold State.afterRead
    rw [Pool.slot?_put (by simpa using hbound), Pool.slot?_work hbound]
    by_cases hsite : other = id <;> simp [hsite]
  delays _ := by simp [State.afterRead]
  length := by simp [State.afterRead]

/-- Whatever an enabled task does is one of the changes. -/
theorem change_of_perform (henabled : task.Enabled listing before)
    (hperform : task.perform listing before = some (event, after)) :
    Change listing before task event after := by
  cases task with
  | issue instruction id =>
      obtain ⟨hnext, -, station, hstation, hfree, -⟩ := henabled
      obtain ⟨slot, name, readings, hbound, hslot, rfl, rfl⟩ := issue_spec hperform
      exact .enter hnext hbound (by simp [Pool.slot?, hstation, hfree]) hslot
  | branch instruction comparison lhs rhs target =>
      obtain ⟨hnext, left, right, hoperation, -, -⟩ := henabled
      obtain ⟨rfl, rfl⟩ := Prod.mk.inj (Option.some.inj hperform)
      exact .steer rfl rfl hnext (by simp [Instruction.isControl, hoperation, Operation.isControl])
  | jump instruction target =>
      obtain ⟨hnext, hoperation⟩ := henabled
      obtain ⟨rfl, rfl⟩ := Prod.mk.inj (Option.some.inj hperform)
      exact .steer rfl rfl hnext (by simp [Instruction.isControl, hoperation, Operation.isControl])
  | compute id =>
      obtain ⟨slot, hslot, ⟨op, lhs, rhs, hop, hj, hk⟩, -, -⟩ := (Task.enabled_iff rfl).mp henabled
      obtain ⟨name, ⟨-, rfl, rfl⟩ | ⟨-, rfl, rfl⟩⟩ := compute_spec hslot hop hj hk hperform
      · exact .work rfl rfl (working_of_work hslot ⟨rfl, rfl, rfl, rfl⟩)
      · exact .work rfl rfl (working_of_work hslot ⟨rfl, rfl, rfl, rfl⟩)
  | locate id =>
      obtain ⟨slot, hslot, -⟩ := (Task.enabled_iff rfl).mp henabled
      obtain ⟨_, _, _, _, -, -, rfl, ⟨-, -, -, rfl⟩ | ⟨-, rfl⟩⟩ := locate_spec hslot hperform
      · exact .work rfl rfl (working_of_afterRead hslot ⟨rfl, rfl, rfl, rfl⟩)
      · exact .work rfl rfl (working_of_work hslot ⟨rfl, rfl, rfl, rfl⟩)
  | load id =>
      obtain ⟨slot, hslot, -, ⟨address, haddress⟩, -⟩ := (Task.enabled_iff rfl).mp henabled
      obtain ⟨_, ⟨-, rfl, rfl⟩ | ⟨-, rfl, rfl⟩⟩ := load_spec hslot haddress hperform
      · exact .work rfl rfl (working_of_afterRead hslot ⟨rfl, rfl, rfl, rfl⟩)
      · exact .work rfl rfl (working_of_work hslot ⟨rfl, rfl, rfl, rfl⟩)
  | publish id =>
      obtain ⟨slot, value, _, _, _, hslot, hvalue, rfl, rfl⟩ := publish_spec hperform
      exact .publish hslot hvalue
  | commit id =>
      obtain ⟨slot, hslot, hop, ⟨address, haddress⟩, -, value, hk⟩ :=
        (Task.enabled_iff rfl).mp henabled
      obtain ⟨_, ⟨-, rfl, rfl⟩ | ⟨-, rfl, rfl⟩⟩ := commit_spec hslot haddress hk hperform
      · exact .store hslot hop haddress hk
      · exact .work rfl rfl (working_of_work hslot ⟨rfl, rfl, rfl, rfl⟩)

/-- No task changes how long a station takes. -/
theorem Change.delay (hchange : Change listing before task event after) (id : Nat) :
    after.stations.delay id = before.stations.delay id := by
  cases hchange with
  | work _ _ hworking => exact hworking.delays id
  | _ => simp

theorem Change.length (hchange : Change listing before task event after) :
    after.stations.length = before.stations.length := by
  cases hchange with
  | work _ _ hworking => exact hworking.length
  | _ => simp

/-- Only the fetch slot moves the cursor. -/
theorem Change.cursor_eq (hchange : Change listing before task event after)
    (hstation : task.station? = some id) : after.cursor = before.cursor := by
  cases hchange with
  | enter => exact absurd hstation (by simp [Task.station?])
  | steer hfetch => exact absurd (hfetch.symm.trans hstation) (by simp)
  | work _ _ hworking => exact hworking.cursor
  | publish => rfl
  | store => rfl

/-- Carrying out a task only appends to the order of fetching. -/
theorem Change.extends (hchange : Change listing before task event after) :
    after.cursor.Extends before.cursor := by
  cases hchange with
  | enter hnext _ _ _ => exact Cursor.extends_advance hnext none
  | steer _ _ hnext _ => exact Cursor.extends_advance hnext _
  | work _ _ hworking =>
      rw [hworking.cursor]
      exact Cursor.Extends.refl _
  | publish => exact Cursor.Extends.refl _
  | store => exact Cursor.Extends.refl _

/-- A station that a task does not change may at most receive a value. -/
theorem Change.slot?_of_ne (hchange : Change listing before task event after)
    (hother : task.site? ≠ some id) :
    after.stations.slot? id = before.stations.slot? id ∨
      ∃ producer value,
        after.stations.slot? id = (before.stations.slot? id).map (Slot.receive producer value) := by
  have hne {site : Nat} (hsite : task.site? = some site) : id ≠ site :=
    fun hsame => hother (hsame ▸ hsite)
  cases hchange with
  | enter _ hbound _ _ => exact .inl (by rw [Pool.slot?_put hbound, if_neg (hne rfl)])
  | steer => exact .inl rfl
  | work hstation _ hworking =>
      exact .inl (by rw [hworking.slots, if_neg (hne (Task.site?_eq hstation))])
  | publish hslot hvalue =>
      exact .inr ⟨_, _, by rw [Pool.slot?_release, if_neg (hne rfl), Pool.slot?_receive]⟩
  | store hslot _ _ _ =>
      have hbound := Pool.lt_length_of_slot? hslot
      exact .inl (by
        rw [Pool.slot?_release, if_neg (hne rfl), Pool.slot?_work hbound, if_neg (hne rfl)])

/-- A station task that is possible stays possible while tasks of other stations are carried out. -/
theorem Change.enabled (hchange : Change listing before task event after) {later : Task}
    (hapart : task.Apart later) (henabled : later.Enabled listing before) :
    later.Enabled listing after := by
  obtain ⟨id, hstation, hother⟩ := hapart
  obtain ⟨slot, hslot, hsuits⟩ := (Task.enabled_iff hstation).mp henabled
  rw [Task.enabled_iff hstation, hchange.delay]
  rcases hchange.slot?_of_ne hother with hsame | ⟨producer, value, hsame⟩
  · exact ⟨slot, hsame.trans hslot, hsuits⟩
  · exact ⟨_, by rw [hsame, hslot]; rfl, hsuits.receive producer value⟩

end Change

end Tomasulo
