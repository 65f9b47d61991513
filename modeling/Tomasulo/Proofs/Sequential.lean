import Tomasulo.Proofs.Dataflow

/-!
# The sequential machine

A machine that carries out one instruction at a time needs no stations and no tags (`Sequential`).  It
stops at an instruction that reads a register or a cell without a value.

Between two steps it stands at a cursor, and the machine with stations passes through the same cursors:
each of them is reached by deciding every branch on the values that program order gives to the registers
before it (`Execution.steered`).
-/

namespace Tomasulo

/-- A machine that carries out one instruction at a time. -/
structure Sequential where
  cursor : Cursor
  registers : RegisterFile
  memory : Memory

namespace Sequential

/-- The value that a register holds. -/
def value? (machine : Sequential) (name : String) : Option Float :=
  (machine.registers.get name).value?

/-- Gives a register a value and moves on. -/
def give (listing : Listing) (dest : String) (value : Float) (machine : Sequential) : Sequential :=
  { machine with
    cursor := machine.cursor.advance listing none
    registers := machine.registers.write dest value }

/-- Writes a cell and moves on. -/
def store (listing : Listing) (address : Int) (value : Float) (machine : Sequential) : Sequential :=
  { machine with
    cursor := machine.cursor.advance listing none
    memory := machine.memory.write address value }

/-- Moves on, to a label if one is given. -/
def steer (listing : Listing) (label : Option String) (machine : Sequential) : Sequential :=
  { machine with cursor := machine.cursor.advance listing label }

/-- Carries out what the next instruction does. -/
def perform? (listing : Listing) (machine : Sequential) (operation : Operation) : Option Sequential := do
  match operation with
  | .load dest base offset =>
      let baseValue ← machine.value? base
      let value ← machine.memory.read (effectiveAddress baseValue offset)
      return machine.give listing dest value
  | .loadImmediate dest value =>
      return machine.give listing dest (AluOp.add.apply (Float.ofInt value) (Float.ofInt 0))
  | .store source base offset =>
      let value ← machine.value? source
      let baseValue ← machine.value? base
      return machine.store listing (effectiveAddress baseValue offset) value
  | .arithmetic op dest lhs rhs =>
      let left ← machine.value? lhs
      let right ← machine.value? rhs
      return machine.give listing dest (op.apply left right)
  | .arithmeticImmediate op dest lhs value =>
      let left ← machine.value? lhs
      return machine.give listing dest (op.apply left (Float.ofInt value))
  | .branch comparison lhs rhs target =>
      let left ← machine.value? lhs
      let right ← machine.value? rhs
      return machine.steer listing (if comparison.holds left right then some target else none)
  | .jump target => return machine.steer listing (some target)

/-- Carries out the next instruction. -/
def step? (listing : Listing) (machine : Sequential) : Option Sequential :=
  (machine.cursor.next? listing).bind fun instruction => machine.perform? listing instruction.operation

/-- Carries out a number of instructions. -/
def run? (listing : Listing) (machine : Sequential) : Nat → Option Sequential
  | 0 => some machine
  | count + 1 => (machine.run? listing count).bind (step? listing)

end Sequential

/-! ## Cursors of an execution -/

/-- The label at which fetching goes on behind an instruction, on given values of the registers. -/
def Operation.label? (value? : String → Option Float) : Operation → Option (Option String)
  | .branch comparison lhs rhs target => do
      let left ← value? lhs
      let right ← value? rhs
      return if comparison.holds left right then some target else none
  | .jump target => some (some target)
  | _ => some none

namespace Sequential

variable {listing : Listing} {machine : Sequential} {operation : Operation} {address : Int}
  {left right value : Float}

theorem perform?_of_alu {op : AluOp} {lhs rhs : AluSource} {dest : String}
    (halu : operation.alu? = some (op, lhs, rhs)) (hdest : operation.dest? = some dest)
    (hleft : lhs.value? machine.value? = some left) (hright : rhs.value? machine.value? = some right) :
    machine.perform? listing operation = some (machine.give listing dest (op.apply left right)) := by
  cases operation <;>
    simp only [Operation.alu?, Operation.dest?, Option.some.injEq, Prod.mk.injEq, reduceCtorEq]
      at halu hdest
  case loadImmediate =>
    obtain ⟨rfl, rfl, rfl⟩ := halu
    rw [← Option.some.inj hleft, ← Option.some.inj hright, ← hdest]
    rfl
  case arithmetic =>
    obtain ⟨rfl, rfl, rfl⟩ := halu
    simp only [AluSource.value?] at hleft hright
    simp [perform?, hleft, hright, hdest]
  case arithmeticImmediate =>
    obtain ⟨rfl, rfl, rfl⟩ := halu
    simp only [AluSource.value?, Option.some.injEq] at hleft hright
    simp [perform?, hleft, hright, hdest]

theorem perform?_of_load {dest base : String} {offset : Int} (hload : operation = .load dest base offset)
    (haddress : operation.address? machine.value? = some address)
    (hcell : machine.memory.read address = some value) :
    machine.perform? listing operation = some (machine.give listing dest value) := by
  rw [Operation.address?_eq (by rw [hload]; rfl)] at haddress
  obtain ⟨baseValue, hbase, rfl⟩ := Option.map_eq_some_iff.mp haddress
  simp [perform?, hload, hbase, hcell]

theorem perform?_of_store {source base : String} {offset : Int}
    (hstore : operation = .store source base offset)
    (haddress : operation.address? machine.value? = some address)
    (hsource : machine.value? source = some value) :
    machine.perform? listing operation = some (machine.store listing address value) := by
  rw [Operation.address?_eq (by rw [hstore]; rfl)] at haddress
  obtain ⟨baseValue, hbase, rfl⟩ := Option.map_eq_some_iff.mp haddress
  simp [perform?, hstore, hbase, hsource]

theorem perform?_of_isControl {label : Option String} (hcontrol : operation.isControl = true)
    (hlabel : operation.label? machine.value? = some label) :
    machine.perform? listing operation = some (machine.steer listing label) := by
  cases operation with
  | branch comparison lhs rhs target =>
      simp only [Operation.label?, Option.bind_eq_bind, Option.bind_eq_some_iff] at hlabel
      obtain ⟨left, hleft, right, hright, hdecided⟩ := hlabel
      simp [perform?, hleft, hright, ← Option.some.inj hdecided]
  | jump target =>
      rw [← Option.some.inj hlabel]
      rfl
  | _ => exact absurd hcontrol (by simp [Operation.isControl])

end Sequential

/-- Cursors that are reached by deciding each branch on the values of the registers before its
position. -/
inductive Cursor.Steered (listing : Listing) (value? : String → Nat → Option Float) : Cursor → Prop
  | start : Steered listing value? (Cursor.start listing)
  | advance {cursor : Cursor} {instruction : Instruction} {label : Option String}
      (hsteered : Steered listing value? cursor) (hnext : cursor.next? listing = some instruction)
      (hlabel : instruction.operation.label? (value? · cursor.fetched) = some label) :
      Steered listing value? (cursor.advance listing label)

section Steered

variable {listing : Listing} {initial frozen state after : State} {journal : List Deed}
  {todo : List Task} {task : Task} {event : Event} {cursor : Cursor} {operation : Operation}
  {label : Option String}

theorem Operation.label?_mono {value? value?' : String → Option Float}
    (hlabel : operation.label? value? = some label)
    (hmore : ∀ name value, value? name = some value → value?' name = some value) :
    operation.label? value?' = some label := by
  cases operation with
  | branch comparison lhs rhs target =>
      simp only [label?, Option.bind_eq_bind, Option.bind_eq_some_iff] at hlabel ⊢
      obtain ⟨left, hleft, right, hright, hdecided⟩ := hlabel
      exact ⟨left, hmore lhs left hleft, right, hmore rhs right hright, hdecided⟩
  | _ => exact hlabel

theorem Operation.label?_of_not_isControl (value? : String → Option Float)
    (hcontrol : operation.isControl = false) : operation.label? value? = some none := by
  cases operation <;> first
    | rfl
    | exact absurd hcontrol (by simp [isControl])

theorem Cursor.Steered.mono {value? value?' : String → Nat → Option Float}
    (hsteered : cursor.Steered listing value?)
    (hmore : ∀ name n value, n < cursor.fetched → value? name n = some value →
      value?' name n = some value) : cursor.Steered listing value?' := by
  induction hsteered with
  | start => exact .start
  | @advance cursor instruction label _ hnext hlabel ih =>
      rw [fetched_advance hnext] at hmore
      refine .advance (ih fun name n value hn => hmore name n value (by omega)) hnext ?_
      exact Operation.label?_mono hlabel fun name value => hmore name _ value (by omega)

/-- A cursor has stood at each of its positions. -/
theorem Cursor.Steered.exists_at {value? : String → Nat → Option Float} {n : Nat}
    (hsteered : cursor.Steered listing value?) (hlt : n < cursor.fetched) :
    ∃ earlier instruction, earlier.Steered listing value? ∧ earlier.fetched = n ∧
      cursor.Extends earlier ∧ cursor.instructionAt? listing n = some instruction ∧
      earlier.next? listing = some instruction := by
  induction hsteered with
  | start => simp at hlt
  | @advance cursor instruction label hsteered hnext hlabel ih =>
      rw [fetched_advance hnext] at hlt
      have hextends := extends_advance hnext label
      rcases Nat.lt_succ_iff_lt_or_eq.mp hlt with hbefore | rfl
      · obtain ⟨earlier, instruction', hthere, hfetched, hlater, hat, hnext'⟩ := ih hbefore
        exact ⟨earlier, instruction', hthere, hfetched, hextends.trans hlater,
          (hextends.instructionAt? hbefore).trans hat, hnext'⟩
      · exact ⟨cursor, instruction, hsteered, rfl, hextends,
          by rw [instructionAt?_advance hnext, if_pos rfl], hnext⟩

/-- The cursor only moves when an instruction is fetched, on the registers as they stand. -/
theorem Task.steers (henabled : task.Enabled listing state)
    (hperform : task.perform listing state = some (event, after)) :
    after.cursor = state.cursor ∨
      ∃ instruction label, state.cursor.next? listing = some instruction ∧
        instruction.operation.label? (fun name => (state.registers.get name).value?) = some label ∧
        after.cursor = state.cursor.advance listing label := by
  cases task with
  | issue instruction id =>
      obtain ⟨hnext, hcontrol, -⟩ := henabled
      obtain ⟨_, _, _, -, -, -, rfl⟩ := issue_spec hperform
      exact .inr ⟨instruction, none, hnext, Operation.label?_of_not_isControl _ hcontrol, rfl⟩
  | branch instruction comparison lhs rhs target =>
      obtain ⟨hnext, left, right, hoperation, hleft, hright⟩ := henabled
      obtain ⟨-, rfl⟩ := Prod.mk.inj (Option.some.inj hperform)
      refine .inr ⟨instruction, _, hnext, ?_, rfl⟩
      rw [hoperation]
      simp [Operation.label?, hleft, hright, Register.value?]
  | jump instruction target =>
      obtain ⟨hnext, hoperation⟩ := henabled
      obtain ⟨-, rfl⟩ := Prod.mk.inj (Option.some.inj hperform)
      refine .inr ⟨instruction, some target, hnext, ?_, rfl⟩
      rw [hoperation]
      rfl
  | compute | locate | load | publish | commit =>
      exact .inl ((change_of_perform henabled hperform).cursor_eq rfl)

/-- Every cursor of an execution is reached by deciding branches in program order. -/
theorem Execution.steered (hnow : Execution listing initial frozen journal state todo)
    (hfresh : initial.Fresh) (hstart : initial.cursor = Cursor.start listing) :
    state.cursor.Steered listing (valueBefore? listing initial.registers journal state.cursor) := by
  induction hnow with
  | start =>
      rw [hstart]
      exact .start
  | tick _ ih => exact ih
  | pass _ _ ih => exact ih
  | @act frozen state after journal task todo event hnow hperform ih =>
      have hunderway := hnow.underway hfresh.delays
      have hextends := (hunderway.change hperform).extends
      have hflow := hnow.dataflow hfresh
      have hsteered : state.cursor.Steered listing
          (valueBefore? listing initial.registers
            (journal ++ [⟨task, state, event, after.note event.codeOrder event.action⟩])
            after.cursor) :=
        ih.mono fun name n value hn hvalue => valueBefore?_mono hvalue hextends hn.le _
      show after.cursor.Steered listing (valueBefore? listing initial.registers
        (journal ++ [⟨task, state, event, after.note event.codeOrder event.action⟩]) after.cursor)
      rcases Task.steers (hunderway.enabled task (List.mem_cons_self ..)) hperform with
        hsame | ⟨instruction, label, hnext, hlabel, hmoved⟩
      · rw [hsame] at hsteered ⊢
        exact hsteered
      · rw [hmoved] at hextends hsteered ⊢
        refine .advance hsteered hnext (Operation.label?_mono hlabel fun name value hvalue => ?_)
        -- A register that is ready now holds the value that program order gives it.
        have hready := Register.value?_eq_some_iff.mp hvalue
        exact valueBefore?_mono (hready ▸ hflow.contents name).valueBefore?_eq hextends le_rfl _

end Steered

end Tomasulo
