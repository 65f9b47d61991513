import Tomasulo.Proofs.Content

/-!
# Dataflow

Whatever the order in which the machine works, values flow through registers as if the instructions had
been carried out one after the other: each instruction works on the values of its registers before its
own position (`valueBefore?`).

* `Deed.InOrder` says what that means for each kind of event: results, addresses, stored values, which are
  then in memory, and the decisions of branches.
* Every deed of every run is in order, and when no station is in use every register holds its content
  before the next position (`dataflow_in_order`).

Nothing is said about the values that loads read: they depend on memory, not on registers.
-/

namespace Tomasulo

/-- The value of a register before a position, as far as a journal tells. -/
def valueBefore? (listing : Listing) (registers : RegisterFile) (journal : List Deed)
    (cursor : Cursor) (name : String) (n : Nat) : Option Float :=
  (contentBefore? listing registers journal cursor name n).bind Register.value?

/-- An operand of arithmetic: a register or a constant. -/
inductive AluSource where
  | register (name : String)
  | constant (value : Int)

/-- The value of an operand, given those of the registers. -/
def AluSource.value? (value? : String → Option Float) : AluSource → Option Float
  | register name => value? name
  | constant value => some (Float.ofInt value)

/-- The arithmetic that an instruction does; setting a register to a constant adds zero to it. -/
def Operation.alu? : Operation → Option (AluOp × AluSource × AluSource)
  | .loadImmediate _ value => some (.add, .constant value, .constant 0)
  | .arithmetic op _ lhs rhs => some (op, .register lhs, .register rhs)
  | .arithmeticImmediate op _ lhs value => some (op, .register lhs, .constant value)
  | _ => none

/-- The address of a memory access, given the values of the registers. -/
def Operation.address? (value? : String → Option Float) (operation : Operation) : Option Int :=
  operation.place?.bind fun place => (value? place.1).map (effectiveAddress · place.2)

/-- Whether a value is the result of the arithmetic of an instruction. -/
def Operation.Yields (value? : String → Option Float) (operation : Operation) (value : Float) : Prop :=
  ∀ op lhs rhs, operation.alu? = some (op, lhs, rhs) →
    ∃ left right, lhs.value? value? = some left ∧ rhs.value? value? = some right ∧
      value = op.apply left right

/-- Whether a deed is what its instruction does on given values of the registers. -/
def Deed.InOrder (listing : Listing) (instruction : Instruction) (value? : String → Option Float)
    (deed : Deed) : Prop :=
  match deed.event with
  | .computed _ _ _ _ _ value | .published _ _ value _ _ => instruction.operation.Yields value? value
  | .located _ _ _ _ address | .loaded _ _ _ address =>
      instruction.operation.address? value? = some address
  | .stored _ _ value address =>
      instruction.operation.address? value? = some address ∧
        (∃ source base offset, instruction.operation = .store source base offset ∧
          value? source = some value) ∧
        deed.after.memory.read address = some value
  | .branched _ comparison lhs rhs target =>
      ∃ left right, instruction.operation = .branch comparison left right target ∧
        value? left = some lhs ∧ value? right = some rhs ∧
        deed.after.cursor =
          deed.before.cursor.advance listing (if comparison.holds lhs rhs then some target else none)
  | _ => True

theorem Operation.address?_eq {operation : Operation} {value? : String → Option Float} {base : String}
    {offset : Int} (hplace : operation.place? = some (base, offset)) :
    operation.address? value? = (value? base).map (effectiveAddress · offset) := by
  unfold address?
  rw [hplace, Option.bind_some]

theorem Operation.address?_mono {operation : Operation} {value? value?' : String → Option Float}
    {address : Int} (haddress : operation.address? value? = some address)
    (hmore : ∀ name value, value? name = some value → value?' name = some value) :
    operation.address? value?' = some address := by
  obtain ⟨⟨base, offset⟩, hplace, hvalue⟩ := Option.bind_eq_some_iff.mp haddress
  obtain ⟨baseValue, hbase, rfl⟩ := Option.map_eq_some_iff.mp hvalue
  rw [address?_eq hplace, hmore base baseValue hbase, Option.map_some]

/-- What is known of a value stays known, however long the run goes on. -/
theorem valueBefore?_mono {listing : Listing} {registers : RegisterFile} {journal : List Deed}
    {later earlier : Cursor} {name : String} {n : Nat} {value : Float}
    (hvalue : valueBefore? listing registers journal earlier name n = some value)
    (hlater : later.Extends earlier) (hbound : n ≤ earlier.fetched) (more : List Deed) :
    valueBefore? listing registers (journal ++ more) later name n = some value := by
  obtain ⟨register, hknown, hregister⟩ := Option.bind_eq_some_iff.mp hvalue
  unfold valueBefore?
  rw [hlater.contentBefore? hbound, contentBefore?_append hknown]
  exact hregister

/-! ## Values of operands -/

section Values

variable {listing : Listing} {registers : RegisterFile} {journal : List Deed} {state : State}
  {name : String} {n : Nat} {value : Float}

/-- A register that holds a value holds the one that program order gives it. -/
theorem Content.valueBefore?_eq
    (hcontent : Content listing registers journal state name n (.ready value)) :
    valueBefore? listing registers journal state.cursor name n = some value := by
  cases hcontent with
  | known hknown =>
      unfold valueBefore?
      rw [hknown]
      rfl

theorem Operand.Captures.valueBefore?_eq {operand : Operand}
    (hcaptures : operand.Captures (some name) (Content listing registers journal state · n))
    (hready : operand = .ready value) :
    valueBefore? listing registers journal state.cursor name n = some value := by
  obtain ⟨register, hcontent, hoperand⟩ := hcaptures name rfl
  obtain rfl : register = .ready value := by
    cases register with
    | ready held => rw [Operand.ready.inj (hoperand.symm.trans hready)]
    | empty => exact absurd (hoperand.symm.trans hready) (by simp [Operand.ofRegister])
    | pending id => exact absurd (hoperand.symm.trans hready) (by simp [Operand.ofRegister])
  exact hcontent.valueBefore?_eq

end Values

section Slots

variable {listing : Listing} {registers : RegisterFile} {journal : List Deed} {state : State}
  {id delay : Nat} {slot : Slot} {instruction : Instruction}

/-- What the arithmetic of a station has computed or will compute on its operands. -/
theorem Dataflow.yields (hflow : Dataflow listing registers journal state)
    (hslot : state.stations.slot? id = some slot)
    (hat : state.cursor.instructionAt? listing slot.seq = some instruction)
    (hfits : slot.Fits instruction delay) {lhs rhs value : Float} (hj : slot.j = .ready lhs)
    (hk : slot.k = .ready rhs)
    (hvalue : ∀ op, slot.op = .alu op → value = op.apply lhs rhs) :
    instruction.operation.Yields
      (valueBefore? listing registers journal state.cursor · slot.seq) value := by
  intro op left right halu
  obtain ⟨hfirst, hsecond⟩ := hflow.operands id slot instruction hslot hat
  have hshaped := hfits.shaped
  -- Constants are given by the form of the slot, registers by what the operands captured.
  cases hoperation : instruction.operation <;> rw [hoperation] at halu hshaped hfirst hsecond
  case loadImmediate dest constant =>
    obtain ⟨rfl, rfl, rfl⟩ := by simpa [Operation.alu?] using halu
    obtain ⟨hconstant, hzero, hcomputing⟩ := hshaped
    refine ⟨lhs, rhs, ?_, ?_, hvalue .add hcomputing.op_eq⟩
    · rw [Operand.ready.inj (hj.symm.trans hconstant)]
      rfl
    · rw [Operand.ready.inj (hk.symm.trans hzero)]
      rfl
  case arithmetic aluOp dest left' right' =>
    obtain ⟨rfl, rfl, rfl⟩ := by simpa [Operation.alu?] using halu
    exact ⟨lhs, rhs, hfirst.valueBefore?_eq hj, hsecond.valueBefore?_eq hk,
      hvalue aluOp (Slot.Computing.op_eq hshaped)⟩
  case arithmeticImmediate aluOp dest left' constant =>
    obtain ⟨rfl, rfl, rfl⟩ := by simpa [Operation.alu?] using halu
    obtain ⟨hconstant, hcomputing⟩ := hshaped
    refine ⟨lhs, rhs, hfirst.valueBefore?_eq hj, ?_, hvalue aluOp hcomputing.op_eq⟩
    rw [Operand.ready.inj (hk.symm.trans hconstant)]
    rfl
  all_goals exact absurd halu (by simp [Operation.alu?])

/-- The result that a station holds is that of its arithmetic. -/
theorem Dataflow.yields_result (hflow : Dataflow listing registers journal state)
    (hslot : state.stations.slot? id = some slot)
    (hat : state.cursor.instructionAt? listing slot.seq = some instruction)
    (hfits : slot.Fits instruction delay) (hstarted : slot.step < delay) {value : Float}
    (hresult : slot.result = some value) :
    instruction.operation.Yields
      (valueBefore? listing registers journal state.cursor · slot.seq) value := by
  have hcompute {op : AluOp} (hcomputing : slot.Computing op delay) :
      instruction.operation.Yields
        (valueBefore? listing registers journal state.cursor · slot.seq) value := by
    obtain ⟨lhs, rhs, hj, hk, hvalue⟩ := hcomputing.started hstarted
    refine hflow.yields hslot hat hfits hj hk fun op' hop => ?_
    rw [hvalue value hresult, StationOp.alu.inj (hop.symm.trans hcomputing.op_eq)]
  have hshaped := hfits.shaped
  cases hoperation : instruction.operation <;> rw [hoperation] at hshaped hcompute
  case loadImmediate => exact hcompute hshaped.2.2
  case arithmetic => exact hcompute hshaped
  case arithmeticImmediate => exact hcompute hshaped.2
  all_goals
    intro op lhs rhs halu
    exact absurd halu (by simp [Operation.alu?])

theorem Operation.first?_of_place? {operation : Operation} {base : String} {offset : Int}
    (hplace : operation.place? = some (base, offset)) : operation.first? = some base := by
  cases operation <;> simp_all [place?, first?]

/-- The address that a station computes is that of its instruction. -/
theorem Dataflow.address (hflow : Dataflow listing registers journal state)
    (hslot : state.stations.slot? id = some slot)
    (hat : state.cursor.instructionAt? listing slot.seq = some instruction) {base : String}
    {offset : Int} {baseValue : Float} (hplace : instruction.operation.place? = some (base, offset))
    (hj : slot.j = .ready baseValue) :
    instruction.operation.address? (valueBefore? listing registers journal state.cursor · slot.seq) =
      some (effectiveAddress baseValue offset) := by
  have hfirst := Operation.first?_of_place? hplace
  have hcaptures := (hflow.operands id slot instruction hslot hat).1
  rw [hfirst] at hcaptures
  rw [Operation.address?_eq hplace, hcaptures.valueBefore?_eq hj, Option.map_some]

theorem Slot.Accessing.effective_eq {base : String} {offset address : Int}
    (haccessing : slot.Accessing base offset delay) (heffective : slot.effective? = some address) :
    ∃ baseValue, slot.j = .ready baseValue ∧ address = effectiveAddress baseValue offset := by
  rcases haccessing with ⟨hsymbolic, -⟩ | ⟨-, baseValue, hj, haddress⟩
  · simp [Slot.effective?, hsymbolic, Address.effective?] at heffective
  · refine ⟨baseValue, hj, ?_⟩
    simpa [Slot.effective?, haddress, Address.effective?, eq_comm] using heffective

/-- A load or store accesses the place that its instruction names. -/
theorem Slot.Fits.accessing (hfits : slot.Fits instruction delay)
    (hop : slot.op = .load ∨ slot.op = .store) :
    ∃ base offset, instruction.operation.place? = some (base, offset) ∧
      slot.Accessing base offset delay := by
  have hshaped := hfits.shaped
  rcases hop with hload | hstore
  · obtain ⟨dest, base, offset, hoperation⟩ := hfits.exists_load hload
    rw [hoperation] at hshaped
    exact ⟨base, offset, by rw [hoperation]; rfl, hshaped.2.2.1⟩
  · obtain ⟨source, base, offset, hoperation⟩ := hfits.exists_store hstore
    rw [hoperation] at hshaped
    exact ⟨base, offset, by rw [hoperation]; rfl, hshaped.2.1⟩

/-- A computed address is that of the instruction. -/
theorem Dataflow.effective (hflow : Dataflow listing registers journal state)
    (hslot : state.stations.slot? id = some slot)
    (hat : state.cursor.instructionAt? listing slot.seq = some instruction)
    (hfits : slot.Fits instruction delay) (hop : slot.op = .load ∨ slot.op = .store) {address : Int}
    (heffective : slot.effective? = some address) :
    instruction.operation.address? (valueBefore? listing registers journal state.cursor · slot.seq) =
      some address := by
  obtain ⟨base, offset, hplace, haccessing⟩ := hfits.accessing hop
  obtain ⟨baseValue, hj, rfl⟩ := haccessing.effective_eq heffective
  exact hflow.address hslot hat hplace hj

end Slots

/-! ## Deeds in order -/

section Deeds

variable {listing : Listing} {registers : RegisterFile} {journal : List Deed}

/-- A station task is about the instruction that its station holds. -/
theorem Deed.Valid.inOrder_of_station {deed : Deed} (hvalid : deed.Valid listing) {id : Nat}
    {slot : Slot} (hstation : deed.task.station? = some id)
    (hslot : deed.before.stations.slot? id = some slot)
    (horder : ∀ instruction, deed.before.cursor.instructionAt? listing slot.seq = some instruction →
      slot.Fits instruction (deed.before.stations.delay id) →
        deed.InOrder listing instruction
          (valueBefore? listing registers journal deed.before.cursor · slot.seq)) :
    ∃ instruction, deed.after.cursor.instructionAt? listing deed.seq = some instruction ∧
      deed.InOrder listing instruction
        (valueBefore? listing registers journal deed.before.cursor · deed.seq) := by
  obtain ⟨instruction, hat, hfits⟩ := hvalid.lifecycle.fits id slot hslot
  rw [Deed.seq_of_station hstation hslot]
  refine ⟨instruction, ?_, horder instruction hat hfits⟩
  rw [hvalid.extends.instructionAt? (hvalid.lifecycle.seq_lt hslot), hat]

/-- A deed is in order when it is done, on the values known until then. -/
theorem Deed.Valid.inOrder_now {deed : Deed} (hvalid : deed.Valid listing)
    (hflow : Dataflow listing registers journal deed.before) :
    ∃ instruction, deed.after.cursor.instructionAt? listing deed.seq = some instruction ∧
      deed.InOrder listing instruction
        (valueBefore? listing registers journal deed.before.cursor · deed.seq) := by
  have hheld := @Deed.Valid.inOrder_of_station listing registers journal deed hvalid
  obtain ⟨after, -, hperform, hcursor, -, -, hmemory⟩ := hvalid.change
  obtain ⟨-, hdelays, henabled, -⟩ := hvalid
  obtain ⟨task, before, event, noted⟩ := deed
  simp only at hflow hdelays henabled hperform hcursor hmemory hheld
  -- The fetch slot works on the registers as they stand, stations on what their operands captured.
  cases task with
  | issue instruction id =>
      obtain ⟨hnext, -⟩ := henabled
      obtain ⟨_, _, _, -, -, rfl, rfl⟩ := issue_spec hperform
      refine ⟨instruction, ?_, trivial⟩
      rw [hcursor, Deed.seq_of_fetch rfl, Cursor.instructionAt?_advance hnext, if_pos rfl]
  | branch instruction comparison lhs rhs target =>
      obtain ⟨hnext, left, right, hoperation, hleft, hright⟩ := henabled
      obtain ⟨rfl, rfl⟩ := Prod.mk.inj (Option.some.inj hperform)
      rw [Deed.seq_of_fetch rfl]
      refine ⟨instruction, ?_, left, right, hoperation, ?_, ?_, hcursor⟩
      · rw [hcursor]
        exact (Cursor.instructionAt?_advance hnext _ _).trans (if_pos rfl)
      · exact (hleft ▸ hflow.contents left).valueBefore?_eq
      · exact (hright ▸ hflow.contents right).valueBefore?_eq
  | jump instruction target =>
      obtain ⟨hnext, -⟩ := henabled
      obtain ⟨rfl, rfl⟩ := Prod.mk.inj (Option.some.inj hperform)
      refine ⟨instruction, ?_, trivial⟩
      rw [Deed.seq_of_fetch rfl, hcursor]
      exact (Cursor.instructionAt?_advance hnext _ _).trans (if_pos rfl)
  | compute id =>
      obtain ⟨slot, hslot, ⟨op, lhs, rhs, hop, hj, hk⟩, -, -⟩ := (Task.enabled_iff rfl).mp henabled
      refine hheld rfl hslot fun instruction hat hfits => ?_
      obtain ⟨name, ⟨-, rfl, -⟩ | ⟨-, rfl, -⟩⟩ := compute_spec hslot hop hj hk hperform
      · refine hflow.yields hslot hat hfits hj hk fun op' hop' => ?_
        rw [StationOp.alu.inj (hop'.symm.trans hop)]
      · trivial
  | locate id =>
      obtain ⟨slot, hslot, hop, -⟩ := (Task.enabled_iff rfl).mp henabled
      refine hheld rfl hslot fun instruction hat hfits => ?_
      obtain ⟨name, baseValue, base, offset, hj, haddress, rfl, -⟩ := locate_spec hslot hperform
      obtain ⟨base', offset', hplace, haccessing⟩ := hfits.accessing hop
      obtain ⟨rfl, rfl, -⟩ := haccessing.symbolic_eq haddress
      exact hflow.address hslot hat hplace hj
  | load id =>
      obtain ⟨slot, hslot, hop, ⟨address, haddress⟩, -⟩ := (Task.enabled_iff rfl).mp henabled
      refine hheld rfl hslot fun instruction hat hfits => ?_
      obtain ⟨name, ⟨-, rfl, -⟩ | ⟨-, rfl, -⟩⟩ := load_spec hslot haddress hperform
      · exact hflow.effective hslot hat hfits (.inl hop) haddress
      · trivial
  | publish id =>
      obtain ⟨slot, hslot, -, hstep, -⟩ := (Task.enabled_iff rfl).mp henabled
      refine hheld rfl hslot fun instruction hat hfits => ?_
      obtain ⟨held, value, _, _, _, hheldSlot, hresult, rfl, -⟩ := publish_spec hperform
      obtain rfl := Option.some.inj (hslot.symm.trans hheldSlot)
      have hpositive := hdelays id (Pool.lt_length_of_slot? hslot)
      exact hflow.yields_result hslot hat hfits (by omega) hresult
  | commit id =>
      obtain ⟨slot, hslot, hop, ⟨address, haddress⟩, -, value, hk⟩ :=
        (Task.enabled_iff rfl).mp henabled
      refine hheld rfl hslot fun instruction hat hfits => ?_
      obtain ⟨name, ⟨-, rfl, rfl⟩ | ⟨-, rfl, -⟩⟩ := commit_spec hslot haddress hk hperform
      · refine ⟨hflow.effective hslot hat hfits (.inr hop) haddress, ?_, ?_⟩
        · obtain ⟨source, base, offset, hoperation⟩ := hfits.exists_store hop
          have hcaptures := (hflow.operands id slot instruction hslot hat).2
          rw [hoperation] at hcaptures
          exact ⟨source, base, offset, hoperation, hcaptures.valueBefore?_eq hk⟩
        · rw [hmemory, Memory.read_write, if_pos rfl]
      · trivial

/-- A deed that is in order on some values is so on more of them. -/
theorem Deed.InOrder.mono {deed : Deed} {instruction : Instruction}
    {value? value?' : String → Option Float} (horder : deed.InOrder listing instruction value?)
    (hmore : ∀ name value, value? name = some value → value?' name = some value) :
    deed.InOrder listing instruction value?' := by
  have hsource {source : AluSource} {value : Float} (hvalue : source.value? value? = some value) :
      source.value? value?' = some value := by
    cases source with
    | register name => exact hmore name value hvalue
    | constant _ => exact hvalue
  have hyields {value : Float} (hyields : instruction.operation.Yields value? value) :
      instruction.operation.Yields value?' value := by
    intro op lhs rhs halu
    obtain ⟨left, right, hleft, hright, hvalue⟩ := hyields op lhs rhs halu
    exact ⟨left, right, hsource hleft, hsource hright, hvalue⟩
  obtain ⟨task, before, event, after⟩ := deed
  cases event with
  | computed => exact hyields horder
  | published => exact hyields horder
  | located => exact Operation.address?_mono horder hmore
  | loaded => exact Operation.address?_mono horder hmore
  | stored =>
      obtain ⟨haddress, ⟨source, base, offset, hoperation, hvalue⟩, hread⟩ := horder
      exact ⟨Operation.address?_mono haddress hmore,
        ⟨source, base, offset, hoperation, hmore _ _ hvalue⟩, hread⟩
  | branched =>
      obtain ⟨left, right, hoperation, hleft, hright, hcursor⟩ := horder
      exact ⟨left, right, hoperation, hmore _ _ hleft, hmore _ _ hright, hcursor⟩
  | _ => trivial

theorem Execution.inOrder {initial frozen state : State} {todo : List Task}
    (hnow : Execution listing initial frozen journal state todo) (hfresh : initial.Fresh) {deed : Deed}
    (hdeed : deed ∈ journal) :
    ∃ instruction, state.cursor.instructionAt? listing deed.seq = some instruction ∧
      deed.InOrder listing instruction
        (valueBefore? listing initial.registers journal state.cursor · deed.seq) := by
  obtain ⟨hextends, hdone⟩ := hnow.extends hfresh.delays hdeed
  obtain ⟨_, past, later, _, rfl, hthen, hperforms⟩ := hnow.mem_journal hdeed
  have hvalid := hthen.valid hfresh.inStep hperforms
  -- The deed was in order when it was done, and what was known then is still known.
  obtain ⟨instruction, hat, horder⟩ := hvalid.inOrder_now (hthen.dataflow hfresh)
  refine ⟨instruction, ?_, horder.mono fun name value hvalue => ?_⟩
  · rw [hextends.instructionAt? (Cursor.lt_fetched hat), hat]
  · exact valueBefore?_mono hvalue (hextends.trans hdone) hvalid.seq_le _

/-- A deed is in order for the instruction at its position. -/
theorem Execution.inOrder_at {initial frozen state : State} {todo : List Task}
    (hnow : Execution listing initial frozen journal state todo) (hfresh : initial.Fresh) {deed : Deed}
    {instruction : Instruction} (hdeed : deed ∈ journal)
    (hat : state.cursor.instructionAt? listing deed.seq = some instruction) :
    deed.InOrder listing instruction
      (valueBefore? listing initial.registers journal state.cursor · deed.seq) := by
  obtain ⟨_, hat', horder⟩ := hnow.inOrder hfresh hdeed
  obtain rfl := Option.some.inj (hat.symm.trans hat')
  exact horder

/-- When no station is in use, every register holds what program order gives it. -/
theorem Dataflow.contents_known {state : State} (hflow : Dataflow listing registers journal state)
    (hidle : state.stations.anyBusy = false) (name : String) :
    contentBefore? listing registers journal state.cursor name state.cursor.fetched =
      some (state.registers.get name) := by
  have hcontent := hflow.contents name
  generalize state.registers.get name = register at hcontent ⊢
  cases hcontent with
  | known hknown => exact hknown
  | awaited _ hheld =>
      obtain ⟨slot, hslot, -⟩ := hheld
      rw [Pool.anyBusy_eq_false_iff.mp hidle] at hslot
      exact absurd hslot (by simp)

end Deeds

/-! ## Main statement -/

/-- On every sound configuration, from registers that wait for nothing, every deed of every run is in
order, and whenever no station is in use every register holds its content before the next position: no
older and slower result has overwritten a younger one. -/
theorem dataflow_in_order {listing : Listing} {registers : RegisterFile} {memory : Memory}
    {configuration : Configuration} {journal : List Deed} {state : State}
    (hsound : configuration.error? = none)
    (hsettled : ∀ name producer, registers.get name ≠ .pending producer)
    (hobserved :
      Observed listing (.initial listing registers memory configuration.stations) journal state) :
    (∀ deed ∈ journal,
      ∃ instruction, state.cursor.instructionAt? listing deed.seq = some instruction ∧
        deed.InOrder listing instruction
          (valueBefore? listing registers journal state.cursor · deed.seq)) ∧
      (state.stations.anyBusy = false → ∀ name,
        contentBefore? listing registers journal state.cursor name state.cursor.fetched =
          some (state.registers.get name)) := by
  have hfresh : (State.initial listing registers memory configuration.stations).Fresh :=
    State.fresh_initial hsound hsettled
  obtain ⟨frozen, todo, hnow⟩ := hobserved.execution
  exact ⟨fun deed hdeed => hnow.inOrder hfresh hdeed, (hnow.dataflow hfresh).contents_known⟩

/-! ## A sum that is stored

The store waits for the sum, and the sum for the product.
-/

namespace Deposit

def listing : Listing where
  instructions :=
    [⟨"mul f4,f0,f2", "mul", 0, .arithmetic .mul "f4" "f0" "f2"⟩,
      ⟨"add f6,f4,f2", "add", 1, .arithmetic .add "f6" "f4" "f2"⟩,
      ⟨"sw f6,10(f2)", "sw", 2, .store "f6" "f2" 10⟩]
  sections := [⟨"main", [0, 1, 2]⟩]
  initialValues := .empty

/-- The default machine after some cycles, with the registers of the chain. -/
def state (count : Nat) : State :=
  State.afterCycles listing (.initial listing Chain.registers .empty {}) count

/-- What it has done by then. -/
def journal (count : Nat) : List Deed :=
  State.journal listing (.initial listing Chain.registers .empty {}) count

theorem run (count : Nat) :
    Run listing (.initial listing Chain.registers .empty {}) (journal count) (state count) :=
  Run.afterCycles count

end Deposit

/-- When all is done the sum is in its register, and the store has written it to its cell. -/
theorem dataflow_in_order_deposit :
    (∀ deed ∈ Deposit.journal 16,
      ∃ instruction,
        (Deposit.state 16).cursor.instructionAt? Deposit.listing deed.seq = some instruction ∧
          deed.InOrder Deposit.listing instruction
            (valueBefore? Deposit.listing Chain.registers (Deposit.journal 16)
              (Deposit.state 16).cursor · deed.seq)) ∧
      (∃ deed ∈ Deposit.journal 16, ∃ name value address,
        deed.event = .stored name 2 value address ∧ deed.after.memory.read address = some value) ∧
      contentBefore? Deposit.listing Chain.registers (Deposit.journal 16) (Deposit.state 16).cursor
        "f6" 3 = some ((Deposit.state 16).registers.get "f6") ∧
      ((Deposit.state 16).registers.get "f6" == .ready 8) = true ∧
      ((Deposit.state 16).memory.read 12 == some 8) = true := by
  have hsound : Configuration.error? {} = none := by decide
  obtain ⟨horder, hcontents⟩ := dataflow_in_order hsound Chain.settled (.between (Deposit.run 16))
  have hfetched : (Deposit.state 16).cursor.fetched = 3 := by decide +kernel
  have hidle : (Deposit.state 16).stations.anyBusy = false := by decide +kernel
  have hcommits : ((Deposit.journal 16).any fun deed =>
      deed.event.isCommit && deed.event.codeOrder == 2) = true := by decide +kernel
  refine ⟨horder, ?_, ?_, by decide +kernel, by decide +kernel⟩
  · obtain ⟨deed, hdeed, hcommit⟩ := List.any_eq_true.mp hcommits
    obtain ⟨instruction, -, hthere⟩ := horder deed hdeed
    obtain ⟨task, before, event, after⟩ := deed
    cases event <;> simp only [Event.isCommit, Event.codeOrder, Bool.false_and, Bool.false_eq_true,
      Bool.true_and, beq_iff_eq] at hcommit
    case stored name codeOrder value address =>
      subst hcommit
      exact ⟨_, hdeed, name, value, address, rfl, hthere.2.2⟩
  · rw [← hcontents hidle "f6", hfetched]

end Tomasulo
