import Tomasulo.Proofs.Plan

/-!
# The life of an instruction in its station

Between issue and completion a station holds the instruction at one position of the order of fetching,
and its countdown, address, operands and result always fit that instruction.  `Slot.Fits` says what that
means for each form of instruction; `Lifecycle` says it of every station in use, and that no two stations
hold the same position.

`Lifecycle` holds at every point of every execution from a machine at rest (`Execution.lifecycle`),
whatever the initial registers and memory.
-/

namespace Tomasulo

/-! ## Slots that fit their instruction -/

/-- Arithmetic under way: the result appears with the last step, and work starts only when both
operands are there. -/
structure Slot.Computing (op : AluOp) (delay : Nat) (slot : Slot) : Prop where
  op_eq : slot.op = .alu op
  address : slot.address = none
  result_iff : slot.result.isSome = true ↔ slot.step = 0
  started : slot.step < delay → ∃ lhs rhs, slot.j = .ready lhs ∧ slot.k = .ready rhs ∧
    ∀ value, slot.result = some value → value = op.apply lhs rhs

/-- A memory access under way: the first step computes the address from the value of the base. -/
def Slot.Accessing (base : String) (offset : Int) (delay : Nat) (slot : Slot) : Prop :=
  (slot.address = some (.symbolic base offset) ∧ slot.step = delay) ∨
    (slot.step < delay ∧ ∃ baseValue, slot.j = .ready baseValue ∧
      slot.address =
        some (.effective (effectiveAddress baseValue offset) base baseValue offset))

/-- What the form of an instruction says about the slot that holds it. -/
def Slot.Shaped (delay : Nat) (slot : Slot) : Operation → Prop
  | .load _ base offset =>
      slot.op = .load ∧ slot.k = .empty ∧ slot.Accessing base offset delay ∧
        (slot.result.isSome = true → slot.step = 0) ∧
        (slot.step = 0 → slot.result = none → delay = 1)
  | .store _ base offset =>
      slot.op = .store ∧ slot.Accessing base offset delay ∧ slot.result = none
  | .loadImmediate _ value =>
      slot.j = .ready (Float.ofInt value) ∧ slot.k = .ready (Float.ofInt 0) ∧
        slot.Computing .add delay
  | .arithmetic op _ _ _ => slot.Computing op delay
  | .arithmeticImmediate op _ _ value =>
      slot.k = .ready (Float.ofInt value) ∧ slot.Computing op delay
  | .branch .. | .jump .. => False

/-- What a station does with an instruction. -/
def Operation.stationOp? : Operation → Option StationOp
  | .load .. => some .load
  | .store .. => some .store
  | .loadImmediate .. => some (.alu .add)
  | .arithmetic op .. | .arithmeticImmediate op .. => some (.alu op)
  | .branch .. | .jump .. => none

/-- Whether a slot holds an instruction in one of the stages of its life. -/
structure Slot.Fits (instruction : Instruction) (delay : Nat) (slot : Slot) : Prop where
  mnemonic : slot.mnemonic = instruction.mnemonic
  codeOrder : slot.codeOrder = instruction.codeOrder
  step_le : slot.step ≤ delay
  shaped : slot.Shaped delay instruction.operation

section Fits

variable {instruction : Instruction} {slot : Slot} {delay : Nat}

theorem Slot.seq_capture? {registers : RegisterFile} {seq : Nat}
    (hslot : Slot.capture? registers instruction seq delay = some slot) : slot.seq = seq := by
  obtain ⟨line, mnemonic, codeOrder, operation⟩ := instruction
  cases operation <;> first
    | (obtain rfl := Option.some.inj hslot; rfl)
    | exact absurd hslot (by simp [Slot.capture?])

/-- An instruction that has just entered its station fits. -/
theorem Slot.fits_capture? {registers : RegisterFile} {seq : Nat} (hdelay : 0 < delay)
    (hslot : Slot.capture? registers instruction seq delay = some slot) :
    slot.Fits instruction delay := by
  have hne : delay ≠ 0 := by omega
  obtain ⟨line, mnemonic, codeOrder, operation⟩ := instruction
  cases operation with
  | load dest base offset =>
      obtain rfl := Option.some.inj hslot
      exact ⟨rfl, rfl, le_rfl, rfl, rfl, .inl ⟨rfl, rfl⟩, by simp, fun h => absurd h hne⟩
  | store source base offset =>
      obtain rfl := Option.some.inj hslot
      exact ⟨rfl, rfl, le_rfl, rfl, .inl ⟨rfl, rfl⟩, rfl⟩
  | loadImmediate dest value =>
      obtain rfl := Option.some.inj hslot
      exact ⟨rfl, rfl, le_rfl, rfl, rfl, rfl, rfl, by simp [hne], fun h => absurd h (lt_irrefl _)⟩
  | arithmetic op dest lhs rhs =>
      obtain rfl := Option.some.inj hslot
      exact ⟨rfl, rfl, le_rfl, rfl, rfl, by simp [hne], fun h => absurd h (lt_irrefl _)⟩
  | arithmeticImmediate op dest lhs value =>
      obtain rfl := Option.some.inj hslot
      exact ⟨rfl, rfl, le_rfl, rfl, rfl, rfl, by simp [hne], fun h => absurd h (lt_irrefl _)⟩
  | branch comparison lhs rhs target => exact absurd hslot (by simp [Slot.capture?])
  | jump target => exact absurd hslot (by simp [Slot.capture?])

theorem Slot.Accessing.receive {base : String} {offset : Int}
    (haccessing : slot.Accessing base offset delay) (producer : Nat) (value : Float) :
    (slot.receive producer value).Accessing base offset delay := by
  rcases haccessing with hsymbolic | ⟨hstep, baseValue, hj, haddress⟩
  · exact .inl hsymbolic
  · exact .inr ⟨hstep, baseValue, by simp [Slot.receive, hj], haddress⟩

theorem Slot.Computing.receive {op : AluOp} (hcomputing : slot.Computing op delay) (producer : Nat)
    (value : Float) : (slot.receive producer value).Computing op delay where
  op_eq := hcomputing.op_eq
  address := hcomputing.address
  result_iff := hcomputing.result_iff
  started hstep := by
    obtain ⟨lhs, rhs, hj, hk, hresult⟩ := hcomputing.started hstep
    exact ⟨lhs, rhs, by simp [Slot.receive, hj], by simp [Slot.receive, hk], hresult⟩

/-- A publication does not disturb the life of other instructions. -/
theorem Slot.Shaped.receive {operation : Operation} (hshaped : slot.Shaped delay operation)
    (producer : Nat) (value : Float) : (slot.receive producer value).Shaped delay operation := by
  cases operation with
  | load dest base offset =>
      obtain ⟨hop, hk, haccessing, hresult⟩ := hshaped
      exact ⟨hop, by simp [Slot.receive, hk], haccessing.receive producer value, hresult⟩
  | store source base offset =>
      obtain ⟨hop, haccessing, hresult⟩ := hshaped
      exact ⟨hop, haccessing.receive producer value, hresult⟩
  | loadImmediate dest constant =>
      obtain ⟨hj, hk, hcomputing⟩ := hshaped
      exact ⟨by simp [Slot.receive, hj], by simp [Slot.receive, hk],
        hcomputing.receive producer value⟩
  | arithmetic op dest lhs rhs => exact Slot.Computing.receive hshaped producer value
  | arithmeticImmediate op dest lhs constant =>
      obtain ⟨hk, hcomputing⟩ := hshaped
      exact ⟨by simp [Slot.receive, hk], hcomputing.receive producer value⟩
  | branch comparison lhs rhs target => exact hshaped.elim
  | jump target => exact hshaped.elim

theorem Slot.Fits.receive (hfits : slot.Fits instruction delay) (producer : Nat) (value : Float) :
    (slot.receive producer value).Fits instruction delay :=
  ⟨hfits.mnemonic, hfits.codeOrder, hfits.step_le, hfits.shaped.receive producer value⟩

theorem Slot.Fits.stationOp?_eq (hfits : slot.Fits instruction delay) :
    instruction.operation.stationOp? = some slot.op := by
  have hshaped := hfits.shaped
  cases hoperation : instruction.operation <;> rw [hoperation] at hshaped
  case load => rw [hshaped.1, Operation.stationOp?]
  case store => rw [hshaped.1, Operation.stationOp?]
  case loadImmediate => rw [hshaped.2.2.op_eq, Operation.stationOp?]
  case arithmetic => rw [Slot.Computing.op_eq hshaped, Operation.stationOp?]
  case arithmeticImmediate => rw [hshaped.2.op_eq, Operation.stationOp?]
  case branch => exact hshaped.elim
  case jump => exact hshaped.elim

theorem Slot.Fits.exists_load (hfits : slot.Fits instruction delay) (hop : slot.op = .load) :
    ∃ dest base offset, instruction.operation = .load dest base offset := by
  have hstationOp := hfits.stationOp?_eq
  cases hoperation : instruction.operation <;> simp_all [Operation.stationOp?]

theorem Slot.Fits.exists_store (hfits : slot.Fits instruction delay) (hop : slot.op = .store) :
    ∃ source base offset, instruction.operation = .store source base offset := by
  have hstationOp := hfits.stationOp?_eq
  cases hoperation : instruction.operation <;> simp_all [Operation.stationOp?]

/-! ## Steps of work -/

section Work

variable {operation : Operation}

theorem Slot.Computing.work {op : AluOp} {lhs rhs : Float} {result : Option Float}
    (hcomputing : slot.Computing op delay) (hj : slot.j = .ready lhs) (hk : slot.k = .ready rhs)
    (hpositive : 0 < slot.step)
    (hresult : (slot.step - 1 = 0 ∧ result = some (op.apply lhs rhs)) ∨
      (slot.step - 1 ≠ 0 ∧ result = slot.result)) :
    Slot.Computing op delay { slot with step := slot.step - 1, result := result } where
  op_eq := hcomputing.op_eq
  address := hcomputing.address
  result_iff := by
    rcases hresult with ⟨hlast, rfl⟩ | ⟨hmore, rfl⟩
    · simp [hlast]
    · rw [hcomputing.result_iff]
      simp only
      omega
  started _ := by
    refine ⟨lhs, rhs, hj, hk, fun value hvalue => ?_⟩
    rcases hresult with ⟨-, rfl⟩ | ⟨-, rfl⟩
    · exact (Option.some.inj hvalue).symm
    · -- A result before the last step would mean that no work was left.
      have hdone := hcomputing.result_iff.mp (by rw [show slot.result = some value from hvalue]; rfl)
      omega

theorem Slot.Shaped.compute {op : AluOp} {lhs rhs : Float} {result : Option Float}
    (hshaped : slot.Shaped delay operation) (hop : slot.op = .alu op) (hj : slot.j = .ready lhs)
    (hk : slot.k = .ready rhs) (hpositive : 0 < slot.step)
    (hresult : (slot.step - 1 = 0 ∧ result = some (op.apply lhs rhs)) ∨
      (slot.step - 1 ≠ 0 ∧ result = slot.result)) :
    Slot.Shaped delay { slot with step := slot.step - 1, result := result } operation := by
  have hwork {other : AluOp} (hcomputing : slot.Computing other delay) :
      Slot.Computing other delay { slot with step := slot.step - 1, result := result } := by
    obtain rfl : op = other := StationOp.alu.inj (hop.symm.trans hcomputing.op_eq)
    exact hcomputing.work hj hk hpositive hresult
  cases operation with
  | load dest base offset => exact absurd (hop.symm.trans hshaped.1) (by simp)
  | store source base offset => exact absurd (hop.symm.trans hshaped.1) (by simp)
  | loadImmediate dest constant => exact ⟨hshaped.1, hshaped.2.1, hwork hshaped.2.2⟩
  | arithmetic op dest lhs rhs => exact hwork hshaped
  | arithmeticImmediate op dest lhs constant => exact ⟨hshaped.1, hwork hshaped.2⟩
  | branch comparison lhs rhs target => exact hshaped.elim
  | jump target => exact hshaped.elim

/-- The base and offset of an address that is not computed yet are those of the instruction. -/
theorem Slot.Accessing.symbolic_eq {base base' : String} {offset offset' : Int}
    (haccessing : slot.Accessing base offset delay)
    (haddress : slot.address = some (.symbolic base' offset')) :
    base' = base ∧ offset' = offset ∧ slot.step = delay := by
  rcases haccessing with ⟨hsymbolic, hstep⟩ | ⟨-, _, -, heffective⟩
  · rw [haddress] at hsymbolic
    obtain ⟨rfl, rfl⟩ := Address.symbolic.inj (Option.some.inj hsymbolic)
    exact ⟨rfl, rfl, hstep⟩
  · rw [haddress] at heffective
    simp at heffective

theorem Slot.Shaped.locate {base : String} {offset : Int} {baseValue : Float}
    {result : Option Float} (hdelay : 0 < delay) (hshaped : slot.Shaped delay operation)
    (hj : slot.j = .ready baseValue) (haddress : slot.address = some (.symbolic base offset))
    (hresult : result = slot.result ∨
      (slot.op = .load ∧ slot.step - 1 = 0 ∧ result.isSome = true)) :
    Slot.Shaped delay
      { slot with
        address := some (.effective (effectiveAddress baseValue offset) base baseValue offset)
        step := slot.step - 1
        result := result } operation := by
  cases operation with
  | load dest base' offset' =>
      obtain ⟨hop, hk, haccessing, hdone, -⟩ := hshaped
      -- Without an address the countdown has not begun.
      obtain ⟨rfl, rfl, hstep⟩ := haccessing.symbolic_eq haddress
      refine ⟨hop, hk, .inr ⟨by simp only; omega, baseValue, hj, rfl⟩, fun hsome => ?_,
        fun hlast _ => by simp only at hlast; omega⟩
      rcases hresult with rfl | ⟨-, hlast, -⟩
      · have := hdone hsome
        simp only
        omega
      · exact hlast
  | store source base' offset' =>
      obtain ⟨hop, haccessing, hnone⟩ := hshaped
      obtain ⟨rfl, rfl, hstep⟩ := haccessing.symbolic_eq haddress
      refine ⟨hop, .inr ⟨by simp only; omega, baseValue, hj, rfl⟩, ?_⟩
      rcases hresult with rfl | ⟨hload, -, -⟩
      · exact hnone
      · exact absurd (hop.symm.trans hload) (by simp)
  | loadImmediate dest constant => exact absurd (hshaped.2.2.address.symm.trans haddress) (by simp)
  | arithmetic op dest lhs rhs =>
      exact absurd ((Slot.Computing.address hshaped).symm.trans haddress) (by simp)
  | arithmeticImmediate op dest lhs constant =>
      exact absurd (hshaped.2.address.symm.trans haddress) (by simp)
  | branch comparison lhs rhs target => exact hshaped.elim
  | jump target => exact hshaped.elim

/-- An access goes on once its address is computed. -/
theorem Slot.Accessing.work {base : String} {offset address : Int} {result : Option Float}
    (haccessing : slot.Accessing base offset delay) (haddress : slot.effective? = some address) :
    Slot.Accessing base offset delay { slot with step := slot.step - 1, result := result } := by
  rcases haccessing with ⟨hsymbolic, -⟩ | ⟨hstep, heffective⟩
  · simp [Slot.effective?, hsymbolic, Address.effective?] at haddress
  · exact .inr ⟨by simp only; omega, heffective⟩

theorem Slot.Shaped.load {address : Int} {result : Option Float}
    (hshaped : slot.Shaped delay operation) (hop : slot.op = .load)
    (haddress : slot.effective? = some address) (hnone : slot.result = none)
    (hresult : (slot.step - 1 = 0 ∧ result.isSome = true) ∨
      (slot.step - 1 ≠ 0 ∧ result = slot.result)) :
    Slot.Shaped delay { slot with step := slot.step - 1, result := result } operation := by
  cases operation with
  | load dest base offset =>
      obtain ⟨-, hk, haccessing, -⟩ := hshaped
      -- The value comes with the last step and not before.
      refine ⟨hop, hk, haccessing.work haddress, fun hsome => ?_, fun hlast hempty => ?_⟩
      · rcases hresult with ⟨hlast, -⟩ | ⟨-, rfl⟩
        · exact hlast
        · simp [hnone] at hsome
      · rcases hresult with ⟨-, hsome⟩ | ⟨hmore, -⟩
        · rw [show result = none from hempty] at hsome
          exact absurd hsome (by simp)
        · exact absurd hlast hmore
  | store source base offset => exact absurd (hop.symm.trans hshaped.1) (by simp)
  | loadImmediate dest constant => exact absurd (hop.symm.trans hshaped.2.2.op_eq) (by simp)
  | arithmetic op dest lhs rhs =>
      exact absurd (hop.symm.trans (Slot.Computing.op_eq hshaped)) (by simp)
  | arithmeticImmediate op dest lhs constant =>
      exact absurd (hop.symm.trans hshaped.2.op_eq) (by simp)
  | branch comparison lhs rhs target => exact hshaped.elim
  | jump target => exact hshaped.elim

theorem Slot.Shaped.commit {address : Int} (hshaped : slot.Shaped delay operation)
    (hop : slot.op = .store) (haddress : slot.effective? = some address) :
    Slot.Shaped delay { slot with step := slot.step - 1 } operation := by
  cases operation with
  | load dest base offset => exact absurd (hop.symm.trans hshaped.1) (by simp)
  | store source base offset => exact ⟨hop, hshaped.2.1.work haddress, hshaped.2.2⟩
  | loadImmediate dest constant => exact absurd (hop.symm.trans hshaped.2.2.op_eq) (by simp)
  | arithmetic op dest lhs rhs =>
      exact absurd (hop.symm.trans (Slot.Computing.op_eq hshaped)) (by simp)
  | arithmeticImmediate op dest lhs constant =>
      exact absurd (hop.symm.trans hshaped.2.op_eq) (by simp)
  | branch comparison lhs rhs target => exact hshaped.elim
  | jump target => exact hshaped.elim

end Work

end Fits

/-! ## Positions of stations in use -/

section Origin

variable {listing : Listing} {before after : State} {task : Task} {event : Event} {id : Nat}
  {slot : Slot}

/-- A station in use was in use before, for the same instruction, or has just been filled. -/
theorem Change.origin (hchange : Change listing before task event after)
    (hslot : after.stations.slot? id = some slot) :
    (∃ old, before.stations.slot? id = some old ∧ slot.seq = old.seq ∧ slot.op = old.op) ∨
      (before.stations.slot? id = none ∧ slot.seq = before.cursor.fetched ∧
        ∃ instruction, task = .issue instruction id) := by
  cases hchange with
  | enter _ hbound hfree hcapture =>
      rw [Pool.slot?_put hbound] at hslot
      split at hslot
      case isTrue hsite =>
        obtain rfl := Option.some.inj hslot
        subst hsite
        exact .inr ⟨hfree, Slot.seq_capture? hcapture, _, rfl⟩
      case isFalse => exact .inl ⟨slot, hslot, rfl, rfl⟩
  | steer => exact .inl ⟨slot, hslot, rfl, rfl⟩
  | work _ _ hworking =>
      rw [hworking.slots] at hslot
      split at hslot
      case isTrue hsite =>
        obtain rfl := Option.some.inj hslot
        subst hsite
        exact .inl ⟨_, hworking.held, hworking.seq, hworking.op⟩
      case isFalse => exact .inl ⟨slot, hslot, rfl, rfl⟩
  | publish _ _ =>
      rw [Pool.slot?_release] at hslot
      split at hslot
      case isTrue => exact absurd hslot (by simp)
      case isFalse =>
        rw [Pool.slot?_receive] at hslot
        obtain ⟨old, hold, rfl⟩ := Option.map_eq_some_iff.mp hslot
        exact .inl ⟨old, hold, rfl, rfl⟩
  | store hheld _ _ _ =>
      rw [Pool.slot?_release, Pool.slot?_work (Pool.lt_length_of_slot? hheld)] at hslot
      split at hslot
      case isTrue => exact absurd hslot (by simp)
      case isFalse => exact .inl ⟨slot, hslot, rfl, rfl⟩

end Origin

/-! ## The invariant -/

/-- Every station in use fits the instruction at its position, and no two hold the same position. -/
structure Lifecycle (listing : Listing) (state : State) : Prop where
  fits : ∀ id slot, state.stations.slot? id = some slot →
    ∃ instruction, state.cursor.instructionAt? listing slot.seq = some instruction ∧
      slot.Fits instruction (state.stations.delay id)
  distinct : ∀ id other slot held, state.stations.slot? id = some slot →
    state.stations.slot? other = some held → slot.seq = held.seq → id = other

section Lifecycle

variable {listing : Listing} {frozen state after : State} {task : Task} {todo : List Task}
  {event : Event} {id : Nat} {slot : Slot}

theorem Lifecycle.seq_lt (hlife : Lifecycle listing state)
    (hslot : state.stations.slot? id = some slot) : slot.seq < state.cursor.fetched := by
  obtain ⟨instruction, hat, -⟩ := hlife.fits id slot hslot
  exact Cursor.lt_fetched hat

/-- A station fits the instruction at the position that it holds. -/
theorem Lifecycle.fits_at (hlife : Lifecycle listing state)
    (hslot : state.stations.slot? id = some slot) {instruction : Instruction}
    (hat : state.cursor.instructionAt? listing slot.seq = some instruction) :
    slot.Fits instruction (state.stations.delay id) := by
  obtain ⟨held, hheld, hfits⟩ := hlife.fits id slot hslot
  obtain rfl := Option.some.inj (hat.symm.trans hheld)
  exact hfits

/-- A station whose instruction goes on fits it, if what it holds is still shaped for it. -/
theorem Lifecycle.fits_working (hlife : Lifecycle listing state) {held next : Slot}
    (hworking : Working state after id held next)
    (hsame : next.mnemonic = held.mnemonic ∧ next.codeOrder = held.codeOrder ∧ next.step ≤ held.step)
    (hshaped : ∀ operation, held.Shaped (state.stations.delay id) operation →
      next.Shaped (state.stations.delay id) operation)
    (hslot : after.stations.slot? id = some slot) :
    ∃ instruction, after.cursor.instructionAt? listing slot.seq = some instruction ∧
      slot.Fits instruction (after.stations.delay id) := by
  obtain ⟨hmnemonic, hcodeOrder, hstep⟩ := hsame
  obtain ⟨instruction, hat, hfits⟩ := hlife.fits id held hworking.held
  rw [hworking.slots, if_pos rfl] at hslot
  obtain rfl := Option.some.inj hslot
  refine ⟨instruction, by rw [hworking.cursor, hworking.seq]; exact hat, ?_⟩
  rw [hworking.delays]
  exact ⟨hmnemonic.trans hfits.mnemonic, hcodeOrder.trans hfits.codeOrder, hstep.trans hfits.step_le,
    hshaped _ hfits.shaped⟩

/-- What the station of a task holds afterwards fits its instruction. -/
theorem Lifecycle.fits_site (hlife : Lifecycle listing state)
    (hnow : Underway listing frozen state (task :: todo))
    (hperform : task.perform listing state = some (event, after)) (hsite : task.site? = some id)
    (hslot : after.stations.slot? id = some slot) :
    ∃ instruction, after.cursor.instructionAt? listing slot.seq = some instruction ∧
      slot.Fits instruction (after.stations.delay id) := by
  have henabled := hnow.enabled task (List.mem_cons_self ..)
  have hdelay := (hnow.change hperform).delay id
  -- A station task leaves its instruction in place; what remains is that the new slot fits it.
  cases task with
  | issue instruction site =>
      obtain rfl := Option.some.inj hsite
      obtain ⟨hnext, -⟩ := henabled
      obtain ⟨captured, _, _, hbound, hcapture, -, rfl⟩ := issue_spec hperform
      rw [Pool.slot?_put hbound, if_pos rfl] at hslot
      obtain rfl := Option.some.inj hslot
      refine ⟨instruction, ?_, ?_⟩
      · rw [Slot.seq_capture? hcapture, Cursor.instructionAt?_advance hnext, if_pos rfl]
      · rw [hdelay]
        exact Slot.fits_capture? (hnow.delays site hbound) hcapture
  | branch _ _ _ _ _ => exact absurd hsite (by simp [Task.site?, Task.station?])
  | jump _ _ => exact absurd hsite (by simp [Task.site?, Task.station?])
  | compute site =>
      obtain rfl := Option.some.inj hsite
      obtain ⟨held, hheld, ⟨op, lhs, rhs, hop, hj, hk⟩, hpositive, -⟩ :=
        (Task.enabled_iff rfl).mp henabled
      obtain ⟨name, ⟨hlast, -, rfl⟩ | ⟨hmore, -, rfl⟩⟩ := compute_spec hheld hop hj hk hperform
      · exact hlife.fits_working (working_of_work hheld ⟨rfl, rfl, rfl, rfl⟩)
          ⟨rfl, rfl, Nat.sub_le ..⟩
          (fun _ hshaped => hshaped.compute hop hj hk hpositive (.inl ⟨hlast, rfl⟩)) hslot
      · exact hlife.fits_working (working_of_work hheld ⟨rfl, rfl, rfl, rfl⟩)
          ⟨rfl, rfl, Nat.sub_le ..⟩
          (fun _ hshaped => hshaped.compute hop hj hk hpositive (.inr ⟨hmore, rfl⟩)) hslot
  | locate site =>
      obtain rfl := Option.some.inj hsite
      obtain ⟨held, hheld, -⟩ := (Task.enabled_iff rfl).mp henabled
      have hpositive := hnow.delays site (Pool.lt_length_of_slot? hheld)
      obtain ⟨_, baseValue, base, offset, hj, haddress, -,
        ⟨hop, hlast, -, rfl⟩ | ⟨-, rfl⟩⟩ := locate_spec hheld hperform
      · exact hlife.fits_working (working_of_afterRead hheld ⟨rfl, rfl, rfl, rfl⟩)
          ⟨rfl, rfl, Nat.sub_le ..⟩
          (fun _ hshaped => hshaped.locate hpositive hj haddress (.inr ⟨hop, hlast, rfl⟩)) hslot
      · exact hlife.fits_working (working_of_work hheld ⟨rfl, rfl, rfl, rfl⟩)
          ⟨rfl, rfl, Nat.sub_le ..⟩
          (fun _ hshaped => hshaped.locate hpositive hj haddress (.inl rfl)) hslot
  | load site =>
      obtain rfl := Option.some.inj hsite
      obtain ⟨held, hheld, hop, ⟨address, haddress⟩, -, hnone⟩ :=
        (Task.enabled_iff rfl).mp henabled
      obtain ⟨_, ⟨hlast, -, rfl⟩ | ⟨hmore, -, rfl⟩⟩ := load_spec hheld haddress hperform
      · exact hlife.fits_working (working_of_afterRead hheld ⟨rfl, rfl, rfl, rfl⟩)
          ⟨rfl, rfl, Nat.sub_le ..⟩
          (fun _ hshaped => hshaped.load hop haddress hnone (.inl ⟨hlast, rfl⟩)) hslot
      · exact hlife.fits_working (working_of_work hheld ⟨rfl, rfl, rfl, rfl⟩)
          ⟨rfl, rfl, Nat.sub_le ..⟩
          (fun _ hshaped => hshaped.load hop haddress hnone (.inr ⟨hmore, rfl⟩)) hslot
  | publish site =>
      obtain rfl := Option.some.inj hsite
      obtain ⟨_, _, _, _, _, -, -, -, rfl⟩ := publish_spec hperform
      simp at hslot
  | commit site =>
      obtain rfl := Option.some.inj hsite
      obtain ⟨held, hheld, hop, ⟨address, haddress⟩, -, value, hk⟩ :=
        (Task.enabled_iff rfl).mp henabled
      obtain ⟨_, ⟨-, -, rfl⟩ | ⟨-, -, rfl⟩⟩ := commit_spec hheld haddress hk hperform
      · simp [Pool.slot?_release] at hslot
      · exact hlife.fits_working (working_of_work hheld ⟨rfl, rfl, rfl, rfl⟩)
          ⟨rfl, rfl, Nat.sub_le ..⟩ (fun _ hshaped => hshaped.commit hop haddress) hslot

/-- Carrying out a task keeps every station in step with its instruction. -/
theorem Lifecycle.act (hlife : Lifecycle listing state)
    (hnow : Underway listing frozen state (task :: todo))
    (hperform : task.perform listing state = some (event, after)) : Lifecycle listing after where
  fits id slot hslot := by
    have hchange := hnow.change hperform
    by_cases hsite : task.site? = some id
    · exact hlife.fits_site hnow hperform hsite hslot
    · rcases hchange.slot?_of_ne hsite with hsame | ⟨producer, value, hsame⟩
      · rw [hsame] at hslot
        obtain ⟨instruction, hat, hfits⟩ := hlife.fits id slot hslot
        refine ⟨instruction, ?_, by rwa [hchange.delay]⟩
        rwa [hchange.extends.instructionAt? (hlife.seq_lt hslot)]
      · rw [hsame] at hslot
        obtain ⟨old, hold, rfl⟩ := Option.map_eq_some_iff.mp hslot
        obtain ⟨instruction, hat, hfits⟩ := hlife.fits id old hold
        refine ⟨instruction, ?_, by rw [hchange.delay]; exact hfits.receive producer value⟩
        exact (hchange.extends.instructionAt? (hlife.seq_lt hold)).trans hat
  distinct id other slot held hslot hheld hsame := by
    have hchange := hnow.change hperform
    -- A newly fetched instruction stands behind all others, and at most one station is filled.
    rcases hchange.origin hslot with ⟨old, hold, hseq, -⟩ | ⟨-, hseq, _, htask⟩ <;>
      rcases hchange.origin hheld with ⟨old', hold', hseq', -⟩ | ⟨-, hseq', _, htask'⟩
    · exact hlife.distinct id other old old' hold hold' (by omega)
    · have := hlife.seq_lt hold
      omega
    · have := hlife.seq_lt hold'
      omega
    · exact (Task.issue.inj (htask.symm.trans htask')).2

theorem Lifecycle.note {codeOrder : Nat} {action : Action} (hlife : Lifecycle listing state) :
    Lifecycle listing (state.note codeOrder action) :=
  ⟨hlife.fits, hlife.distinct⟩

theorem Lifecycle.tick (hlife : Lifecycle listing state) : Lifecycle listing state.tick where
  fits id slot hslot := by
    rw [State.tick, Pool.slot?_rest] at hslot
    rw [State.tick, Pool.delay_rest]
    exact hlife.fits id slot hslot
  distinct id other slot held hslot hheld := by
    rw [State.tick, Pool.slot?_rest] at hslot hheld
    exact hlife.distinct id other slot held hslot hheld

theorem Lifecycle.of_free (hfree : ∀ id, state.stations.slot? id = none) :
    Lifecycle listing state where
  fits id slot hslot := by simp [hfree] at hslot
  distinct id other slot held hslot := by simp [hfree] at hslot

/-- What a cycle relies on: every station takes time, and each one in use is in step with its
instruction. -/
structure State.InStep (listing : Listing) (state : State) : Prop where
  lifecycle : Lifecycle listing state
  delays : ∀ id < state.stations.length, 0 < state.stations.delay id

/-- Stations that are in step with their instructions stay so. -/
theorem Execution.inStep {initial : State} {journal : List Deed}
    (hnow : Execution listing initial frozen journal state todo) (hstart : initial.InStep listing) :
    state.InStep listing := by
  refine ⟨?_, (hnow.underway hstart.delays).delays⟩
  induction hnow with
  | start => exact hstart.lifecycle
  | tick _ ih => exact ih.tick
  | pass _ _ ih => exact ih
  | act hnow hperform ih => exact (ih.act (hnow.underway hstart.delays) hperform).note

/-- At every point of an execution from a machine at rest, every station is in step with its
instruction. -/
theorem Execution.lifecycle {initial : State} {journal : List Deed}
    (hnow : Execution listing initial frozen journal state todo)
    (hfree : ∀ id, initial.stations.slot? id = none)
    (hdelays : ∀ id < initial.stations.length, 0 < initial.stations.delay id) :
    Lifecycle listing state :=
  (hnow.inStep ⟨.of_free hfree, hdelays⟩).lifecycle

/-- What has been fetched stays fetched. -/
theorem Execution.extends {initial : State} {journal : List Deed}
    (hnow : Execution listing initial frozen journal state todo)
    (hdelays : ∀ id < initial.stations.length, 0 < initial.stations.delay id) {deed : Deed}
    (hdeed : deed ∈ journal) :
    state.cursor.Extends deed.after.cursor ∧ deed.after.cursor.Extends deed.before.cursor := by
  induction hnow with
  | start => simp at hdeed
  | tick _ ih => exact ih hdeed
  | pass _ _ ih => exact ih hdeed
  | act hnow hperform ih =>
      have hextends := ((hnow.underway hdelays).change hperform).extends
      rcases List.mem_append.mp hdeed with hold | hnew
      · obtain ⟨hlater, hdone⟩ := ih hold
        exact ⟨Cursor.Extends.trans hextends hlater, hdone⟩
      · obtain rfl := List.mem_singleton.mp hnew
        exact ⟨Cursor.Extends.refl _, hextends⟩

end Lifecycle

end Tomasulo
