import Tomasulo.Assembly.Source
import Tomasulo.Proofs.Access
import Tomasulo.Proofs.Seeding

/-!
# The order of accesses to memory

Before a load reads and before a store writes, the machine looks for older accesses to the same cell that
are still to be made.  Computed addresses are compared by value; but as long as one of the two is not
computed, base register and offset are compared instead.  Two accesses through different registers, or at
different offsets, then count as different cells, whatever the registers hold.

* `accessed_before_iff` gives the exact condition under which the order of two conflicting accesses to
  one cell is kept: both name the same base and offset, or the older address was computed when the
  younger access was planned, or the older access is made earlier in the same cycle.
* `not_always_accessed_before` is about a run in which the order is lost: a load overtakes a store to
  the cell that it reads, because the base of the store is still pending.
-/

namespace Tomasulo

/-- Whether the instruction at a position is in a station that has not computed its address. -/
def State.Unlocated (state : State) (n : Nat) : Prop :=
  ∃ id slot, state.stations.slot? id = some slot ∧ slot.seq = n ∧ slot.effective? = none

/-- An access is made at an address that has been computed. -/
theorem Ledger.not_unlocated {listing : Listing} {journal : List Deed} {state : State} {n : Nat}
    (hledger : Ledger listing journal state) (haccessed : Accessed journal n) : ¬ state.Unlocated n := by
  rintro ⟨id, slot, hslot, rfl, hnone⟩
  exact (hledger.known id slot hslot).mp haccessed.located hnone

/-! ## What the guards let through -/

section Guards

variable {listing : Listing} {state : State} {id other delay : Nat} {slot older : Slot}
  {instruction : Instruction}

theorem Operation.opClass_eq_store_iff {operation : Operation} :
    operation.opClass = .store ↔ operation.stationOp? = some .store := by
  cases operation with
  | arithmetic op _ _ _ => cases op <;> simp [opClass, AluOp.opClass, stationOp?]
  | arithmeticImmediate op _ _ _ => cases op <;> simp [opClass, AluOp.opClass, stationOp?]
  | _ => simp [opClass, stationOp?]

theorem Instruction.opClass_of_store {source base : String} {offset : Int}
    (hstore : instruction.operation = .store source base offset) : instruction.opClass = .store := by
  rw [opClass, hstore]
  rfl

theorem Slot.Fits.opClass_eq_store_iff (hfits : slot.Fits instruction delay) :
    instruction.opClass = .store ↔ slot.op = .store := by
  rw [Instruction.opClass, Operation.opClass_eq_store_iff, hfits.stationOp?_eq, Option.some.injEq]

theorem Slot.Fits.isStore (hfits : slot.Fits instruction delay)
    (hclass : instruction.opClass = .store) : slot.isStore = true := by
  rw [Slot.isStore, hfits.opClass_eq_store_iff.mp hclass]
  rfl

/-- A computed address is written in its slot together with the place that the instruction names. -/
theorem Slot.Fits.effective_eq (hfits : slot.Fits instruction delay) (hmemory : slot.IsMemory)
    {x : Int} (heffective : slot.effective? = some x) :
    ∃ base baseValue offset, instruction.operation.place? = some (base, offset) ∧
      slot.address = some (.effective x base baseValue offset) := by
  obtain ⟨base, offset, hplace, hsymbolic | ⟨-, baseValue, -, haddress⟩⟩ := hfits.accessing hmemory
  · simp [Slot.effective?, hsymbolic.1, Address.effective?] at heffective
  · obtain rfl : _ = x := by simpa [Slot.effective?, haddress, Address.effective?] using heffective
    exact ⟨base, baseValue, offset, hplace, haddress⟩

/-- An older access that does not hold up an access to the same cell has no address yet, and names
another base or offset. -/
theorem Slot.Fits.unlocated_of_unblocked {pool : Pool} {kind : Slot → Bool} {x offset : Int}
    {base : String} {baseValue : Float} (hfits : older.Fits instruction delay)
    (hmemory : older.IsMemory) (hsame : ∀ y, older.effective? = some y → y = x)
    (hfree : pool.olderConflict slot kind = false) (holder : pool.slot? other = some older)
    (hkind : kind older = true) (hlt : older.seq < slot.seq)
    (hslot : slot.address = some (.effective x base baseValue offset)) :
    older.effective? = none ∧ instruction.operation.place? ≠ some (base, offset) := by
  obtain ⟨base', offset', hplace, haccessing⟩ := hfits.accessing hmemory
  have hdiffers {address : Address} (haddress : older.address = some address) :
      address.aliases (.effective x base baseValue offset) = false := by
    by_contra haliases
    have hconflict := Pool.olderConflict_iff.mpr ⟨_, hslot, other, older, holder, hlt, hkind, address,
      haddress, by simpa using haliases⟩
    simp [hfree] at hconflict
  rcases haccessing with ⟨hsymbolic, -⟩ | ⟨-, value, -, heffective⟩
  · refine ⟨by simp [Slot.effective?, hsymbolic, Address.effective?], ?_⟩
    have hplaces := hdiffers hsymbolic
    rw [hplace]
    simpa [Address.aliases, Address.effective?, Address.place] using hplaces
  · have hx := hsame _ (by simp [Slot.effective?, heffective, Address.effective?]; rfl)
    have haliases := hdiffers heffective
    simp [Address.aliases, Address.effective?, hx] at haliases

end Guards

/-! ## Overtaking -/

section Overtaking

variable {listing : Listing} {initial frozen : State} {journal done : List Deed} {deed : Deed}
  {todo rest : List Task} {access : Access} {m : Nat} {older younger : Instruction}
  {place : String × Int}

/-- A load or store that has not made its access waits in a station; if its address is computed, it is
the one that program order gives it. -/
theorem Execution.exists_waiting {state : State}
    (hnow : Execution listing initial frozen journal state todo) (hfresh : initial.Fresh)
    (holder : state.cursor.instructionAt? listing m = some older)
    (hplace : older.operation.place? = some place) (hnot : ¬ Accessed journal m) :
    ∃ id slot, state.stations.slot? id = some slot ∧ slot.seq = m ∧
      slot.Fits older (state.stations.delay id) ∧ slot.IsMemory ∧
      ∀ y, slot.effective? = some y → older.operation.address?
        (valueBefore? listing initial.registers journal state.cursor · m) = some y := by
  rcases (hnow.ledger hfresh).held m older place holder hplace with haccessed | ⟨id, slot, hslot, rfl⟩
  · exact absurd haccessed hnot
  · have hfits := (hnow.lifecycle hfresh.free hfresh.delays).fits_at hslot holder
    have hmemory := hfits.isMemory hplace
    exact ⟨id, slot, hslot, rfl, hfits, hmemory,
      fun _ heffective => (hnow.dataflow hfresh).effective hslot holder hfits hmemory heffective⟩

/-- An older access to the same cell that is still to be made, but does not hold up the younger one, has
no address yet and names another place. -/
theorem Execution.unlocated_of_guard {state : State} {pool : Pool} {slot : Slot} {kind : Slot → Bool}
    {x offset : Int} {base : String} {baseValue : Float}
    (hnow : Execution listing initial frozen journal state todo) (hfresh : initial.Fresh)
    (holder : state.cursor.instructionAt? listing m = some older)
    (hplace : older.operation.place? = some place) (hnot : ¬ Accessed journal m)
    (hsame : ∀ y, older.operation.address?
      (valueBefore? listing initial.registers journal state.cursor · m) = some y → y = x)
    (hpool : ∀ other waiting, state.stations.slot? other = some waiting → waiting.seq = m →
      pool.slot? other = some waiting)
    (hkind : ∀ waiting delay, waiting.Fits older delay → waiting.IsMemory → kind waiting = true)
    (hfree : pool.olderConflict slot kind = false) (hlt : m < slot.seq)
    (hslot : slot.address = some (.effective x base baseValue offset)) :
    state.Unlocated m ∧ older.operation.place? ≠ some (base, offset) := by
  obtain ⟨other, waiting, hwaiting, hm, hfits, hmemory, hcomputed⟩ :=
    hnow.exists_waiting hfresh holder hplace hnot
  have hcell (y : Int) (hy : waiting.effective? = some y) : y = x := hsame y (hcomputed y hy)
  obtain ⟨hnone, hdiffers⟩ :=
    hfits.unlocated_of_unblocked hmemory hcell hfree (hpool other waiting hwaiting hm)
      (hkind waiting _ hfits hmemory) (by omega) hslot
  exact ⟨⟨other, waiting, hwaiting, hm, hnone⟩, hdiffers⟩

/-- An address that is not computed now was not computed earlier. -/
theorem Execution.unlocated_earlier {origin earlier state : State}
    (hthen : Execution listing initial origin journal earlier todo)
    (hnow : Execution listing initial frozen (journal ++ done) state rest) (hfresh : initial.Fresh)
    (holder : earlier.cursor.instructionAt? listing m = some older)
    (hplace : older.operation.place? = some place) (hnot : ¬ Accessed journal m)
    (hunlocated : state.Unlocated m) : earlier.Unlocated m := by
  obtain ⟨other, waiting, hwaiting, hm, -⟩ := hthen.exists_waiting hfresh holder hplace hnot
  obtain ⟨id, slot, hslot, hseq, hnone⟩ := hunlocated
  refine ⟨other, waiting, hwaiting, hm, ?_⟩
  by_contra hcomputed
  obtain ⟨y, hy⟩ := ((hthen.ledger hfresh).known other waiting hwaiting).mpr hcomputed
  have hknown := ((hnow.ledger hfresh).known id slot hslot).mp
  exact hknown ⟨y, (hm.trans hseq.symm) ▸ hy.append done⟩ hnone

/-- If an access is made before an older one to the same cell that conflicts with it, then the older one
had no address when the cycle began, and names another place. -/
theorem Execution.unlocated_of_access
    (hstart : Execution listing initial frozen journal frozen todo)
    (hnow : Execution listing initial frozen (journal ++ done) deed.before (deed.task :: rest))
    (hfresh : initial.Fresh) (hperforms : deed.Performs listing)
    (haccess : deed.access? = some access)
    (holder : deed.before.cursor.instructionAt? listing m = some older)
    (hplace : older.operation.place? = some place)
    (hyounger : deed.before.cursor.instructionAt? listing deed.seq = some younger)
    (hlt : m < deed.seq) (hconflict : older.opClass = .store ∨ access.isWrite = true)
    (hsame : ∀ y, older.operation.address? (valueBefore? listing initial.registers (journal ++ done)
      deed.before.cursor · m) = some y → y = access.address)
    (hnot : ¬ Accessed (journal ++ done) m) :
    frozen.Unlocated m ∧ older.operation.place? ≠ younger.operation.place? := by
  have hunderway := hnow.underway hfresh.delays
  have hvalid := hnow.valid hfresh.inStep hperforms
  have hplanned := hunderway.planned _ (List.mem_cons_self ..)
  -- The younger access is in its station since before the cycle.
  obtain ⟨id, slot, hstation, hslot, htouches⟩ := hvalid.touches haccess
  obtain ⟨old, hold, hseq, hop, haddress⟩ :=
    hunderway.kept _ (List.mem_cons_self ..) id slot hstation hslot
  rw [Deed.seq_of_station hstation hslot] at hyounger hlt
  have hfits := hvalid.lifecycle.fits_at hslot hyounger
  -- So the older one had been fetched by then, too.
  have hbound : m < frozen.cursor.fetched := by
    have := (hstart.lifecycle hfresh.free hfresh.delays).seq_lt hold
    omega
  have holder' : frozen.cursor.instructionAt? listing m = some older := by
    rw [← hunderway.advanced.instructionAt? hbound, holder]
  have hnot' : ¬ Accessed journal m := fun haccessed => hnot (haccessed.append done)
  have hsame' (y : Int) (hy : older.operation.address?
      (valueBefore? listing initial.registers journal frozen.cursor · m) = some y) :
      y = access.address :=
    hsame y (Operation.address?_mono hy fun _ _ hvalue =>
      valueBefore?_mono hvalue hunderway.advanced hbound.le done)
  -- The guard of a planned access has been evaluated on the state at the beginning of the cycle.
  have hguard {kind : Slot → Bool} (heffective : slot.effective? = some access.address)
      (hkind : ∀ waiting delay, waiting.Fits older delay → waiting.IsMemory → kind waiting = true)
      (hfree : frozen.stations.olderConflict old kind = false) :
      frozen.Unlocated m ∧ older.operation.place? ≠ younger.operation.place? := by
    obtain ⟨base, baseValue, offset, hyoungerPlace, hslotAddress⟩ :=
      hfits.effective_eq htouches.isMemory heffective
    rw [hyoungerPlace]
    exact hstart.unlocated_of_guard hfresh holder' hplace hnot' hsame' (fun _ _ hwaiting _ => hwaiting)
      hkind hfree (by omega) (haddress ▸ hslotAddress)
  cases hvalid.reach with
  | silent _ hnone _ => exact absurd (hnone.symm.trans haccess) (by simp)
  | located _ _ _ hnone _ => exact absurd (hnone.symm.trans haccess) (by simp)
  | @readAtOnce site held base offset baseValue htask hheld hload _ hsymbolic hfree _ hread _ =>
      obtain rfl := Option.some.inj (hread.symm.trans haccess)
      obtain rfl : site = id := by simpa [htask, Task.station?] using hstation
      obtain rfl := Option.some.inj (hheld.symm.trans hslot)
      have hsite := Pool.lt_length_of_slot? hslot
      have hstore := hconflict.resolve_right (by simp [Access.isWrite])
      -- The guard of a load that reads at once is evaluated only now.
      have hthere (other : Nat) (waiting : Slot)
          (hwaiting : deed.before.stations.slot? other = some waiting) (hm : waiting.seq = m) :
          (deed.before.stations.work site (held.located base baseValue offset)).slot? other =
            some waiting := by
        have hne : other ≠ site := by
          rintro rfl
          rw [Option.some.inj (hwaiting.symm.trans hslot)] at hm
          omega
        rw [Pool.slot?_work hsite, if_neg hne, hwaiting]
      rw [Pool.loadBlocked_eq ((Pool.slot?_work hsite).trans (if_pos rfl))] at hfree
      have hyoungest : m < (held.located base baseValue offset).seq := hlt
      obtain ⟨hunlocated, hdiffers⟩ := hnow.unlocated_of_guard hfresh holder hplace hnot hsame hthere
        (fun _ _ hfits _ => hfits.isStore hstore) hfree hyoungest rfl
      obtain ⟨base', offset', hyoungerPlace, haccessing⟩ := hfits.accessing htouches.isMemory
      obtain ⟨rfl, rfl, -⟩ := haccessing.symbolic_eq hsymbolic
      rw [hyoungerPlace]
      exact ⟨hstart.unlocated_earlier hnow hfresh holder' hplace hnot' hunlocated, hdiffers⟩
  | @read site held address htask hheld hload _ heffective _ hread _ =>
      obtain rfl := Option.some.inj (hread.symm.trans haccess)
      obtain rfl : site = id := by simpa [htask, Task.station?] using hstation
      obtain rfl := Option.some.inj (hheld.symm.trans hslot)
      have hstore := hconflict.resolve_right (by simp [Access.isWrite])
      have hfree := loadBlocked_eq_false_of_mem_plan (htask ▸ hplanned)
      rw [Pool.loadBlocked_eq hold] at hfree
      exact hguard heffective (fun _ _ hfits _ => hfits.isStore hstore) hfree
  | @write site held address value htask hheld _ _ heffective _ hwrite _ =>
      obtain rfl := Option.some.inj (hwrite.symm.trans haccess)
      obtain rfl : site = id := by simpa [htask, Task.station?] using hstation
      obtain rfl := Option.some.inj (hheld.symm.trans hslot)
      have hfree := storeBlocked_eq_false_of_mem_plan (htask ▸ hplanned)
      rw [Pool.storeBlocked_eq hold] at hfree
      refine hguard heffective (fun waiting _ _ hmemory => ?_) hfree
      rcases hmemory with hwhat | hwhat <;> simp [Slot.isLoad, Slot.isStore, hwhat]

end Overtaking

/-! ## Main statement -/

/-- On every sound configuration, from registers that wait for nothing: let an access be made, and let
the instruction at an older position compute, now or later, the same address, one of the two being a
store.  The older access has then been made before, exactly if both instructions name the same base and
offset, or the older address had been computed when the cycle was planned, or the older access is made
earlier in the same cycle. -/
theorem accessed_before_iff {listing : Listing} {registers : RegisterFile} {memory : Memory}
    {configuration : Configuration} {journal done later whole : List Deed} {origin final : State}
    {deed : Deed} {access : Access} {m : Nat} {older younger : Instruction}
    (hsound : configuration.error? = none)
    (hsettled : ∀ name producer, registers.get name ≠ .pending producer)
    (hrun : Run listing (.initial listing registers memory configuration.stations) journal origin)
    (hdeeds : origin.deeds listing = done ++ deed :: later) (haccess : deed.access? = some access)
    (hwhole : Run listing (.initial listing registers memory configuration.stations) whole final)
    (hgoesOn : journal ++ origin.deeds listing <+: whole) (hlocated : Located whole m access.address)
    (hlt : m < deed.seq) (holder : final.cursor.instructionAt? listing m = some older)
    (hyounger : final.cursor.instructionAt? listing deed.seq = some younger)
    (hconflict : older.opClass = .store ∨ access.isWrite = true) :
    Accessed (journal ++ done) m ↔
      older.operation.place? = younger.operation.place? ∨ ¬ origin.Unlocated m ∨ Accessed done m := by
  have hfresh : (State.initial listing registers memory configuration.stations).Fresh :=
    State.fresh_initial hsound hsettled
  obtain ⟨_, hbetween⟩ := hrun.execution
  obtain ⟨_, hend⟩ := hwhole.execution
  obtain ⟨rest, hnow, hperforms⟩ := hbetween.tick.deeds hdeeds
  have hvalid := hnow.valid hfresh.inStep hperforms
  -- The deed and everything before it belong to the whole run.
  obtain ⟨more, hmore⟩ := hgoesOn
  have hsplit : whole = (journal ++ done) ++ (deed :: later ++ more) := by
    rw [← hmore, hdeeds]
    simp
  have hdeed : deed ∈ whole := by
    rw [hsplit]
    simp
  obtain ⟨hlater, hadvanced⟩ := hend.extends hfresh.delays hdeed
  have hextends := hlater.trans hadvanced
  have hbound : deed.seq < deed.before.cursor.fetched := by
    obtain ⟨id, slot, hstation, hslot, -⟩ := hvalid.touches haccess
    rw [Deed.seq_of_station hstation hslot]
    exact hvalid.lifecycle.seq_lt hslot
  have holder' : deed.before.cursor.instructionAt? listing m = some older := by
    rw [← hextends.instructionAt? (by omega), holder]
  have hyounger' : deed.before.cursor.instructionAt? listing deed.seq = some younger := by
    rw [← hextends.instructionAt? hbound, hyounger]
  have haddress : older.operation.address? (valueBefore? listing registers whole final.cursor · m) =
      some access.address := by
    obtain ⟨other, hother, rfl, hwhat⟩ := hlocated
    exact hend.address?_of_deed hfresh hother hwhat holder
  obtain ⟨place, hplace, -⟩ := Option.bind_eq_some_iff.mp haddress
  have hunlocated : origin.tick.Unlocated m ↔ origin.Unlocated m := by
    simp [State.Unlocated, State.tick]
  constructor
  · intro haccessed
    rcases accessed_append_iff.mp haccessed with hearlier | hnow'
    · refine .inr (.inl fun hthen => ?_)
      exact (hbetween.tick.ledger hfresh).not_unlocated hearlier (hunlocated.mpr hthen)
    · exact .inr (.inr hnow')
  · intro hreason
    by_contra hnot
    obtain ⟨hthen, hdiffers⟩ := hbetween.tick.unlocated_of_access hnow hfresh hperforms haccess
      holder' hplace hyounger' hlt hconflict
      (fun y hy => Option.some.inj ((Operation.address?_mono hy fun _ _ hvalue => by
        rw [hsplit]
        exact valueBefore?_mono hvalue hextends (by omega) _).symm.trans haddress)) hnot
    rcases hreason with hsame | hcomputed | hearlier
    · exact hdiffers hsame
    · exact hcomputed (hunlocated.mp hthen)
    · exact hnot (accessed_append_iff.mpr (.inr hearlier))

/-! ## A load that overtakes a store

The base of the store is a product, which takes five cycles.  The load names the same cell through a factor
of the product, which is ready at once, or through the product itself.
-/

namespace Overtaking

/-- The program in which the load names a given base. -/
def listing (base : String) : Listing where
  instructions :=
    [⟨"mul a1,a0,x1", "mul", 0, .arithmetic .mul "a1" "a0" "x1"⟩,
      ⟨"sw x5,0(a1)", "sw", 1, .store "x5" "a1" 0⟩,
      ⟨"lw x6,0(" ++ base ++ ")", "lw", 2, .load "x6" base 0⟩]
  sections := [⟨"main", [0, 1, 2]⟩]
  initialValues := OrderedMap.insert (OrderedMap.insert .empty "a0" 100) "x1" 1

/-- The text of the program in which the load names the factor. -/
def source : String :=
  "# a0 = 100\n# x1 = 1\nmul a1,a0,x1\nsw x5,0(a1)\nlw x6,0(a0)\n"

theorem ofSource?_source : Listing.ofSource? source = some (listing "a0") := by
  rfl

/-- The default machine after some cycles. -/
def state (base : String) (count : Nat) : State :=
  State.afterCycles (listing base) ((listing base).initialState {}) count

/-- What it has done by then. -/
def journal (base : String) (count : Nat) : List Deed :=
  State.journal (listing base) ((listing base).initialState {}) count

theorem run (base : String) (count : Nat) :
    Run (listing base) ((listing base).initialState {}) (journal base count) (state base count) :=
  Run.afterCycles count

/-- A deed of a cycle that makes an access, with the deeds around it. -/
theorem exists_deed (base : String) (count n seq : Nat) (address : Int)
    (hdeed : (((state base count).deeds (listing base))[n]?.map fun deed =>
      (deed.seq, deed.access?.map Access.address)) = some (seq, some address)) :
    ∃ deed access, (state base count).deeds (listing base) =
        ((state base count).deeds (listing base)).take n ++
          deed :: ((state base count).deeds (listing base)).drop (n + 1) ∧
      deed.seq = seq ∧ deed.access? = some access ∧ access.address = address := by
  obtain ⟨deed, hat, hwhat⟩ := Option.map_eq_some_iff.mp hdeed
  obtain ⟨hseq, haddress⟩ := Prod.mk.inj hwhat
  obtain ⟨access, haccess, rfl⟩ := Option.map_eq_some_iff.mp haddress
  obtain ⟨hbound, rfl⟩ := List.getElem?_eq_some_iff.mp hat
  refine ⟨_, access, ?_, hseq, haccess, rfl⟩
  rw [← List.drop_eq_getElem_cons hbound, List.take_append_drop]

end Overtaking

/-- A load that names the base of the store reads after the store has written. -/
theorem accessed_before_iff_same_base : Accessed (Overtaking.journal "a1" 11 ++ []) 1 := by
  have hsound : Configuration.error? {} = none := by decide
  obtain ⟨deed, access, hdeeds, hseq, haccess, haddress⟩ :=
    Overtaking.exists_deed "a1" 11 0 2 100 (by decide +kernel)
  have hlocated : Located (Overtaking.journal "a1" 12) 1 access.address := by
    rw [haddress]
    decide +kernel
  have holder : (Overtaking.state "a1" 12).cursor.instructionAt? (Overtaking.listing "a1") 1 =
      some ⟨"sw x5,0(a1)", "sw", 1, .store "x5" "a1" 0⟩ := by decide +kernel
  have hyounger :
      (Overtaking.state "a1" 12).cursor.instructionAt? (Overtaking.listing "a1") deed.seq =
        some ⟨"lw x6,0(a1)", "lw", 2, .load "x6" "a1" 0⟩ := by
    rw [hseq]
    decide +kernel
  exact (accessed_before_iff hsound (Overtaking.listing "a1").seeded_settled
    (Overtaking.run "a1" 11) hdeeds haccess (Overtaking.run "a1" 12) (List.prefix_refl _) hlocated
    (by omega) holder hyounger (.inl rfl)).mpr (.inl rfl)

/-- The order is not always kept: a load reads the cell before the store in front of it, which computes the
same address later, has written it. -/
theorem not_always_accessed_before :
    ¬ ∀ (source : String) (listing : Listing) (configuration : Configuration)
      (journal done later whole : List Deed) (origin final : State) (deed : Deed) (access : Access)
      (m : Nat) (older : Instruction),
      Listing.ofSource? source = some listing → configuration.error? = none →
      Run listing (listing.initialState configuration.stations) journal origin →
      origin.deeds listing = done ++ deed :: later → deed.access? = some access →
      Run listing (listing.initialState configuration.stations) whole final →
      journal ++ origin.deeds listing <+: whole → Located whole m access.address →
      m < deed.seq → final.cursor.instructionAt? listing m = some older →
      older.opClass = .store ∨ access.isWrite = true → Accessed (journal ++ done) m := by
  intro hkept
  obtain ⟨deed, access, hdeeds, hseq, haccess, haddress⟩ :=
    Overtaking.exists_deed "a0" 5 1 2 100 (by decide +kernel)
  have hlocated : Located (Overtaking.journal "a0" 10) 1 access.address := by
    rw [haddress]
    decide +kernel
  have holder : (Overtaking.state "a0" 10).cursor.instructionAt? (Overtaking.listing "a0") 1 =
      some ⟨"sw x5,0(a1)", "sw", 1, .store "x5" "a1" 0⟩ := by decide +kernel
  have hgoesOn : Overtaking.journal "a0" 5 ++
      (Overtaking.state "a0" 5).deeds (Overtaking.listing "a0") <+: Overtaking.journal "a0" 10 :=
    State.journal_prefix (show 6 ≤ 10 by omega)
  have haccessed := hkept Overtaking.source _ {} _ _ _ _ _ _ deed access 1 _ Overtaking.ofSource?_source
    (by decide) (Overtaking.run "a0" 5) hdeeds haccess (Overtaking.run "a0" 10) hgoesOn hlocated
    (by omega) holder (.inl rfl)
  exact absurd haccessed (by decide +kernel)

end Tomasulo
