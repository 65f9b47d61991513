import Tomasulo.Proofs.Cycle
import Tomasulo.Proofs.Renaming
import Tomasulo.Proofs.WellFormed

/-!
# Why a machine stands still

A cycle without progress always has a cause in the program: the run is over, an operand was read from a
register that never had a value, a branch compares such a register, or no station can hold the next
instruction (`State.Standstill`).  Waiting for tags, for the address unit, for the bus, for a station to
become free or behind a memory guard never stops the machine.

The reason is the order of fetching.  The oldest instruction in a station waits for no tag, because tags
name older instructions, and behind no guard, because guards protect older accesses.  So if it has its
operands it could go on (`Slot.Fits.exists_suits`), and then something happens in the cycle.
-/

namespace Tomasulo

/-- Whether an instruction needs an operand that was read from a register without a value. -/
def Slot.Starved (slot : Slot) : Prop :=
  slot.j = .empty ∨ slot.op ≠ .load ∧ slot.k = .empty

/-- Why nothing happens in a cycle. -/
inductive State.Standstill (listing : Listing) (state : State) : Prop
  /-- Nothing is left to fetch and every station is free. -/
  | idle (hidle : state.isIdle listing = true)
  /-- The oldest instruction in a station needs an operand that nobody supplies. -/
  | starved {id : Nat} {slot : Slot} (hslot : state.stations.slot? id = some slot)
      (holdest : ∀ other younger, state.stations.slot? other = some younger → other ≠ id →
        slot.seq < younger.seq)
      (hstarved : slot.Starved)
  /-- The next instruction compares a register without a value. -/
  | undecided {instruction : Instruction} {comparison : Comparison} {lhs rhs target : String}
      (hfree : state.stations.anyBusy = false)
      (hnext : state.cursor.next? listing = some instruction)
      (hbranch : instruction.operation = .branch comparison lhs rhs target)
      (hempty : state.registers.get lhs = .empty ∨ state.registers.get rhs = .empty)
  /-- No station holds instructions of the class of the next one. -/
  | unserved {instruction : Instruction} (hfree : state.stations.anyBusy = false)
      (hnext : state.cursor.next? listing = some instruction)
      (hcontrol : instruction.isControl = false)
      (hclass : ∀ station ∈ state.stations,
        station.stationClass.accepts instruction.opClass = false)

/-! ## The oldest instruction -/

section Oldest

variable {listing : Listing} {state : State} {id delay : Nat} {slot : Slot}
  {instruction : Instruction}

theorem Operand.exists_ready {operand : Operand} (hsupplied : operand ≠ .empty)
    (hsettled : ∀ id, operand ≠ .waiting id) : ∃ value, operand = .ready value := by
  cases operand with
  | empty => exact absurd rfl hsupplied
  | ready value => exact ⟨value, rfl⟩
  | waiting id => exact absurd rfl (hsettled id)

/-- An instruction that waits for no tag and has what it needs could go on. -/
theorem Slot.Fits.exists_suits (hfits : slot.Fits instruction delay) (hfed : ¬ slot.Starved)
    (hsettled : ∀ producer, slot.j ≠ .waiting producer ∧ slot.k ≠ .waiting producer) (id : Nat) :
    ∃ task : Task, task.station? = some id ∧ slot.Suits delay task := by
  obtain ⟨hj, hk⟩ := not_or.mp hfed
  obtain ⟨base, hbase⟩ := Operand.exists_ready hj fun producer => (hsettled producer).1
  have hvalue (hop : slot.op ≠ .load) : ∃ value, slot.k = .ready value :=
    Operand.exists_ready (fun hempty => hk ⟨hop, hempty⟩) fun producer => (hsettled producer).2
  cases hop : slot.op with
  | alu op =>
      have hcomputing := hfits.computing hop
      rcases Nat.eq_zero_or_pos slot.step with hdone | hpositive
      · have hresult := Option.isSome_iff_exists.mp (hcomputing.result_iff.mpr hdone)
        exact ⟨.publish id, rfl, by simp [hop], hdone, hresult⟩
      · obtain ⟨value, hk⟩ := hvalue (by simp [hop])
        exact ⟨.compute id, rfl, ⟨op, base, value, hop, hbase, hk⟩, hpositive, hfits.step_le⟩
  | load =>
      rcases hfits.symbolic_or_effective (.inl hop) with ⟨hnone, hdue, -⟩ | ⟨haddress, hbegun⟩
      · exact ⟨.locate id, rfl, .inl hop, hdue, hnone, base, hbase⟩
      · -- The value is read, or it waits for the bus.
        cases hresult : slot.result with
        | none => exact ⟨.load id, rfl, hop, haddress, hbegun, hresult⟩
        | some value =>
            have hdone := hfits.result_of_load hop (by rw [hresult]; rfl)
            exact ⟨.publish id, rfl, by simp [hop], hdone, value, hresult⟩
  | store =>
      rcases hfits.symbolic_or_effective (.inr hop) with ⟨hnone, hdue, -⟩ | ⟨haddress, hbegun⟩
      · exact ⟨.locate id, rfl, .inr hop, hdue, hnone, base, hbase⟩
      · exact ⟨.commit id, rfl, hop, haddress, hbegun, hvalue (by simp [hop])⟩

/-- Among the stations in use one holds the oldest instruction. -/
theorem Lifecycle.exists_oldest (hlife : Lifecycle listing state)
    (hbusy : state.stations.anyBusy = true) :
    ∃ id slot, state.stations.slot? id = some slot ∧
      ∀ other younger, state.stations.slot? other = some younger → other ≠ id →
        slot.seq < younger.seq := by
  obtain ⟨site, held, hheld⟩ : ∃ site held, state.stations.slot? site = some held := by
    by_contra hnone
    simp only [not_exists, ← Option.eq_none_iff_forall_ne_some] at hnone
    rw [Pool.anyBusy_eq_false_iff.mpr hnone] at hbusy
    exact absurd hbusy (by simp)
  obtain ⟨entry, hentry, -⟩ := Pool.exists_occupied_of_slot? hheld
  obtain ⟨id, hid⟩ : ∃ id, (state.stations.byAge fun _ => true).head? = some id :=
    Pool.exists_head?_byAge hentry rfl
  obtain ⟨oldest, holdest, rfl, -, hfirst⟩ := Pool.head?_byAge hid
  have hslot := Pool.slot?_of_mem_occupied holdest
  refine ⟨oldest.id, oldest.slot, hslot, fun other younger hyounger hne => ?_⟩
  obtain ⟨rival, hrival, -, rfl⟩ := Pool.exists_occupied_of_slot? hyounger
  refine lt_of_le_of_ne (hfirst rival hrival rfl) fun hsame => hne ?_
  exact (hlife.distinct _ _ _ _ hslot hyounger hsame).symm

/-- Guards protect older accesses, so none stands in the way of the oldest instruction. -/
theorem State.not_guarded_of_oldest (hslot : state.stations.slot? id = some slot)
    (holdest : ∀ other younger, state.stations.slot? other = some younger → other ≠ id →
      slot.seq < younger.seq) {task : Task} (hstation : task.station? = some id) :
    ¬ state.Guarded task := by
  have hfree (kind : Slot → Bool) : state.stations.olderConflict slot kind ≠ true := by
    intro hconflict
    obtain ⟨_, -, other, older, holder, hlt, -⟩ := Pool.olderConflict_iff.mp hconflict
    by_cases hsite : other = id
    · subst hsite
      obtain rfl := Option.some.inj (hslot.symm.trans holder)
      exact lt_irrefl _ hlt
    · exact lt_asymm hlt (holdest other older holder hsite)
  cases task with
  | load site =>
      obtain rfl := Option.some.inj hstation
      rw [Guarded, Pool.loadBlocked_eq hslot]
      exact hfree _
  | commit site =>
      obtain rfl := Option.some.inj hstation
      rw [Guarded, Pool.storeBlocked_eq hslot]
      exact hfree _
  | _ => exact not_false

end Oldest

/-! ## Causes -/

section Causes

variable {listing : Listing} {initial frozen state : State} {journal : List Deed} {todo : List Task}

/-- If a station is in use and nothing is planned, the oldest instruction starves. -/
theorem Execution.starved_of_busy (hnow : Execution listing initial frozen journal state todo)
    (hfresh : initial.Fresh) (hbusy : state.stations.anyBusy = true)
    (hnothing : (state.plan listing).tasks = []) : state.Standstill listing := by
  have hlife := hnow.lifecycle hfresh.free hfresh.delays
  have hexact := (hnow.dataflow hfresh).tagsExact hlife hfresh.settled
  obtain ⟨id, slot, hslot, holdest⟩ := hlife.exists_oldest hbusy
  obtain ⟨instruction, -, hfits⟩ := hlife.fits id slot hslot
  -- Whatever a tag names would be older still.
  have hsettled (producer : Nat) : ¬ (slot.j = .waiting producer ∨ slot.k = .waiting producer) := by
    intro hwaiting
    obtain ⟨hne, older, holder, hlt⟩ := hexact.older id slot producer hslot hwaiting
    exact lt_asymm hlt (holdest producer older holder (Ne.symm hne))
  refine .starved hslot holdest (by_contra fun hfed => ?_)
  obtain ⟨task, hstation, hsuits⟩ :=
    hfits.exists_suits hfed (fun producer => not_or.mp (hsettled producer)) id
  exact tasks_ne_nil_of_suits hslot hstation hsuits
    (State.not_guarded_of_oldest hslot holdest hstation) hnothing

/-- While no station is in use, a register that has no value never gets one. -/
theorem Execution.eq_empty_of_free (hnow : Execution listing initial frozen journal state todo)
    (hfresh : initial.Fresh) (hfree : state.stations.anyBusy = false) {name : String}
    (hnone : (state.registers.get name).value? = none) : state.registers.get name = .empty := by
  have hlife := hnow.lifecycle hfresh.free hfresh.delays
  have hexact := (hnow.dataflow hfresh).tagsExact hlife hfresh.settled
  cases hregister : state.registers.get name with
  | empty => rfl
  | ready value => simp [hregister, Register.value?] at hnone
  | pending id =>
      obtain ⟨m, -, slot, hslot, -⟩ := (hexact.registers name id).mp hregister
      rw [Pool.anyBusy_eq_false_iff.mp hfree] at hslot
      exact absurd hslot (by simp)

/-- If nothing is planned, there is a cause for it. -/
theorem Execution.standstill (hnow : Execution listing initial frozen journal state todo)
    (hfresh : initial.Fresh) (hclosed : listing.Closed)
    (hnothing : (state.plan listing).tasks = []) : state.Standstill listing := by
  cases hfree : state.stations.anyBusy with
  | true => exact hnow.starved_of_busy hfresh hfree hnothing
  | false =>
      have hfetch (task : Task) : state.fetch listing ≠ .act task :=
        fun hact => tasks_ne_nil_of_fetch hact hnothing
      cases hnext : state.cursor.next? listing with
      | none =>
          have hexhausted := hclosed.next?_eq_none_iff.mp hnext
          exact .idle (by simp [State.isIdle, hexhausted, hfree])
      | some instruction =>
          unfold State.fetch at hfetch
          simp only [hnext] at hfetch
          split at hfetch
          case h_1 => exact absurd rfl (hfetch _)
          case h_2 comparison lhs rhs target hbranch =>
            split at hfetch
            case h_1 => exact absurd rfl (hfetch _)
            case h_2 hmissing =>
              refine .undecided hfree hnext hbranch ?_
              cases hleft : (state.registers.get lhs).value? with
              | none => exact .inl (hnow.eq_empty_of_free hfresh hfree hleft)
              | some left =>
                  refine .inr (hnow.eq_empty_of_free hfresh hfree ?_)
                  cases hright : (state.registers.get rhs).value? with
                  | none => rfl
                  | some right => exact (hmissing left right hleft hright).elim
          case h_3 hjump hbranch =>
            split at hfetch
            case h_1 => exact absurd rfl (hfetch _)
            case h_2 hnone =>
              refine .unserved hfree hnext ?_ fun station hstation => ?_
              · unfold Instruction.isControl
                cases hoperation : instruction.operation with
                | branch comparison lhs rhs target =>
                    exact absurd hoperation (hbranch comparison lhs rhs target)
                | jump target => exact absurd hoperation (hjump target)
                | _ => rfl
              · refine Pool.freeFor?_eq_none_iff.mp hnone station hstation ?_
                have hresting := List.any_eq_false.mp hfree station hstation
                simpa [Station.isBusy] using hresting

/-- Marking the units as resting is no cause. -/
theorem State.Standstill.of_tick (hcause : state.tick.Standstill listing) :
    state.Standstill listing := by
  have hbusy : state.tick.stations.anyBusy = state.stations.anyBusy := by
    simp only [State.tick, Pool.rest, Pool.anyBusy, List.any_map]
    rfl
  have hslots (id : Nat) : state.tick.stations.slot? id = state.stations.slot? id := Pool.slot?_rest
  cases hcause with
  | idle hidle =>
      refine .idle ?_
      unfold State.isIdle at hidle ⊢
      rwa [hbusy] at hidle
  | starved hslot holdest hstarved =>
      rw [hslots] at hslot
      simp only [hslots] at holdest
      exact .starved hslot holdest hstarved
  | undecided hfree hnext hbranch hempty => exact .undecided (hbusy ▸ hfree) hnext hbranch hempty
  | unserved hfree hnext hcontrol hclass =>
      refine .unserved (hbusy ▸ hfree) hnext hcontrol fun station hstation => ?_
      exact hclass { station with working := false } (List.mem_map_of_mem hstation)

end Causes

/-! ## Main statement -/

/-- On every sound configuration, from registers that wait for nothing, a cycle of any run makes no
progress only if there is a cause in the program.  That the sections name only instructions of the listing
holds of all that are read from a source (`Listing.wellFormed_ofSource?`). -/
theorem quiet_only_at_standstill {listing : Listing} {registers : RegisterFile} {memory : Memory}
    {configuration : Configuration} {journal : List Deed} {state : State}
    (hclosed : listing.Closed) (hsound : configuration.error? = none)
    (hsettled : ∀ name producer, registers.get name ≠ .pending producer)
    (hrun : Run listing (.initial listing registers memory configuration.stations) journal state)
    (hquiet : (state.cycleOnce listing).report.progressed = false) : state.Standstill listing := by
  have hfresh : (State.initial listing registers memory configuration.stations).Fresh :=
    State.fresh_initial hsound hsettled
  obtain ⟨frozen, hnow⟩ := hrun.execution
  have hcause := hnow.tick.standstill hfresh hclosed (progressed_eq_false_iff.mp hquiet)
  exact hcause.of_tick

namespace Chain

/-- The machine in which the first factor of the product has no value. -/
def hungry : State :=
  .initial listing (RegisterFile.write .empty "f2" 2) .empty {}

end Chain

/-- Without its first factor the product starves in its station after two cycles, and the sum waits for
it. -/
theorem quiet_only_at_standstill_chain :
    ((Chain.hungry.afterCycles Chain.listing 2).cycleOnce Chain.listing).report.progressed = false ∧
      (Chain.hungry.afterCycles Chain.listing 2).Standstill Chain.listing ∧
      (Chain.hungry.afterCycles Chain.listing 2).stations.anyBusy = true := by
  have hclosed : Chain.listing.Closed := by decide
  have hsound : Configuration.error? {} = none := by decide
  have hsettled (name : String) (producer : Nat) :
      (RegisterFile.write .empty "f2" 2).get name ≠ .pending producer := by
    rw [RegisterFile.get_write]
    split <;> exact Register.noConfusion
  have hquiet : ((Chain.hungry.afterCycles Chain.listing 2).cycleOnce
      Chain.listing).report.progressed = false := by decide +kernel
  exact ⟨hquiet, quiet_only_at_standstill hclosed hsound hsettled (Run.afterCycles 2) hquiet,
    by decide +kernel⟩

end Tomasulo
