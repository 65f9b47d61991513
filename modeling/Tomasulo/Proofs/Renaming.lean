import Tomasulo.Proofs.Content

/-!
# Renaming

Registers and operands that wait are tagged with the number of a station.  Station numbers are reused,
and in a loop several instances of one instruction may be under way, so it has to be shown that a tag
always means the instruction that program order asks for.

* A register is tagged with a station exactly if that station holds the last fetched instruction that
  writes the register; an operand is tagged exactly if the station holds the last such instruction in
  front of its own (`TagsExact`).
* When a station publishes, everything that waits for it receives the value, and afterwards nothing
  waits for it any more (`Deed.HeardByAll`).

Both are shown in every state that a run shows, between cycles and within them.
-/

namespace Tomasulo

/-- Whether a station holds the last instruction before a position that writes a register. -/
def State.Supplies (listing : Listing) (state : State) (name : String) (n id : Nat) : Prop :=
  ∃ m, state.cursor.lastWriter? listing name n = some m ∧ state.Holds id m

/-- Tags name the stations that program order asks for. -/
structure TagsExact (listing : Listing) (journal : List Deed) (state : State) : Prop where
  registers : ∀ name id,
    state.registers.get name = .pending id ↔
      state.Supplies listing name state.cursor.fetched id
  operands : ∀ holder slot, state.stations.slot? holder = some slot →
    ∃ instruction, state.cursor.instructionAt? listing slot.seq = some instruction ∧
      (∀ id, slot.j = .waiting id ↔
        ∃ name, instruction.operation.first? = some name ∧ state.Supplies listing name slot.seq id) ∧
      (∀ id, slot.k = .waiting id ↔
        ∃ name, instruction.operation.second? = some name ∧ state.Supplies listing name slot.seq id)
  /-- The station that a tag names is busy with an instruction that writes the register, is no store
  and has not published yet. -/
  supplier : ∀ name n id, state.Supplies listing name n id →
    ∃ slot instruction, state.stations.slot? id = some slot ∧ slot.op ≠ .store ∧ slot.seq < n ∧
      state.cursor.instructionAt? listing slot.seq = some instruction ∧
      instruction.operation.dest? = some name ∧ publishedAt? journal slot.seq = none
  /-- Operands wait for older instructions, in other stations. -/
  older : ∀ holder slot id, state.stations.slot? holder = some slot →
    slot.j = .waiting id ∨ slot.k = .waiting id →
      holder ≠ id ∧ ∃ producer, state.stations.slot? id = some producer ∧ producer.seq < slot.seq

/-- If a deed publishes the result of a station, then everything that waits for the station receives
it, and nothing waits for the station afterwards. -/
def Deed.HeardByAll (deed : Deed) : Prop :=
  ∀ id value, deed.task = .publish id → deed.event.published? = some value →
    (∀ name, deed.before.registers.get name = .pending id →
      deed.after.registers.get name = .ready value) ∧
    (∀ holder slot, deed.before.stations.slot? holder = some slot → holder ≠ id →
      ∃ next, deed.after.stations.slot? holder = some next ∧
        (slot.j = .waiting id → next.j = .ready value) ∧
        (slot.k = .waiting id → next.k = .ready value)) ∧
    (∀ name, deed.after.registers.get name ≠ .pending id) ∧
    ∀ holder slot, deed.after.stations.slot? holder = some slot →
      slot.j ≠ .waiting id ∧ slot.k ≠ .waiting id

/-! ## Tags -/

section Tags

variable {listing : Listing} {registers : RegisterFile} {journal : List Deed} {state : State}
  {name : String} {n id : Nat}

theorem Operand.ofRegister_eq_waiting_iff {register : Register} :
    ofRegister register = .waiting id ↔ register = .pending id := by
  cases register <;> simp [ofRegister]

/-- What stands for a content is a tag exactly if the instruction that supplies it is under way. -/
theorem Content.eq_pending_iff {register : Register}
    (hcontent : Content listing registers journal state name n register)
    (hflow : Dataflow listing registers journal state) (hlife : Lifecycle listing state)
    (hsettled : ∀ name producer, registers.get name ≠ .pending producer) :
    register = .pending id ↔ state.Supplies listing name n id := by
  constructor
  · rintro rfl
    cases hcontent with
    | known hknown =>
        unfold contentBefore? at hknown
        split at hknown
        case h_1 => exact absurd (Option.some.inj hknown) (hsettled name id)
        case h_2 =>
          obtain ⟨value, -, hvalue⟩ := Option.map_eq_some_iff.mp hknown
          exact absurd hvalue (by simp)
    | awaited hlast hheld => exact ⟨_, hlast, hheld⟩
  · rintro ⟨m, hlast, hheld⟩
    cases hcontent with
    | known hknown =>
        unfold contentBefore? at hknown
        simp only [hlast] at hknown
        obtain ⟨value, hvalue, -⟩ := Option.map_eq_some_iff.mp hknown
        exact absurd hheld ((hflow.published m value hvalue).2 id)
    | @awaited other _ hlast' hother =>
        obtain rfl := Option.some.inj (hlast.symm.trans hlast')
        obtain ⟨slot, hslot, hseq⟩ := hheld
        obtain ⟨slot', hslot', hseq'⟩ := hother
        rw [hlife.distinct other id slot' slot hslot' hslot (hseq'.trans hseq.symm)]

/-- Constants do not wait. -/
theorem Slot.Fits.ne_waiting {slot : Slot} {instruction : Instruction} {delay : Nat}
    (hfits : slot.Fits instruction delay) :
    (instruction.operation.first? = none → slot.j ≠ .waiting id) ∧
      (instruction.operation.second? = none → slot.k ≠ .waiting id) := by
  have hshaped := hfits.shaped
  cases hoperation : instruction.operation <;> rw [hoperation] at hshaped
  case load => simp [Operation.first?, hshaped.2.1]
  case store => simp [Operation.first?, Operation.second?]
  case loadImmediate => simp [hshaped.1, hshaped.2.1]
  case arithmetic => simp [Operation.first?, Operation.second?]
  case arithmeticImmediate => simp [Operation.first?, hshaped.1]
  case branch => exact hshaped.elim
  case jump => exact hshaped.elim

theorem Operand.Captures.eq_waiting_iff {operand : Operand} {source? : Option String}
    (hcaptures : operand.Captures source? (Content listing registers journal state · n))
    (hconstant : source? = none → operand ≠ .waiting id)
    (hflow : Dataflow listing registers journal state) (hlife : Lifecycle listing state)
    (hsettled : ∀ name producer, registers.get name ≠ .pending producer) :
    operand = .waiting id ↔ ∃ name, source? = some name ∧ state.Supplies listing name n id := by
  cases source? with
  | none =>
      have hne := hconstant rfl
      simp [hne]
  | some source =>
      obtain ⟨register, hcontent, rfl⟩ := hcaptures source rfl
      rw [Operand.ofRegister_eq_waiting_iff, hcontent.eq_pending_iff hflow hlife hsettled]
      simp

theorem Dataflow.tagsExact (hflow : Dataflow listing registers journal state)
    (hlife : Lifecycle listing state)
    (hsettled : ∀ name producer, registers.get name ≠ .pending producer) :
    TagsExact listing journal state := by
  have hoperands (holder : Nat) (slot : Slot) (hslot : state.stations.slot? holder = some slot) :
      ∃ instruction, state.cursor.instructionAt? listing slot.seq = some instruction ∧
        (∀ id, slot.j = .waiting id ↔ ∃ name, instruction.operation.first? = some name ∧
          state.Supplies listing name slot.seq id) ∧
        (∀ id, slot.k = .waiting id ↔ ∃ name, instruction.operation.second? = some name ∧
          state.Supplies listing name slot.seq id) := by
    obtain ⟨instruction, hat, hfits⟩ := hlife.fits holder slot hslot
    obtain ⟨hj, hk⟩ := hflow.operands holder slot instruction hslot hat
    exact ⟨instruction, hat,
      fun id => hj.eq_waiting_iff hfits.ne_waiting.1 hflow hlife hsettled,
      fun id => hk.eq_waiting_iff hfits.ne_waiting.2 hflow hlife hsettled⟩
  refine ⟨fun name id => (hflow.contents name).eq_pending_iff hflow hlife hsettled, hoperands, ?_, ?_⟩
  · rintro name n id ⟨m, hlast, slot, hslot, rfl⟩
    obtain ⟨instruction, hat, hfits⟩ := hlife.fits id slot hslot
    -- A station that supplies a register holds an instruction that writes it, hence no store.
    have hdest : instruction.operation.dest? = some name := by
      have hwrites := Cursor.writes_of_lastWriter? hlast
      unfold Cursor.Writes at hwrites
      rwa [hat, Option.bind_some] at hwrites
    refine ⟨slot, instruction, hslot, fun hop => ?_, Cursor.lastWriter?_lt hlast, hat, hdest, ?_⟩
    · obtain ⟨source, base, offset, hoperation⟩ := hfits.exists_store hop
      rw [hoperation] at hdest
      exact absurd hdest (by simp [Operation.dest?])
    · refine Option.eq_none_iff_forall_ne_some.mpr fun value hvalue => ?_
      exact (hflow.published slot.seq value hvalue).2 id ⟨slot, hslot, rfl⟩
  · intro holder slot id hslot hwaiting
    obtain ⟨instruction, -, hj, hk⟩ := hoperands holder slot hslot
    have hsupplies : ∃ name, state.Supplies listing name slot.seq id := by
      rcases hwaiting with hwaiting | hwaiting
      · obtain ⟨name, -, hsupplies⟩ := (hj id).mp hwaiting
        exact ⟨name, hsupplies⟩
      · obtain ⟨name, -, hsupplies⟩ := (hk id).mp hwaiting
        exact ⟨name, hsupplies⟩
    obtain ⟨name, m, hlast, producer, hproducer, rfl⟩ := hsupplies
    -- The awaited instruction is older, so no station waits for itself.
    have hlt := Cursor.lastWriter?_lt hlast
    refine ⟨?_, producer, hproducer, hlt⟩
    rintro rfl
    obtain rfl := Option.some.inj (hslot.symm.trans hproducer)
    exact lt_irrefl _ hlt

end Tags

/-! ## Publications -/

section Publications

variable {listing : Listing} {id : Nat} {value : Float}

theorem Register.receive_ne_pending (register : Register) :
    register.receive id value ≠ .pending id := by
  cases register with
  | pending station =>
      rw [receive_pending]
      by_cases hsame : station = id <;> simp [hsame]
  | _ => simp

theorem Operand.receive_ne_waiting (operand : Operand) :
    operand.receive id value ≠ .waiting id := by
  cases operand with
  | waiting station =>
      rw [receive_waiting]
      by_cases hsame : station = id <;> simp [hsame]
  | _ => simp

theorem Operand.receive_of_eq_waiting {operand : Operand} (hwaiting : operand = .waiting id) :
    operand.receive id value = .ready value := by
  rw [hwaiting, receive_waiting, if_pos rfl]

theorem Deed.heardByAll {deed : Deed} (hperforms : deed.Performs listing) : deed.HeardByAll := by
  intro id value htask hvalue
  obtain ⟨after, hperform, hafter⟩ := hperforms
  rw [htask] at hperform
  obtain ⟨slot, result, _, _, _, -, -, hevent, rfl⟩ := publish_spec hperform
  rw [hevent] at hvalue
  obtain rfl : result = value := Option.some.inj hvalue
  have hregister (name : String) :
      deed.after.registers.get name = (deed.before.registers.get name).receive id result := by
    rw [hafter]
    exact RegisterFile.get_receive ..
  have hslot (holder : Nat) : deed.after.stations.slot? holder =
      if holder = id then none
      else (deed.before.stations.slot? holder).map (Slot.receive id result) := by
    rw [hafter]
    show ((deed.before.stations.receive id result).release id).slot? holder = _
    rw [Pool.slot?_release, Pool.slot?_receive]
  refine ⟨fun name hpending => ?_, fun holder slot hheld hne => ?_, fun name => ?_,
    fun holder slot hheld => ?_⟩
  · rw [hregister, hpending, Register.receive_pending, if_pos rfl]
  · refine ⟨slot.receive id result, by rw [hslot, if_neg hne, hheld]; rfl, ?_, ?_⟩ <;>
      exact Operand.receive_of_eq_waiting
  · rw [hregister]
    exact Register.receive_ne_pending _
  · rw [hslot] at hheld
    obtain ⟨-, hheld⟩ := Option.ite_none_left_eq_some.mp hheld
    obtain ⟨old, -, rfl⟩ := Option.map_eq_some_iff.mp hheld
    exact ⟨Operand.receive_ne_waiting _, Operand.receive_ne_waiting _⟩

end Publications

/-! ## Main statement -/

/-- On every sound configuration, from registers that wait for nothing, tags are exact in every state
that a run shows, and no publication so far was missed. -/
theorem renaming_exact {listing : Listing} {registers : RegisterFile} {memory : Memory}
    {configuration : Configuration} {journal : List Deed} {state : State}
    (hsound : configuration.error? = none)
    (hsettled : ∀ name producer, registers.get name ≠ .pending producer)
    (hobserved :
      Observed listing (.initial listing registers memory configuration.stations) journal state) :
    TagsExact listing journal state ∧ ∀ deed ∈ journal, deed.HeardByAll := by
  have hfresh : (State.initial listing registers memory configuration.stations).Fresh :=
    State.fresh_initial hsound hsettled
  obtain ⟨frozen, todo, hnow⟩ := hobserved.execution
  have hlife := hnow.lifecycle hfresh.free hfresh.delays
  refine ⟨(hnow.dataflow hfresh).tagsExact hlife hfresh.settled, fun deed hdeed => ?_⟩
  obtain ⟨_, _, _, _, -, -, hperforms⟩ := hnow.mem_journal hdeed
  exact Deed.heardByAll hperforms

/-- After two cycles the sum is in the fourth station: the register that it writes is tagged with it. -/
theorem renaming_exact_chain :
    TagsExact Chain.listing (Chain.journal 2) (Chain.state 2) ∧
      (∀ deed ∈ Chain.journal 2, deed.HeardByAll) ∧
      (Chain.state 2).registers.get "f6" = .pending 3 ∧
      (Chain.state 2).Supplies Chain.listing "f6" 2 3 := by
  have hsound : Configuration.error? {} = none := by decide
  have hpending : (Chain.state 2).registers.get "f6" = .pending 3 := rfl
  obtain ⟨hexact, hheard⟩ := renaming_exact hsound Chain.settled (.between (Chain.run 2))
  exact ⟨hexact, hheard, hpending, (hexact.registers "f6" 3).mp hpending⟩

end Tomasulo
