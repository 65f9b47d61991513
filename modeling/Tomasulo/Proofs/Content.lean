import Tomasulo.Proofs.Lifecycle

/-!
# What registers contain in program order

Program order gives every register a content before each position of the order of fetching: what the last
instruction in front of that position published for it, or what it held at the start
(`contentBefore?`).  While that instruction is under way the content is not known yet, and the machine
stands in for it with the number of the station.  `Content` covers both cases.

The invariant `Dataflow` says that registers, and the operands in the stations, always contain what
program order gives them: registers before the next position to be fetched, operands before the position
of their instruction.  It holds at every point of every execution from a machine at rest whose registers
wait for nothing (`Execution.dataflow`).  That tags name the right stations and that values are the right
ones are two readings of it.
-/

namespace Tomasulo

/-- Whether a station holds the instruction at a position. -/
def State.Holds (state : State) (id n : Nat) : Prop :=
  ∃ slot, state.stations.slot? id = some slot ∧ slot.seq = n

/-- The register from which an instruction in a station takes its first operand. -/
def Operation.first? : Operation → Option String
  | .load _ base _ | .store _ base _ => some base
  | .arithmetic _ _ lhs _ | .arithmeticImmediate _ _ lhs _ => some lhs
  | .loadImmediate .. | .branch .. | .jump .. => none

/-- The register from which an instruction in a station takes its second operand. -/
def Operation.second? : Operation → Option String
  | .store source _ _ => some source
  | .arithmetic _ _ _ rhs => some rhs
  | _ => none

/-- The content of a register before a position, as far as it is known from a journal. -/
def contentBefore? (listing : Listing) (registers : RegisterFile) (journal : List Deed)
    (cursor : Cursor) (name : String) (n : Nat) : Option Register :=
  match cursor.lastWriter? listing name n with
  | none => some (registers.get name)
  | some m => (publishedAt? journal m).map .ready

/-- What stands in a machine for the content of a register before a position. -/
inductive Content (listing : Listing) (registers : RegisterFile) (journal : List Deed) (state : State)
    (name : String) (n : Nat) : Register → Prop
  | known {register : Register}
      (hknown : contentBefore? listing registers journal state.cursor name n = some register) :
      Content listing registers journal state name n register
  | awaited {id m : Nat} (hlast : state.cursor.lastWriter? listing name n = some m)
      (hheld : state.Holds id m) : Content listing registers journal state name n (.pending id)

theorem Instruction.dest?_of_isControl {instruction : Instruction}
    (hcontrol : instruction.isControl = true) : instruction.operation.dest? = none := by
  unfold Instruction.isControl at hcontrol
  cases hoperation : instruction.operation <;>
    simp_all [Operation.isControl, Operation.dest?]

/-- Whether an operand stands for the content of the register that it was captured from. -/
def Operand.Captures (operand : Operand) (source? : Option String)
    (content : String → Register → Prop) : Prop :=
  ∀ name, source? = some name → ∃ register, content name register ∧ operand = .ofRegister register

/-- Registers and operands contain what program order gives them. -/
structure Dataflow (listing : Listing) (registers : RegisterFile) (journal : List Deed)
    (state : State) : Prop where
  contents : ∀ name,
    Content listing registers journal state name state.cursor.fetched (state.registers.get name)
  operands : ∀ id slot instruction, state.stations.slot? id = some slot →
    state.cursor.instructionAt? listing slot.seq = some instruction →
    slot.j.Captures instruction.operation.first?
        (Content listing registers journal state · slot.seq) ∧
      slot.k.Captures instruction.operation.second?
        (Content listing registers journal state · slot.seq)
  published : ∀ n value, publishedAt? journal n = some value →
    n < state.cursor.fetched ∧ ∀ id, ¬ state.Holds id n

/-! ## Publications in a journal -/

section Published

variable {journal : List Deed} {n : Nat}

theorem publishedAt?_append (later : List Deed) :
    publishedAt? (journal ++ later) n = (publishedAt? journal n).or (publishedAt? later n) := by
  unfold publishedAt?
  exact List.findSome?_append

theorem publishedAt?_singleton (deed : Deed) :
    publishedAt? [deed] n = if deed.seq = n then deed.event.published? else none := by
  unfold publishedAt?
  rw [List.findSome?_cons]
  split <;> simp_all

theorem publishedAt?_silent {deed : Deed} (hsilent : deed.event.published? = none) :
    publishedAt? (journal ++ [deed]) n = publishedAt? journal n := by
  rw [publishedAt?_append, publishedAt?_singleton, hsilent, ite_self, Option.or_none]

/-- What is known of a content stays known. -/
theorem contentBefore?_append {listing : Listing} {registers : RegisterFile} {cursor : Cursor}
    {name : String} {register : Register}
    (hknown : contentBefore? listing registers journal cursor name n = some register)
    (later : List Deed) :
    contentBefore? listing registers (journal ++ later) cursor name n = some register := by
  unfold contentBefore? at hknown ⊢
  cases hlast : cursor.lastWriter? listing name n with
  | none => simpa [hlast] using hknown
  | some m =>
      simp only [hlast] at hknown ⊢
      obtain ⟨value, hvalue, rfl⟩ := Option.map_eq_some_iff.mp hknown
      rw [publishedAt?_append, hvalue]
      rfl

/-- What is known of a content does not depend on how far fetching has gone on. -/
theorem Cursor.Extends.contentBefore? {listing : Listing} {registers : RegisterFile}
    {later earlier : Cursor} (hlater : later.Extends earlier) {name : String}
    (hbound : n ≤ earlier.fetched) :
    contentBefore? listing registers journal later name n =
      contentBefore? listing registers journal earlier name n := by
  unfold Tomasulo.contentBefore?
  rw [hlater.lastWriter? hbound]

end Published

/-! ## Which positions are held -/

section Holds

variable {listing : Listing} {before after : State} {task : Task} {event : Event} {id n : Nat}

theorem Operand.Captures.imp {operand : Operand} {source? : Option String}
    {content content' : String → Register → Prop} (hcaptures : operand.Captures source? content)
    (himp : ∀ name register, content name register → content' name register) :
    operand.Captures source? content' := by
  intro name hsource
  obtain ⟨register, hcontent, hoperand⟩ := hcaptures name hsource
  exact ⟨register, himp name register hcontent, hoperand⟩

/-- Operands receive what registers receive. -/
theorem Operand.Captures.receive {operand : Operand} {source? : Option String}
    {content content' : String → Register → Prop} {producer : Nat} {value : Float}
    (hcaptures : operand.Captures source? content)
    (hreceive : ∀ name register, content name register →
      content' name (register.receive producer value)) :
    (operand.receive producer value).Captures source? content' := by
  intro name hsource
  obtain ⟨register, hcontent, rfl⟩ := hcaptures name hsource
  exact ⟨_, hreceive name register hcontent, Operand.receive_ofRegister register⟩

/-- Only the instruction that is fetched comes to be held. -/
theorem Change.holds_before (hchange : Change listing before task event after)
    (hheld : after.Holds id n) (hbound : n < before.cursor.fetched) : before.Holds id n := by
  obtain ⟨slot, hslot, rfl⟩ := hheld
  rcases hchange.origin hslot with ⟨old, hold, hseq, -⟩ | ⟨-, hseq, -⟩
  · exact ⟨old, hold, hseq.symm⟩
  · omega

/-- An instruction with a destination stays in its station until it publishes. -/
theorem Change.holds_of_silent (hchange : Change listing before task event after)
    (hlife : Lifecycle listing before) (hsilent : event.published? = none) {name : String}
    (hwrites : before.cursor.Writes listing name n) (hheld : before.Holds id n) :
    after.Holds id n := by
  obtain ⟨slot, hslot, rfl⟩ := hheld
  cases hchange with
  | @enter _ site _ _ _ _ hbound hfree _ =>
      have hne : id ≠ site := fun hsame => by simp [hsame, hfree] at hslot
      exact ⟨slot, by rw [Pool.slot?_put hbound, if_neg hne, hslot], rfl⟩
  | steer => exact ⟨slot, hslot, rfl⟩
  | @work _ _ _ site old next _ _ hworking =>
      by_cases hsite : id = site
      · obtain rfl : old = slot :=
          Option.some.inj (hworking.held.symm.trans (hsite ▸ hslot))
        exact ⟨next, by rw [hworking.slots, if_pos hsite], hworking.seq⟩
      · exact ⟨slot, by rw [hworking.slots, if_neg hsite, hslot], rfl⟩
  | publish => exact absurd hsilent (by simp [Event.published?])
  | @store site old next _ _ _ hold hop _ _ =>
      have hne : id ≠ site := by
        rintro rfl
        obtain rfl := Option.some.inj (hold.symm.trans hslot)
        -- The station that is freed holds a store, and stores have no destination.
        obtain ⟨instruction, hat, hfits⟩ := hlife.fits id old hold
        obtain ⟨source, base, offset, hoperation⟩ := hfits.exists_store hop
        unfold Cursor.Writes at hwrites
        rw [hat, Option.bind_some, hoperation] at hwrites
        exact absurd hwrites (by simp [Operation.dest?])
      have hbound := Pool.lt_length_of_slot? hold
      exact ⟨slot, by rw [Pool.slot?_release, if_neg hne, Pool.slot?_work hbound, if_neg hne, hslot],
        rfl⟩

/-- A publication frees one station; all others keep their instructions. -/
theorem Change.published_or_holds (hchange : Change listing before task event after)
    (hpublishes : event.published? ≠ none) (hheld : before.Holds id n) (journal : List Deed)
    (noted : State) :
    (∃ value, publishedAt? (journal ++ [⟨task, before, event, noted⟩]) n = some value) ∨
      ∃ id, after.Holds id n := by
  cases hchange with
  | enter => exact absurd rfl hpublishes
  | steer _ hsilent => exact absurd hsilent hpublishes
  | work _ hsilent _ => exact absurd hsilent hpublishes
  | store => exact absurd rfl hpublishes
  | @publish site slot value name registers stations hslot _ =>
      obtain ⟨held, hheldSlot, rfl⟩ := hheld
      by_cases hsite : id = site
      · refine .inl ?_
        obtain rfl := Option.some.inj (hslot.symm.trans (hsite ▸ hheldSlot))
        have hseq : Deed.seq ⟨.publish site, before,
            .published name slot.codeOrder value registers stations, noted⟩ = slot.seq :=
          Deed.seq_of_station rfl hslot
        rw [publishedAt?_append, publishedAt?_singleton, if_pos hseq]
        cases publishedAt? journal slot.seq with
        | none => exact ⟨value, rfl⟩
        | some earlier => exact ⟨earlier, rfl⟩
      · refine .inr ⟨id, held.receive site value, ?_, rfl⟩
        rw [Pool.slot?_release, if_neg hsite, Pool.slot?_receive, hheldSlot]
        rfl

/-- An instruction that has just been fetched is a branch or jump, or it is in a station. -/
theorem Change.holds_fetched (hchange : Change listing before task event after)
    {instruction : Instruction} (hat : after.cursor.instructionAt? listing n = some instruction)
    (hbound : before.cursor.fetched ≤ n) :
    instruction.isControl = true ∨ ∃ id, after.Holds id n := by
  have hnothing (hsame : after.cursor = before.cursor) :
      instruction.isControl = true ∨ ∃ id, after.Holds id n := by
    rw [hsame, Cursor.instructionAt?_eq_none hbound] at hat
    exact absurd hat (by simp)
  cases hchange with
  | @enter fetched id slot _ _ hnext hid hfree hcapture =>
      rw [Cursor.instructionAt?_advance hnext] at hat
      split at hat
      case isTrue hn =>
        refine .inr ⟨id, slot, ?_, (Slot.seq_capture? hcapture).trans hn.symm⟩
        rw [Pool.slot?_put hid, if_pos rfl]
      case isFalse =>
        rw [Cursor.instructionAt?_eq_none hbound] at hat
        exact absurd hat (by simp)
  | steer _ _ hnext hcontrol =>
      rw [Cursor.instructionAt?_advance hnext] at hat
      split at hat
      case isTrue =>
        obtain rfl := Option.some.inj hat
        exact .inl hcontrol
      case isFalse =>
        rw [Cursor.instructionAt?_eq_none hbound] at hat
        exact absurd hat (by simp)
  | work _ _ hworking => exact hnothing hworking.cursor
  | publish => exact hnothing rfl
  | store => exact hnothing rfl

end Holds

/-! ## How contents change -/

section Change

variable {listing : Listing} {registers : RegisterFile} {journal : List Deed} {before after : State}
  {task : Task} {event : Event} {deed : Deed} {name : String} {n : Nat} {register : Register}

/-- As long as nothing is published, contents stay what they are. -/
theorem Content.silent (hcontent : Content listing registers journal before name n register)
    (hchange : Change listing before task event after) (hlife : Lifecycle listing before)
    (hsilent : event.published? = none) (hevent : deed.event = event)
    (hbound : n ≤ before.cursor.fetched) :
    Content listing registers (journal ++ [deed]) after name n register := by
  have hlastWriter : after.cursor.lastWriter? listing name n = _ := hchange.extends.lastWriter? hbound
  cases hcontent with
  | known hknown =>
      refine .known ?_
      unfold contentBefore? at hknown ⊢
      rw [hlastWriter]
      simp only [publishedAt?_silent (hevent ▸ hsilent)]
      exact hknown
  | awaited hlast hheld =>
      refine .awaited (hlastWriter.trans hlast) ?_
      exact hchange.holds_of_silent hlife hsilent (Cursor.writes_of_lastWriter? hlast) hheld

/-- A publication makes the contents that wait for it known. -/
theorem Content.publish {id : Nat} {slot : Slot} {value : Float}
    (hcontent : Content listing registers journal before name n register)
    (hsettled : ∀ name producer, registers.get name ≠ .pending producer)
    (hslot : before.stations.slot? id = some slot) (hdeed : deed.seq = slot.seq)
    (hvalue : deed.event.published? = some value)
    (hunpublished : publishedAt? journal slot.seq = none) :
    Content listing registers (journal ++ [deed])
      { before with
        registers := before.registers.receive id value
        stations := (before.stations.receive id value).release id }
      name n (register.receive id value) := by
  cases hcontent with
  | known hknown =>
      -- What is known is a value or nothing, and neither waits.
      have hstays : register.receive id value = register := by
        unfold contentBefore? at hknown
        split at hknown
        case h_1 =>
          obtain rfl := Option.some.inj hknown
          cases hregister : registers.get name with
          | pending producer => exact absurd hregister (hsettled name producer)
          | _ => simp
        case h_2 =>
          obtain ⟨held, -, rfl⟩ := Option.map_eq_some_iff.mp hknown
          simp
      rw [hstays]
      exact .known (contentBefore?_append hknown [deed])
  | @awaited site m hlast hheld =>
      obtain ⟨held, hheldSlot, rfl⟩ := hheld
      rw [Register.receive_pending]
      -- Either the awaited station is the one that publishes, or it is awaited further.
      by_cases hsite : site = id
      · subst hsite
        obtain rfl := Option.some.inj (hslot.symm.trans hheldSlot)
        rw [if_pos rfl]
        refine .known ?_
        unfold contentBefore?
        rw [hlast]
        simp only [publishedAt?_append, publishedAt?_singleton, hunpublished, hdeed, hvalue,
          if_pos, Option.none_or, Option.map_some]
      · rw [if_neg hsite]
        refine .awaited hlast ⟨held.receive id value, ?_, rfl⟩
        rw [Pool.slot?_release, if_neg hsite, Pool.slot?_receive, hheldSlot]
        rfl

/-- Fetching an instruction leaves the contents of the registers that it does not write. -/
theorem Content.fetch {cursor : Cursor} {instruction : Instruction} (label : Option String)
    (hcontent : Content listing registers journal after name cursor.fetched register)
    (hnext : cursor.next? listing = some instruction)
    (hcursor : after.cursor = cursor.advance listing label)
    (hdest : instruction.operation.dest? ≠ some name) :
    Content listing registers journal after name after.cursor.fetched register := by
  have hlastWriter : after.cursor.lastWriter? listing name after.cursor.fetched =
      after.cursor.lastWriter? listing name cursor.fetched := by
    rw [hcursor, Cursor.fetched_advance hnext, Cursor.lastWriter?_advance_fetched hnext,
      if_neg hdest, (Cursor.extends_advance hnext label).lastWriter? le_rfl]
  cases hcontent with
  | known hknown =>
      unfold contentBefore? at hknown
      refine .known ?_
      unfold contentBefore?
      rw [hlastWriter]
      exact hknown
  | awaited hlast hheld => exact .awaited (hlastWriter.trans hlast) hheld

end Change

/-! ## The invariant -/

section Dataflow

variable {listing : Listing} {registers : RegisterFile} {journal : List Deed}
  {frozen before after : State} {task : Task} {event : Event} {deed : Deed} {todo : List Task}

/-- The operands of an instruction that enters a station are the registers as they stand. -/
theorem Slot.captures_capture? {instruction : Instruction} {seq delay : Nat} {slot : Slot}
    {content : String → Register → Prop} (hcontent : ∀ name, content name (registers.get name))
    (hslot : Slot.capture? registers instruction seq delay = some slot) :
    slot.j.Captures instruction.operation.first? content ∧
      slot.k.Captures instruction.operation.second? content := by
  have hregister (source : String) :
      (Operand.ofRegister (registers.get source)).Captures (some source) content := by
    rintro name ⟨⟩
    exact ⟨_, hcontent source, rfl⟩
  have hnothing (operand : Operand) : operand.Captures none content := by
    rintro name ⟨⟩
  obtain ⟨line, mnemonic, codeOrder, operation⟩ := instruction
  cases operation with
  | load dest base offset =>
      obtain rfl := Option.some.inj hslot
      exact ⟨hregister base, hnothing _⟩
  | store source base offset =>
      obtain rfl := Option.some.inj hslot
      exact ⟨hregister base, hregister source⟩
  | loadImmediate dest value =>
      obtain rfl := Option.some.inj hslot
      exact ⟨hnothing _, hnothing _⟩
  | arithmetic op dest lhs rhs =>
      obtain rfl := Option.some.inj hslot
      exact ⟨hregister lhs, hregister rhs⟩
  | arithmeticImmediate op dest lhs value =>
      obtain rfl := Option.some.inj hslot
      exact ⟨hregister lhs, hnothing _⟩
  | branch comparison lhs rhs target => exact absurd hslot (by simp [Slot.capture?])
  | jump target => exact absurd hslot (by simp [Slot.capture?])

/-- What has published is not under way any more. -/
theorem Dataflow.published_act (hflow : Dataflow listing registers journal before)
    (hlife : Lifecycle listing before) (hchange : Change listing before task event after)
    (htask : deed.task = task) (hbefore : deed.before = before) (hevent : deed.event = event) {n : Nat}
    {value : Float} (hpublished : publishedAt? (journal ++ [deed]) n = some value) :
    n < after.cursor.fetched ∧ ∀ id, ¬ after.Holds id n := by
  have hle := hchange.extends.fetched_le
  rw [publishedAt?_append, Option.or_eq_some_iff, publishedAt?_singleton] at hpublished
  rcases hpublished with hold | ⟨-, hnew⟩
  · obtain ⟨hbound, hfree⟩ := hflow.published n value hold
    exact ⟨by omega, fun id hheld => hfree id (hchange.holds_before hheld hbound)⟩
  · obtain ⟨hseq, hvalue⟩ := Option.ite_none_right_eq_some.mp hnew
    rw [hevent] at hvalue
    cases hchange with
    | enter => exact absurd hvalue (by simp [Event.published?])
    | steer _ hsilent _ _ => exact absurd hvalue (by simp [hsilent])
    | work _ hsilent _ => exact absurd hvalue (by simp [hsilent])
    | store => exact absurd hvalue (by simp [Event.published?])
    | @publish site slot _ _ _ _ hslot _ =>
        -- The instruction that publishes was in its station until now and leaves it.
        have hn : slot.seq = n := by
          rw [← hseq, Deed.seq_of_station (by rw [htask]; rfl) (by rw [hbefore]; exact hslot)]
        have hbound := hlife.seq_lt hslot
        refine ⟨by show n < before.cursor.fetched; omega, ?_⟩
        rintro id ⟨held, hheld, hsame⟩
        rw [Pool.slot?_release, Pool.slot?_receive] at hheld
        obtain ⟨hne, hheld⟩ := Option.ite_none_left_eq_some.mp hheld
        obtain ⟨old, hold, rfl⟩ := Option.map_eq_some_iff.mp hheld
        exact hne (hlife.distinct id site old slot hold hslot (hsame.trans hn.symm))

/-- As long as nothing is published, registers contain what they contained. -/
theorem Dataflow.contents_silent (hflow : Dataflow listing registers journal before)
    (hlife : Lifecycle listing before) (hchange : Change listing before task event after)
    (hevent : deed.event = event) (hsilent : event.published? = none) (name : String) :
    Content listing registers (journal ++ [deed]) after name before.cursor.fetched
      (before.registers.get name) :=
  (hflow.contents name).silent hchange hlife hsilent hevent le_rfl

/-- As long as nothing is published, operands stand for what they stood for. -/
theorem Dataflow.operands_silent (hflow : Dataflow listing registers journal before)
    (hlife : Lifecycle listing before) (hchange : Change listing before task event after)
    (hevent : deed.event = event) (hsilent : event.published? = none) {id : Nat} {slot : Slot}
    {instruction : Instruction} (hslot : before.stations.slot? id = some slot)
    (hat : after.cursor.instructionAt? listing slot.seq = some instruction) :
    slot.j.Captures instruction.operation.first?
        (Content listing registers (journal ++ [deed]) after · slot.seq) ∧
      slot.k.Captures instruction.operation.second?
        (Content listing registers (journal ++ [deed]) after · slot.seq) := by
  have hbound := hlife.seq_lt hslot
  rw [hchange.extends.instructionAt? hbound] at hat
  obtain ⟨hj, hk⟩ := hflow.operands id slot instruction hslot hat
  constructor
  · exact hj.imp fun _ _ hcontent => hcontent.silent hchange hlife hsilent hevent hbound.le
  · exact hk.imp fun _ _ hcontent => hcontent.silent hchange hlife hsilent hevent hbound.le

/-- A publishing instruction is still in its station, so it has not published before. -/
theorem Dataflow.unpublished (hflow : Dataflow listing registers journal before) {id : Nat}
    {slot : Slot} (hslot : before.stations.slot? id = some slot) :
    publishedAt? journal slot.seq = none := by
  refine Option.eq_none_iff_forall_ne_some.mpr fun value hvalue => ?_
  exact (hflow.published slot.seq value hvalue).2 id ⟨slot, hslot, rfl⟩

theorem Dataflow.contents_act (hflow : Dataflow listing registers journal before)
    (hlife : Lifecycle listing before)
    (hsettled : ∀ name producer, registers.get name ≠ .pending producer)
    (hchange : Change listing before task event after) (htask : deed.task = task)
    (hbefore : deed.before = before) (hevent : deed.event = event) (name : String) :
    Content listing registers (journal ++ [deed]) after name after.cursor.fetched
      (after.registers.get name) := by
  have hcontents := hflow.contents_silent hlife hchange hevent
  cases hchange with
  | @enter instruction site slot _ _ hnext hbound hfree hcapture =>
      show Content listing registers _ _ name (before.cursor.advance listing none).fetched
        ((before.registers.renamed instruction.operation.dest? site).get name)
      -- The destination waits for the station from now on, all other registers stay.
      rw [RegisterFile.get_renamed]
      by_cases hdest : instruction.operation.dest? = some name
      · rw [if_pos hdest, Cursor.fetched_advance hnext]
        refine .awaited ((Cursor.lastWriter?_advance_fetched hnext none name).trans (if_pos hdest))
          ⟨slot, ?_, Slot.seq_capture? hcapture⟩
        rw [Pool.slot?_put hbound, if_pos rfl]
      · rw [if_neg hdest]
        exact (hcontents rfl name).fetch none hnext rfl hdest
  | steer _ hsilent hnext hcontrol =>
      refine (hcontents hsilent name).fetch _ hnext rfl ?_
      rw [Instruction.dest?_of_isControl hcontrol]
      simp
  | work _ hsilent hworking =>
      rw [hworking.cursor, hworking.registers]
      exact hcontents hsilent name
  | @publish site slot _ _ _ _ hslot hvalue =>
      have hseq : deed.seq = slot.seq :=
        Deed.seq_of_station (by rw [htask]; rfl) (by rw [hbefore]; exact hslot)
      show Content listing registers _ _ name before.cursor.fetched
        ((before.registers.receive _ _).get name)
      rw [RegisterFile.get_receive]
      exact (hflow.contents name).publish hsettled hslot hseq (by rw [hevent]; rfl)
        (hflow.unpublished hslot)
  | store => exact hcontents rfl name

theorem Dataflow.operands_act (hflow : Dataflow listing registers journal before)
    (hlife : Lifecycle listing before)
    (hsettled : ∀ name producer, registers.get name ≠ .pending producer)
    (hchange : Change listing before task event after) (htask : deed.task = task)
    (hbefore : deed.before = before) (hevent : deed.event = event) {id : Nat} {slot : Slot}
    {instruction : Instruction} (hslot : after.stations.slot? id = some slot)
    (hat : after.cursor.instructionAt? listing slot.seq = some instruction) :
    slot.j.Captures instruction.operation.first?
        (Content listing registers (journal ++ [deed]) after · slot.seq) ∧
      slot.k.Captures instruction.operation.second?
        (Content listing registers (journal ++ [deed]) after · slot.seq) := by
  have hoperands (hsilent : event.published? = none) {id : Nat} {slot : Slot}
      (hslot : before.stations.slot? id = some slot)
      (hat : after.cursor.instructionAt? listing slot.seq = some instruction) :=
    hflow.operands_silent hlife hchange hevent hsilent hslot hat
  have hcontents := hflow.contents_silent hlife hchange hevent
  cases hchange with
  | @enter fetched site captured _ _ hnext hbound hfree hcapture =>
      rw [Pool.slot?_put hbound] at hslot
      split at hslot
      case isTrue =>
        -- The new instruction captures the registers as they stand.
        obtain rfl := Option.some.inj hslot
        have hcapturedSeq := Slot.seq_capture? hcapture
        rw [Cursor.instructionAt?_advance hnext, if_pos hcapturedSeq] at hat
        obtain rfl := Option.some.inj hat
        rw [hcapturedSeq]
        exact Slot.captures_capture? (hcontents rfl) hcapture
      case isFalse => exact hoperands rfl hslot hat
  | steer _ hsilent => exact hoperands hsilent hslot hat
  | @work _ _ _ site old next _ hsilent hworking =>
      rw [hworking.slots] at hslot
      split at hslot
      case isTrue =>
        obtain rfl := Option.some.inj hslot
        rw [hworking.seq] at hat ⊢
        rw [hworking.j, hworking.k]
        exact hoperands hsilent hworking.held hat
      case isFalse => exact hoperands hsilent hslot hat
  | @publish site producer _ _ _ _ hproducer hvalue =>
      rw [Pool.slot?_release, Pool.slot?_receive] at hslot
      obtain ⟨-, hslot⟩ := Option.ite_none_left_eq_some.mp hslot
      obtain ⟨old, hold, rfl⟩ := Option.map_eq_some_iff.mp hslot
      obtain ⟨hj, hk⟩ := hflow.operands id old instruction hold hat
      have hseq : deed.seq = producer.seq :=
        Deed.seq_of_station (by rw [htask]; rfl) (by rw [hbefore]; exact hproducer)
      have hpublish (name : String) (register : Register)
          (hcontent : Content listing registers journal before name old.seq register) :=
        hcontent.publish hsettled hproducer hseq (by rw [hevent]; rfl) (hflow.unpublished hproducer)
      exact ⟨hj.receive hpublish, hk.receive hpublish⟩
  | store hheld _ _ _ =>
      rw [Pool.slot?_release, Pool.slot?_work (Pool.lt_length_of_slot? hheld)] at hslot
      split at hslot
      case isTrue => exact absurd hslot (by simp)
      case isFalse => exact hoperands rfl hslot hat

/-- Carrying out a task keeps registers and operands in step with program order. -/
theorem Dataflow.act (hflow : Dataflow listing registers journal before)
    (hlife : Lifecycle listing before)
    (hsettled : ∀ name producer, registers.get name ≠ .pending producer)
    (hchange : Change listing before task event after) (htask : deed.task = task)
    (hbefore : deed.before = before) (hevent : deed.event = event) :
    Dataflow listing registers (journal ++ [deed]) after where
  contents := hflow.contents_act hlife hsettled hchange htask hbefore hevent
  operands _ _ _ := hflow.operands_act hlife hsettled hchange htask hbefore hevent
  published _ _ := hflow.published_act hlife hchange htask hbefore hevent

theorem Dataflow.note {state : State} {codeOrder : Nat} {action : Action}
    (hflow : Dataflow listing registers journal state) :
    Dataflow listing registers journal (state.note codeOrder action) := by
  have hcontent {name : String} {n : Nat} {register : Register}
      (h : Content listing registers journal state name n register) :
      Content listing registers journal (state.note codeOrder action) name n register := by
    cases h with
    | known hknown => exact .known hknown
    | awaited hlast hheld => exact .awaited hlast hheld
  exact ⟨fun name => hcontent (hflow.contents name), fun id slot instruction hslot hat =>
    ⟨(hflow.operands id slot instruction hslot hat).1.imp fun _ _ => hcontent,
      (hflow.operands id slot instruction hslot hat).2.imp fun _ _ => hcontent⟩, hflow.published⟩

theorem State.holds_tick {state : State} {id n : Nat} : state.tick.Holds id n ↔ state.Holds id n := by
  simp [Holds, tick]

theorem Dataflow.tick {state : State} (hflow : Dataflow listing registers journal state) :
    Dataflow listing registers journal state.tick := by
  have hcontent {name : String} {n : Nat} {register : Register}
      (h : Content listing registers journal state name n register) :
      Content listing registers journal state.tick name n register := by
    cases h with
    | known hknown => exact .known hknown
    | awaited hlast hheld => exact .awaited hlast (State.holds_tick.mpr hheld)
  refine ⟨fun name => hcontent (hflow.contents name), fun id slot instruction hslot hat => ?_,
    fun n value hvalue => ?_⟩
  · rw [State.tick, Pool.slot?_rest] at hslot
    obtain ⟨hj, hk⟩ := hflow.operands id slot instruction hslot hat
    exact ⟨hj.imp fun _ _ => hcontent, hk.imp fun _ _ => hcontent⟩
  · obtain ⟨hbound, hfree⟩ := hflow.published n value hvalue
    exact ⟨hbound, fun id hheld => hfree id (State.holds_tick.mp hheld)⟩

/-- Before anything is fetched, registers contain what they contain at the start. -/
theorem Dataflow.of_start {state : State} (hfree : ∀ id, state.stations.slot? id = none)
    (hfetched : state.cursor.fetched = 0) : Dataflow listing state.registers [] state where
  contents name := by
    rw [hfetched]
    exact .known rfl
  operands id slot instruction hslot := by simp [hfree] at hslot
  published n value hvalue := by simp [publishedAt?] at hvalue

end Dataflow

/-! ## Machines that start afresh -/

/-- What is assumed of the machine before the first cycle: nothing has been fetched, every station is
free and takes time, and no register waits for anything. -/
structure State.Fresh (state : State) : Prop where
  fetched : state.cursor.fetched = 0
  free : ∀ id, state.stations.slot? id = none
  delays : ∀ id < state.stations.length, 0 < state.stations.delay id
  settled : ∀ name producer, state.registers.get name ≠ .pending producer

theorem State.Fresh.inStep {listing : Listing} {state : State} (hfresh : state.Fresh) :
    state.InStep listing where
  lifecycle := .of_free hfresh.free
  delays := hfresh.delays

/-- The machine of a sound configuration starts afresh. -/
theorem State.fresh_initial {listing : Listing} {registers : RegisterFile} {memory : Memory}
    {configuration : Configuration} (hsound : configuration.error? = none)
    (hsettled : ∀ name producer, registers.get name ≠ .pending producer) :
    (State.initial listing registers memory configuration.stations).Fresh where
  fetched := Cursor.fetched_start
  free _ := Pool.slot?_ofBanks _
  delays _ hbound := Pool.delay_ofBanks_pos hsound hbound
  settled := hsettled

/-- A deed in its place: its task was possible, on a machine whose stations are in step with their
instructions. -/
structure Deed.Valid (listing : Listing) (deed : Deed) : Prop where
  lifecycle : Lifecycle listing deed.before
  delays : ∀ id < deed.before.stations.length, 0 < deed.before.stations.delay id
  enabled : deed.task.Enabled listing deed.before
  performs : deed.Performs listing

/-- The deeds of an execution are in their place. -/
theorem Execution.valid {listing : Listing} {initial frozen : State} {journal : List Deed}
    {rest : List Task} {deed : Deed}
    (hnow : Execution listing initial frozen journal deed.before (deed.task :: rest))
    (hstart : initial.InStep listing) (hperforms : deed.Performs listing) : deed.Valid listing where
  lifecycle := (hnow.inStep hstart).lifecycle
  delays := (hnow.inStep hstart).delays
  enabled := (hnow.underway hstart.delays).enabled _ (List.mem_cons_self ..)
  performs := hperforms

/-- What holds at the start, and outlasts the beginning of a cycle and every deed in its place, holds at all
points of an execution. -/
theorem Execution.of_deeds {listing : Listing} {initial frozen state : State} {journal : List Deed}
    {todo : List Task} {motive : List Deed → State → Prop}
    (hnow : Execution listing initial frozen journal state todo) (hfresh : initial.Fresh)
    (start : motive [] initial)
    (tick : ∀ {journal : List Deed} {state : State}, motive journal state → motive journal state.tick)
    (act : ∀ {frozen : State} {journal : List Deed} {rest : List Task} (deed : Deed),
      Execution listing initial frozen journal deed.before (deed.task :: rest) → deed.Valid listing →
        motive journal deed.before → motive (journal ++ [deed]) deed.after) :
    motive journal state := by
  induction hnow with
  | start => exact start
  | tick _ ih => exact tick ih
  | pass _ _ ih => exact ih
  | @act frozen state after journal task todo event hnow hperform ih =>
      exact act ⟨task, state, event, _⟩ hnow (hnow.valid hfresh.inStep ⟨after, hperform, rfl⟩) ih

/-- What holds at the end of a cycle, and of each deed with all that follow it if it holds of those, holds
of the rest of a cycle. -/
theorem Execution.rest_of_deeds {listing : Listing} {initial frozen state : State} {journal : List Deed}
    {todo : List Task} {motive : State → List Deed → Prop}
    (hnow : Execution listing initial frozen journal state todo) (hstart : initial.InStep listing)
    (done : ∀ state, motive state [])
    (act : ∀ deed later, deed.Valid listing → deed.task ∈ todo → motive deed.after later →
      motive deed.before (deed :: later)) :
    motive state (deedsFrom listing todo state) := by
  induction todo generalizing state journal with
  | nil => exact done state
  | cons task todo ih =>
      have hlater (deed : Deed) (later : List Deed) (hvalid : deed.Valid listing) (htask : deed.task ∈ todo) :=
        act deed later hvalid (List.mem_cons_of_mem _ htask)
      rw [deedsFrom]
      cases hperform : task.perform listing state with
      | none => exact ih (hnow.pass hperform) hlater
      | some outcome =>
          obtain ⟨event, after⟩ := outcome
          exact act ⟨task, state, event, _⟩ _ (hnow.valid hstart ⟨after, hperform, rfl⟩)
            (List.mem_cons_self ..) (ih (hnow.act hperform) hlater)

section Valid

variable {listing : Listing} {deed : Deed} (hvalid : deed.Valid listing)

include hvalid

/-- What a deed changes, apart from the note of it. -/
theorem Deed.Valid.change : ∃ after, Change listing deed.before deed.task deed.event after ∧
    deed.task.perform listing deed.before = some (deed.event, after) ∧
    deed.after.cursor = after.cursor ∧ deed.after.registers = after.registers ∧
    deed.after.stations = after.stations ∧ deed.after.memory = after.memory := by
  obtain ⟨after, hperform, hafter⟩ := hvalid.performs
  refine ⟨after, change_of_perform hvalid.enabled hperform, hperform, ?_⟩
  rw [hafter]
  exact ⟨rfl, rfl, rfl, rfl⟩

theorem Deed.Valid.extends : deed.after.cursor.Extends deed.before.cursor := by
  obtain ⟨after, hchange, -, hcursor, -⟩ := hvalid.change
  rw [hcursor]
  exact hchange.extends

/-- A deed is about an instruction that has been fetched, or about the next one. -/
theorem Deed.Valid.seq_le : deed.seq ≤ deed.before.cursor.fetched := by
  cases hstation : deed.task.station? with
  | none => exact (Deed.seq_of_fetch hstation).le
  | some id =>
      obtain ⟨slot, hslot, -⟩ := (Task.enabled_iff hstation).mp hvalid.enabled
      rw [Deed.seq_of_station hstation hslot]
      exact (hvalid.lifecycle.seq_lt hslot).le

end Valid

/-- At every point of an execution, registers and operands are in step with program order. -/
theorem Execution.dataflow {listing : Listing} {initial frozen state : State} {journal : List Deed}
    {todo : List Task} (hnow : Execution listing initial frozen journal state todo)
    (hfresh : initial.Fresh) : Dataflow listing initial.registers journal state := by
  induction hnow with
  | start => exact .of_start hfresh.free hfresh.fetched
  | tick _ ih => exact ih.tick
  | pass _ _ ih => exact ih
  | act hnow hperform ih =>
      have hlife := hnow.lifecycle hfresh.free hfresh.delays
      have hchange := (hnow.underway hfresh.delays).change hperform
      exact (ih.act hlife hfresh.settled hchange rfl rfl rfl).note

/-- An instruction with a destination is in its station until it has published. -/
theorem Execution.published_or_held {listing : Listing} {initial frozen state : State}
    {journal : List Deed} {todo : List Task}
    (hnow : Execution listing initial frozen journal state todo) (hfresh : initial.Fresh)
    {name : String} {n : Nat} (hwrites : state.cursor.Writes listing name n) :
    (∃ value, publishedAt? journal n = some value) ∨ ∃ id, state.Holds id n := by
  induction hnow with
  | start =>
      unfold Cursor.Writes at hwrites
      rw [Cursor.instructionAt?_eq_none (by rw [hfresh.fetched]; omega)] at hwrites
      exact absurd hwrites (by simp)
  | tick _ ih =>
      rcases ih hwrites with hpublished | ⟨id, hheld⟩
      · exact .inl hpublished
      · exact .inr ⟨id, State.holds_tick.mpr hheld⟩
  | pass _ _ ih => exact ih hwrites
  | @act frozen state after journal task todo event hnow hperform ih =>
      have hchange := (hnow.underway hfresh.delays).change hperform
      have hlife := hnow.lifecycle hfresh.free hfresh.delays
      -- The instruction was there before, or the last deed has fetched it.
      by_cases hbound : n < state.cursor.fetched
      · have hwrites' : state.cursor.Writes listing name n := by
          unfold Cursor.Writes at hwrites ⊢
          rwa [← hchange.extends.instructionAt? hbound]
        rcases ih hwrites' with ⟨value, hvalue⟩ | ⟨id, hheld⟩
        · exact .inl ⟨value, by rw [publishedAt?_append, hvalue]; rfl⟩
        · by_cases hsilent : event.published? = none
          · exact .inr ⟨id, hchange.holds_of_silent hlife hsilent hwrites' hheld⟩
          · exact hchange.published_or_holds hsilent hheld journal _
      · obtain ⟨instruction, hat, hdest⟩ := Option.bind_eq_some_iff.mp hwrites
        rcases hchange.holds_fetched hat (by omega) with hcontrol | hheld
        · rw [Instruction.dest?_of_isControl hcontrol] at hdest
          exact absurd hdest (by simp)
        · exact .inr hheld

/-! ## A product and a sum

A program with one dependency, on which the statements about registers are tried out.
-/

namespace Chain

def listing : Listing where
  instructions :=
    [⟨"mul f4,f0,f2", "mul", 0, .arithmetic .mul "f4" "f0" "f2"⟩,
      ⟨"add f6,f4,f2", "add", 1, .arithmetic .add "f6" "f4" "f2"⟩]
  sections := [⟨"main", [0, 1]⟩]
  initialValues := .empty

def registers : RegisterFile :=
  (RegisterFile.write .empty "f0" 3).write "f2" 2

theorem settled (name : String) (producer : Nat) : registers.get name ≠ .pending producer := by
  unfold registers
  rw [RegisterFile.get_write, RegisterFile.get_write]
  split
  · simp
  · split
    · simp
    · exact Register.noConfusion

/-- The default machine after some cycles. -/
def state (count : Nat) : State :=
  State.afterCycles listing (.initial listing registers .empty {}) count

/-- What it has done by then. -/
def journal (count : Nat) : List Deed :=
  State.journal listing (.initial listing registers .empty {}) count

theorem run (count : Nat) :
    Run listing (.initial listing registers .empty {}) (journal count) (state count) :=
  Run.afterCycles count

end Chain

end Tomasulo
