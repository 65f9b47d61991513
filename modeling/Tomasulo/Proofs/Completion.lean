import Tomasulo.Proofs.Accounts
import Tomasulo.Proofs.Grammar
import Tomasulo.Proofs.StraightLine

/-!
# Straight-line programs finish

Every cycle with progress does something for some instruction, and no instruction does more than its career
allows: as many things as its station takes steps, and three more (`Career.length_le`).  In a straight-line
program each instruction is fetched once, so the cycles with progress are at most as many as these
allowances add up to (`Execution.length_journal_le`).  When no progress is made, the machine does not stand
still for lack of an operand or a station, so it is done (`Execution.idle_of_quiet`).
-/

namespace Tomasulo

/-- How often the instructions of a listing can act, each once through its career. -/
def Listing.budget (listing : Listing) (banks : Banks) : Nat :=
  (listing.instructions.map fun instruction => banks.delayFor instruction.opClass + 3).sum

/-! ## How much an instruction does -/

section Careers

variable {delay : Nat} {actions : List Action}

theorem Operation.Course.length_le {operation : Operation} (hcourse : operation.Course delay actions) :
    actions.length ≤ delay + 3 := by
  cases hcourse with
  | branched _ hactions => simp [hactions]
  | jumped _ hactions => simp [hactions]
  | computed _ _ hactions => simp [hactions]
  | loaded _ haccesses hactions =>
      simp only [hactions, List.length_cons, List.length_append, List.length_replicate,
        List.length_nil]
      omega
  | stored _ hactions =>
      simp only [hactions, List.length_cons, List.length_replicate]
      omega

theorem Slot.Behind.length_le {slot : Slot} (hbehind : slot.Behind delay actions) :
    actions.length ≤ delay + 3 := by
  cases hbehind with
  | computing _ hactions =>
      simp only [hactions, List.length_cons, List.length_replicate]
      omega
  | loading _ haccesses hactions =>
      simp only [hactions, List.length_cons, List.length_replicate]
      omega
  | entered _ _ hactions => simp [hactions]
  | storing _ _ _ hactions =>
      simp only [hactions, List.length_cons, List.length_replicate]
      omega

/-- An instruction acts at most as often as its station takes steps, and three times more. -/
theorem Career.length_le {instruction : Instruction} {slot? : Option Slot} {events : List Event}
    (hcareer : Career delay instruction slot? events) : events.length ≤ delay + 3 := by
  rw [← List.length_map (f := Event.action)]
  have hcourse := hcareer.course
  cases slot? with
  | none => exact Operation.Course.length_le hcourse
  | some slot => exact hcourse.2.length_le

end Careers

/-! ## How much a machine does -/

/-- The deeds of a journal, counted by position. -/
theorem length_eq_sum_eventsAt {journal : List Deed} {bound : Nat}
    (hbounded : ∀ deed ∈ journal, deed.seq < bound) :
    journal.length = ∑ n ∈ Finset.range bound, (eventsAt journal n).length := by
  induction journal with
  | nil => simp [eventsAt]
  | cons deed rest ih =>
      have hsplit (n : Nat) : (eventsAt (deed :: rest) n).length =
          (eventsAt rest n).length + if deed.seq = n then 1 else 0 := by
        unfold eventsAt
        by_cases hseq : deed.seq = n <;> simp [hseq]
      have hdeed := hbounded deed (List.mem_cons_self ..)
      rw [Finset.sum_congr rfl fun n _ => hsplit n, Finset.sum_add_distrib,
        ← ih fun other hother => hbounded other (List.mem_cons_of_mem _ hother), Finset.sum_ite_eq,
        if_pos (Finset.mem_range.mpr hdeed), List.length_cons]

theorem sum_map_eq_sum_range {α : Type} (f : α → Nat) (entries : List α) :
    (entries.map f).sum = ∑ n ∈ Finset.range entries.length, (entries[n]?.map f).getD 0 := by
  induction entries with
  | nil => rfl
  | cons entry rest ih =>
      rw [List.length_cons, Finset.sum_range_succ', List.map_cons, List.sum_cons, ih]
      simp [Nat.add_comm]

section Bound

variable {listing : Listing} {banks : Banks} {initial frozen state : State} {journal : List Deed}
  {todo : List Task}

/-- A straight-line run never does more than its instructions allow. -/
theorem Execution.length_journal_le (hnow : Execution listing initial frozen journal state todo)
    (hfresh : initial.Fresh) (hstart : initial.cursor = .start listing)
    (hlayout : initial.stations.layout = (Pool.ofBanks banks).layout)
    (hstraight : listing.StraightLine) : journal.length ≤ listing.budget banks := by
  have hinLine := hnow.inLine hfresh hstart hstraight
  calc journal.length
      = ∑ n ∈ Finset.range state.cursor.fetched, (eventsAt journal n).length :=
        length_eq_sum_eventsAt (hnow.ledger hfresh).bounded
    _ ≤ ∑ n ∈ Finset.range state.cursor.fetched, ((listing.instruction? n).map fun instruction =>
          banks.delayFor instruction.opClass + 3).getD 0 := by
        refine Finset.sum_le_sum fun n hn => ?_
        have hbound := Finset.mem_range.mp hn
        obtain ⟨instruction, hat⟩ := hnow.exists_instructionAt hfresh hbound
        have hthere := (hinLine.instructionAt?_eq hbound).symm.trans hat
        rw [hthere]
        cases hnow.tracked hfresh hlayout hat with
        | held _ _ _ hcareer => exact hcareer.length_le
        | gone _ hcareer => exact hcareer.length_le
    _ ≤ ∑ n ∈ Finset.range listing.instructions.length, ((listing.instruction? n).map fun instruction =>
          banks.delayFor instruction.opClass + 3).getD 0 :=
        Finset.sum_le_sum_of_subset (Finset.range_subset_range.mpr hinLine.fetched_le)
    _ = listing.budget banks := (sum_map_eq_sum_range _ _).symm

/-- A cycle with progress does something. -/
theorem Execution.length_deeds_pos (hnow : Execution listing initial frozen journal state [])
    (hfresh : initial.Fresh) (hwork : state.hasWork listing = true) :
    0 < (state.deeds listing).length := by
  rw [List.length_pos_iff]
  intro hnil
  have htasks := hnow.tick.tasks_deeds hfresh.inStep
  rw [← State.deeds, hnil] at htasks
  rw [State.hasWork, progressed_eq_false_iff.mpr htasks.symm] at hwork
  exact absurd hwork (by simp)

/-- There are at most as many cycles with progress as deeds. -/
theorem State.countP_hasWork_le (hfresh : initial.Fresh) (count : Nat) :
    (List.range count).countP (fun n => (initial.afterCycles listing n).hasWork listing) ≤
      (initial.journal listing count).length := by
  induction count with
  | zero => exact le_rfl
  | succ count ih =>
      obtain ⟨_, hnow⟩ := State.execution_afterCycles listing initial count
      rw [List.range_succ, countP_snoc, State.journal, List.length_append]
      cases hwork : (initial.afterCycles listing count).hasWork listing with
      | false => simpa using ih.trans (Nat.le_add_right ..)
      | true =>
          have hdeeds := hnow.length_deeds_pos hfresh hwork
          rw [Bool.toNat_true]
          omega

end Bound

/-! ## Where a straight-line run ends -/

section Ends

variable {listing : Listing} {banks : Banks} {initial frozen state : State} {journal : List Deed}

section Registers

variable {registers : RegisterFile} {cursor : Cursor} {name : String} {n : Nat} {register : Register}

/-- Known contents are not pending. -/
theorem contentBefore?_ne_pending (hsettled : ∀ name producer, registers.get name ≠ .pending producer)
    (hknown : contentBefore? listing registers journal cursor name n = some register) (producer : Nat) :
    register ≠ .pending producer := by
  unfold contentBefore? at hknown
  cases hlast : cursor.lastWriter? listing name n with
  | none =>
      simp only [hlast, Option.some.injEq] at hknown
      exact hknown ▸ hsettled name producer
  | some m =>
      simp only [hlast] at hknown
      obtain ⟨value, -, rfl⟩ := Option.map_eq_some_iff.mp hknown
      exact Register.noConfusion

/-- What is known of a register that was written is a value. -/
theorem contentBefore?_ready {m : Nat} (hwrites : cursor.Writes listing name m) (hbefore : m < n)
    (hknown : contentBefore? listing registers journal cursor name n = some register) :
    ∃ value, register = .ready value := by
  unfold contentBefore? at hknown
  cases hlast : cursor.lastWriter? listing name n with
  | none => exact absurd hwrites (latest?_eq_none_iff.mp hlast m hbefore)
  | some writer =>
      simp only [hlast] at hknown
      obtain ⟨value, -, rfl⟩ := Option.map_eq_some_iff.mp hknown
      exact ⟨value, rfl⟩

end Registers

theorem State.isIdle_iff : state.isIdle listing = true ↔
    state.cursor.isExhausted listing = true ∧ state.stations.anyBusy = false := by
  simp [State.isIdle]

variable (hnow : Execution listing initial frozen journal state []) (hfresh : initial.Fresh)
  (hstraight : listing.StraightLine)

include hnow hfresh hstraight

/-- In a straight-line run everything that is fetched is issued. -/
theorem Execution.countP_isIssue_eq :
    journal.countP (·.event.isIssue) = state.cursor.fetched := by
  have hnone : journal.countP (·.event.control?.isSome) = 0 := by
    refine List.countP_eq_zero.mpr fun deed hdeed hcontrol => ?_
    obtain ⟨_, _, _, _, -, hthen, hperforms⟩ := hnow.mem_journal hdeed
    cases (hthen.valid hfresh.inStep hperforms).stride with
    | entered _ hevent => simp [hevent, Event.control?] at hcontrol
    | steered _ hnext _ hsteers => exact Deed.Valid.not_steers hstraight.uncontrolled hnext hsteers
    | advanced _ _ _ hadvances =>
        rw [(Event.stays_iff hadvances.stays).2.2.2] at hcontrol
        exact absurd hcontrol (by simp)
    | left _ _ _ hleaves =>
        generalize deed.event = event at hleaves hcontrol
        cases hleaves <;> simp [Event.control?] at hcontrol
  have hbalance := (hnow.balance hfresh).2
  omega

variable (hstart : initial.cursor = .start listing)

include hstart

/-- Without progress the machine of a straight-line run is done, if it has stations for all classes. -/
theorem Execution.idle_of_quiet (hregisters : initial.registers = listing.seeded.registers)
    (hlayout : initial.stations.layout = (Pool.ofBanks banks).layout)
    (hserved : ∀ instruction ∈ listing.instructions, 0 < banks.countFor instruction.opClass)
    (hquiet : state.hasWork listing = false) : state.isIdle listing = true := by
  have hmember {instruction : Instruction} (hnext : state.cursor.next? listing = some instruction) :
      instruction ∈ listing.instructions := by
    obtain ⟨_, -, hinstruction⟩ := Cursor.exists_current_of_next? hnext
    exact List.mem_of_getElem? hinstruction
  have hcause :=
    (hnow.tick.standstill hfresh hstraight.closed (progressed_eq_false_iff.mp hquiet)).of_tick
  cases hcause with
  | idle hidle => exact hidle
  | starved hslot _ hstarved =>
      exact absurd hstarved (hnow.not_starved hfresh hstart hregisters hstraight hslot)
  | undecided _ hnext hbranch =>
      have hcontrol := hstraight.uncontrolled _ (hmember hnext)
      simp [Instruction.isControl, hbranch, Operation.isControl] at hcontrol
  | unserved _ hnext _ hclass =>
      obtain ⟨station, hstation, haccepts⟩ := Pool.exists_accepts
        ((hnow.layout_eq hfresh).trans hlayout) (hserved _ (hmember hnext))
      exact absurd (haccepts.symm.trans (hclass station hstation)) (by simp)

/-- An idle machine has fetched all instructions in order. -/
theorem Execution.executionOrder_of_idle (hidle : state.isIdle listing = true) :
    state.cursor.executionOrder = List.range listing.instructions.length := by
  obtain ⟨hcomplete, hsettled⟩ := hnow.inLine hfresh hstart hstraight
  rwa [hsettled (State.isIdle_iff.mp hidle).1, List.append_nil] at hcomplete

/-- An idle machine waits for no register, and all registers that the listing writes hold values. -/
theorem Execution.registers_of_idle (hidle : state.isIdle listing = true) :
    (∀ name producer, state.registers.get name ≠ .pending producer) ∧
      ∀ instruction ∈ listing.instructions, ∀ name, instruction.operation.dest? = some name →
        ∃ value, state.registers.get name = .ready value := by
  have hknown := (hnow.dataflow hfresh).contents_known (State.isIdle_iff.mp hidle).2
  refine ⟨fun name => contentBefore?_ne_pending hfresh.settled (hknown name), ?_⟩
  intro instruction hmember name hdest
  obtain ⟨m, hm⟩ := List.getElem?_of_mem hmember
  obtain ⟨hbound, -⟩ := List.getElem?_eq_some_iff.mp hm
  have hfetched : m < state.cursor.fetched := by
    unfold Cursor.fetched
    rwa [hnow.executionOrder_of_idle hfresh hstraight hstart hidle, List.length_range]
  have hwrites : state.cursor.Writes listing name m := by
    unfold Cursor.Writes
    rw [(hnow.inLine hfresh hstart hstraight).instructionAt?_eq hfetched]
    exact (Option.bind_eq_some_iff).mpr ⟨instruction, hm, hdest⟩
  exact contentBefore?_ready hwrites hfetched (hknown name)

end Ends

/-! ## Main statement -/

section Budget

variable {listing : Listing} {initial : State} {budget cap : Nat}

/-- Within a bound on the cycles with progress the machine comes to rest. -/
theorem State.hasWork_of_bounded
    (hbounded : ∀ count,
      (List.range count).countP (fun n => (initial.afterCycles listing n).hasWork listing) ≤ budget) :
    (initial.afterCycles listing budget).hasWork listing = false := by
  by_contra hwork
  have hall : ∀ n ∈ List.range (budget + 1), (initial.afterCycles listing n).hasWork listing = true := by
    intro n hn
    by_contra hquiet
    have hbound := List.mem_range.mp hn
    exact hwork (State.hasWork_afterCycles_mono (by omega) (Bool.eq_false_iff.mpr hquiet))
  have hmore := hbounded (budget + 1)
  rw [List.countP_eq_length.mpr hall, List.length_range] at hmore
  omega

/-- A run with a cap behind the point of rest records the rest. -/
theorem State.hasWork_of_cycles (hrest : (initial.afterCycles listing budget).hasWork listing = false)
    (hcap : budget ≤ cap) :
    (initial.afterCycles listing (initial.cycles listing cap).length).hasWork listing = false := by
  rcases State.length_cycles_eq_or cap initial with hlength | ⟨n, hlength, hquiet⟩
  · rw [hlength]
    exact State.hasWork_afterCycles_mono hcap hrest
  · rw [hlength]
    exact State.hasWork_afterCycles_succ hquiet

end Budget

/-- On every sound configuration with a station for every class that a straight-line listing uses: no more
cycles make progress than the budget of the listing; and with a cap of at least the budget the run finishes,
with all instructions fetched and issued in order, no station in use, and a value in every register that the
listing writes. -/
theorem straight_line_finishes {listing : Listing} {configuration : Configuration}
    (hstraight : listing.StraightLine) (hsound : configuration.error? = none)
    (hserved : ∀ instruction ∈ listing.instructions,
      0 < configuration.stations.countFor instruction.opClass) :
    (∀ count, (List.range count).countP (fun n =>
        ((listing.initialState configuration.stations).afterCycles listing n).hasWork listing) ≤
      listing.budget configuration.stations) ∧
      (listing.budget configuration.stations ≤ configuration.maxCycles →
        (History.ofListing listing configuration).completion = .finished ∧
          (History.ofListing listing configuration).statistics.issued = listing.instructions.length ∧
          ∃ last, (History.ofListing listing configuration).states.getLast? = some last ∧
            last.isIdle listing = true ∧
            last.cursor.executionOrder = List.range listing.instructions.length ∧
            (∀ name producer, last.registers.get name ≠ .pending producer) ∧
            ∀ instruction ∈ listing.instructions, ∀ name, instruction.operation.dest? = some name →
              ∃ value, last.registers.get name = .ready value) := by
  have hfresh : (listing.initialState configuration.stations).Fresh := Listing.fresh_initialState hsound
  have hbounded (count : Nat) : (List.range count).countP (fun n =>
      ((listing.initialState configuration.stations).afterCycles listing n).hasWork listing) ≤
        listing.budget configuration.stations := by
    obtain ⟨_, hnow⟩ :=
      State.execution_afterCycles listing (listing.initialState configuration.stations) count
    exact (State.countP_hasWork_le hfresh count).trans
      (hnow.length_journal_le hfresh rfl rfl hstraight)
  refine ⟨hbounded, fun hcap => ?_⟩
  have hquiet := State.hasWork_of_cycles (State.hasWork_of_bounded hbounded) hcap
  obtain ⟨_, hnow⟩ := State.execution_afterCycles listing (listing.initialState configuration.stations)
    ((listing.initialState configuration.stations).cycles listing configuration.maxCycles).length
  have hidle := hnow.idle_of_quiet hfresh hstraight rfl rfl rfl hserved hquiet
  have horder := hnow.executionOrder_of_idle hfresh hstraight rfl hidle
  obtain ⟨hsettled, hready⟩ := hnow.registers_of_idle hfresh hstraight rfl hidle
  obtain ⟨addresses, hlast⟩ : ∃ addresses, (History.ofListing listing configuration).states.getLast? = _ :=
    History.exists_last
  refine ⟨History.finished_iff.mpr hquiet, ?_, _, hlast, hidle, horder, hsettled, hready⟩
  rw [History.ofListing, History.statistics_ofState]
  show (Statistics.ofReports _).issued = _
  rw [(Statistics.counts_ofReports hfresh _).issued, hnow.countP_isIssue_eq hfresh hstraight,
    Cursor.fetched, horder, List.length_range]

/-- The product and the sum finish within their budget of thirteen cycles. -/
theorem straight_line_finishes_chain :
    Chain.listing.budget {} = 13 ∧
      (∀ count, (List.range count).countP (fun n =>
        ((Chain.listing.initialState {}).afterCycles Chain.listing n).hasWork Chain.listing) ≤ 13) ∧
      (History.ofListing Chain.listing {}).completion = .finished ∧
      (History.ofListing Chain.listing {}).statistics.issued = 2 ∧
      ∃ last, (History.ofListing Chain.listing {}).states.getLast? = some last ∧
        ∃ value, last.registers.get "f6" = .ready value := by
  have hstraight : Chain.listing.StraightLine := by decide
  have hsound : Configuration.error? {} = none := by decide
  have hserved : ∀ instruction ∈ Chain.listing.instructions, 0 < Banks.countFor {} instruction.opClass := by
    decide
  have hbudget : Chain.listing.budget {} = 13 := by decide
  obtain ⟨hbounded, hfinishes⟩ := straight_line_finishes hstraight hsound hserved
  obtain ⟨hfinished, hissued, last, hlast, -, -, -, hready⟩ := hfinishes (by decide)
  have hsum := hready _ (by decide : (⟨"add f6,f4,f2", "add", 1, .arithmetic .add "f6" "f4" "f2"⟩ :
    Instruction) ∈ Chain.listing.instructions) "f6" rfl
  exact ⟨hbudget, fun count => hbudget ▸ hbounded count, hfinished, hissued, last, hlast, hsum⟩

end Tomasulo
