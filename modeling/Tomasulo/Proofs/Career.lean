import Tomasulo.Proofs.Access
import Tomasulo.Proofs.Layout

/-!
# What happens to one instruction

The journal of a run mixes the deeds of all instructions.  This module takes it apart by position:
`eventsAt` are the events of one instruction, and `Career` says inductively which sequences of them are
possible, together with what the station holds after each.  An instruction is steered, or enters a station,
works there and leaves it; meanwhile its station may receive operands.

* Every deed is one step of one career (`Deed.Valid.stride`) and leaves all other instructions where they
  are (`Tracked.spare`).
* At every point of every execution each fetched instruction is held by a station or gone, and its events so
  far are a career that ends there (`Execution.tracked`).

Statements about whole runs, such as what completes and how long it takes, are then proved by induction on
careers.
-/

namespace Tomasulo

/-- The events of the instruction at a position. -/
def eventsAt (journal : List Deed) (n : Nat) : List Event :=
  (journal.filter fun deed => deed.seq = n).map Deed.event

/-- Whether an event leaves the instruction in its station. -/
def Event.stays : Event → Bool
  | .worked .. | .computed .. | .located .. | .accessed .. | .loaded .. | .storing .. => true
  | _ => false

/-- Whether an event resolves an instruction as a branch or a jump. -/
inductive Event.Steers (instruction : Instruction) : Event → Prop
  | branched {comparison : Comparison} {lhs rhs : Float} {left right target : String}
      (hoperation : instruction.operation = .branch comparison left right target) :
      Steers instruction (.branched instruction comparison lhs rhs target)
  | jumped {target : String} (hoperation : instruction.operation = .jump target) :
      Steers instruction (.jumped instruction target)

/-- What a step of work needs and gives. -/
inductive Slot.Works (old next : Slot) : Action → Prop
  | compute {op : AluOp} (hop : old.op = .alu op) (hpositive : 0 < old.step) : Works old next .exec
  | locate (hop : old.IsMemory) (hpending : old.effective? = none)
      (hlocated : ∃ address, next.effective? = some address) : Works old next .exec
  | load (hop : old.op = .load) (hlocated : ∃ address, old.effective? = some address)
      (hpending : old.result = none) (hkept : next.effective? = old.effective?)
      (hread : next.step = 0 → next.result.isSome = true) : Works old next .exec
  | store (hop : old.op = .store) (hlocated : ∃ address, old.effective? = some address)
      (hkept : next.effective? = old.effective?) (hmore : next.step ≠ 0) : Works old next .write

/-- Whether an event is a step of work of the instruction in a station. -/
structure Slot.Advances (old next : Slot) (event : Event) : Prop where
  seq : next.seq = old.seq
  op : next.op = old.op
  step : next.step = old.step - 1
  codeOrder : event.codeOrder = old.codeOrder
  stays : event.stays = true
  works : old.Works next event.action

/-- Whether an event completes the instruction in a station. -/
inductive Slot.Leaves (old : Slot) : Event → Prop
  | publish {name : String} {value : Float} {registers stations : List String} (hop : old.op ≠ .store)
      (hdone : old.step = 0) (hresult : old.result = some value) :
      Leaves old (.published name old.codeOrder value registers stations)
  | store {name : String} {value : Float} {address : Int} (hop : old.op = .store)
      (hlocated : ∃ address, old.effective? = some address) (hlast : old.step - 1 = 0) :
      Leaves old (.stored name old.codeOrder value address)

/-- The events that an instruction can have behind it, with what its station holds if it is still there. -/
inductive Career (delay : Nat) (instruction : Instruction) : Option Slot → List Event → Prop
  | entered {registers : RegisterFile} {seq : Nat} {slot : Slot} {name : String}
      {readings : List (String × Reading)} (hdelay : 0 < delay)
      (hcapture : Slot.capture? registers instruction seq delay = some slot) :
      Career delay instruction (some slot) [.issued instruction name readings]
  | steered {event : Event} (hsteers : event.Steers instruction) :
      Career delay instruction none [event]
  | received {slot : Slot} {events : List Event} (hcareer : Career delay instruction (some slot) events)
      (producer : Nat) (value : Float) :
      Career delay instruction (some (slot.receive producer value)) events
  | advanced {old next : Slot} {events : List Event} {event : Event}
      (hcareer : Career delay instruction (some old) events) (hfits : old.Fits instruction delay)
      (hadvances : old.Advances next event) :
      Career delay instruction (some next) (events ++ [event])
  | left {old : Slot} {events : List Event} {event : Event}
      (hcareer : Career delay instruction (some old) events) (hfits : old.Fits instruction delay)
      (hleaves : old.Leaves event) : Career delay instruction none (events ++ [event])

theorem Task.station?_of_site {task : Task} (hsite : task.site? = none) : task.station? = none := by
  cases hstation : task.station? with
  | none => rfl
  | some id => exact absurd ((Task.site?_eq hstation).symm.trans hsite) (by simp)

theorem Event.Steers.codeOrder {event : Event} {instruction : Instruction}
    (hsteers : event.Steers instruction) : event.codeOrder = instruction.codeOrder := by
  cases hsteers <;> rfl

theorem Slot.Leaves.codeOrder {old : Slot} {event : Event} (hleaves : old.Leaves event) :
    event.codeOrder = old.codeOrder := by
  cases hleaves <;> rfl

/-! ## Every deed is a step of a career -/

/-- What a deed does for its instruction. -/
inductive Deed.Stride (listing : Listing) (deed : Deed) : Prop
  | entered {instruction : Instruction} {id : Nat} {slot : Slot} {name : String}
      {readings : List (String × Reading)} (htask : deed.task = .issue instruction id)
      (hevent : deed.event = .issued instruction name readings)
      (hnext : deed.before.cursor.next? listing = some instruction)
      (hcursor : deed.after.cursor = deed.before.cursor.advance listing none)
      (hclass : ∃ station, deed.before.stations[id]? = some station ∧
        station.stationClass.accepts instruction.opClass = true)
      (hcapture : Slot.capture? deed.before.registers instruction deed.before.cursor.fetched
        (deed.before.stations.delay id) = some slot)
      (hslot : deed.after.stations.slot? id = some slot)
  | steered {instruction : Instruction} {label : Option String} (hsite : deed.task.site? = none)
      (hnext : deed.before.cursor.next? listing = some instruction)
      (hcursor : deed.after.cursor = deed.before.cursor.advance listing label)
      (hsteers : deed.event.Steers instruction)
  | advanced {id : Nat} {old next : Slot} (hstation : deed.task.station? = some id)
      (hold : deed.before.stations.slot? id = some old)
      (hnext : deed.after.stations.slot? id = some next) (hadvances : old.Advances next deed.event)
  | left {id : Nat} {old : Slot} (hstation : deed.task.station? = some id)
      (hold : deed.before.stations.slot? id = some old)
      (hfree : deed.after.stations.slot? id = none) (hleaves : old.Leaves deed.event)

section Stride

variable {listing : Listing} {deed : Deed} (hvalid : deed.Valid listing)

include hvalid

theorem Deed.Valid.stride : deed.Stride listing := by
  obtain ⟨after, -, hperform, hcursor, -, hstations, -⟩ := hvalid.change
  have henabled := hvalid.enabled
  obtain ⟨task, before, event, noted⟩ := deed
  simp only at henabled hperform hcursor hstations
  -- What a station task that goes on leaves in its station.
  have hadvanced {id : Nat} {old next : Slot} (hstation : task.station? = some id)
      (hworking : Working before after id old next) (hadvances : old.Advances next event) :
      Deed.Stride listing ⟨task, before, event, noted⟩ := by
    refine .advanced hstation hworking.held ?_ hadvances
    rw [hstations, hworking.slots, if_pos rfl]
  cases task with
  | issue instruction id =>
      obtain ⟨hnext, -, station, hstation, -, haccepts⟩ := henabled
      obtain ⟨slot, name, readings, hbound, hcapture, rfl, rfl⟩ := issue_spec hperform
      refine .entered rfl rfl hnext hcursor ⟨station, hstation, haccepts⟩ hcapture ?_
      rw [hstations]
      exact (Pool.slot?_put hbound).trans (if_pos rfl)
  | branch instruction comparison lhs rhs target =>
      obtain ⟨hnext, left, right, hoperation, -, -⟩ := henabled
      obtain ⟨rfl, rfl⟩ := Prod.mk.inj (Option.some.inj hperform)
      exact .steered rfl hnext hcursor (.branched hoperation)
  | jump instruction target =>
      obtain ⟨hnext, hoperation⟩ := henabled
      obtain ⟨rfl, rfl⟩ := Prod.mk.inj (Option.some.inj hperform)
      exact .steered rfl hnext hcursor (.jumped hoperation)
  | compute id =>
      obtain ⟨slot, hslot, ⟨op, lhs, rhs, hop, hj, hk⟩, hpositive, -⟩ :=
        (Task.enabled_iff rfl).mp henabled
      obtain ⟨_, ⟨-, rfl, rfl⟩ | ⟨-, rfl, rfl⟩⟩ := compute_spec hslot hop hj hk hperform
      · exact hadvanced rfl (working_of_work hslot ⟨rfl, rfl, rfl, rfl⟩)
          ⟨rfl, rfl, rfl, rfl, rfl, .compute hop hpositive⟩
      · exact hadvanced rfl (working_of_work hslot ⟨rfl, rfl, rfl, rfl⟩)
          ⟨rfl, rfl, rfl, rfl, rfl, .compute hop hpositive⟩
  | locate id =>
      obtain ⟨slot, hslot, hop, -, hpending, -⟩ := (Task.enabled_iff rfl).mp henabled
      obtain ⟨_, _, _, _, -, -, rfl, ⟨-, -, -, rfl⟩ | ⟨-, rfl⟩⟩ := locate_spec hslot hperform
      · exact hadvanced rfl (working_of_afterRead hslot ⟨rfl, rfl, rfl, rfl⟩)
          ⟨rfl, rfl, rfl, rfl, rfl, .locate hop hpending ⟨_, rfl⟩⟩
      · exact hadvanced rfl (working_of_work hslot ⟨rfl, rfl, rfl, rfl⟩)
          ⟨rfl, rfl, rfl, rfl, rfl, .locate hop hpending ⟨_, rfl⟩⟩
  | load id =>
      obtain ⟨slot, hslot, hop, ⟨address, haddress⟩, -, hpending⟩ := (Task.enabled_iff rfl).mp henabled
      obtain ⟨_, ⟨-, rfl, rfl⟩ | ⟨hmore, rfl, rfl⟩⟩ := load_spec hslot haddress hperform
      · exact hadvanced rfl (working_of_afterRead hslot ⟨rfl, rfl, rfl, rfl⟩)
          ⟨rfl, rfl, rfl, rfl, rfl, .load hop ⟨_, haddress⟩ hpending rfl fun _ => rfl⟩
      · exact hadvanced rfl (working_of_work hslot ⟨rfl, rfl, rfl, rfl⟩)
          ⟨rfl, rfl, rfl, rfl, rfl, .load hop ⟨_, haddress⟩ hpending rfl fun hlast => absurd hlast hmore⟩
  | publish id =>
      obtain ⟨slot, hslot, hop, hdone, -⟩ := (Task.enabled_iff rfl).mp henabled
      obtain ⟨held, value, _, _, _, hheld, hresult, rfl, rfl⟩ := publish_spec hperform
      obtain rfl := Option.some.inj (hslot.symm.trans hheld)
      refine .left rfl hslot ?_ (.publish hop hdone hresult)
      rw [hstations]
      exact Pool.slot?_release.trans (if_pos rfl)
  | commit id =>
      obtain ⟨slot, hslot, hop, ⟨address, haddress⟩, -, value, hk⟩ :=
        (Task.enabled_iff rfl).mp henabled
      obtain ⟨_, ⟨hlast, rfl, rfl⟩ | ⟨hmore, rfl, rfl⟩⟩ := commit_spec hslot haddress hk hperform
      · refine .left rfl hslot ?_ (.store hop ⟨_, haddress⟩ hlast)
        rw [hstations]
        exact Pool.slot?_release.trans (if_pos rfl)
      · exact hadvanced rfl (working_of_work hslot ⟨rfl, rfl, rfl, rfl⟩)
          ⟨rfl, rfl, rfl, rfl, rfl, .store hop ⟨_, haddress⟩ rfl hmore⟩

/-- An event names the code order of the instruction at the position of its deed. -/
theorem Deed.Valid.codeOrder_eq {instruction : Instruction}
    (hat : deed.after.cursor.instructionAt? listing deed.seq = some instruction) :
    deed.event.codeOrder = instruction.codeOrder := by
  have hheld {id : Nat} {old : Slot} (hstation : deed.task.station? = some id)
      (hold : deed.before.stations.slot? id = some old) : old.codeOrder = instruction.codeOrder := by
    rw [Deed.seq_of_station hstation hold,
      hvalid.extends.instructionAt? (hvalid.lifecycle.seq_lt hold)] at hat
    exact (hvalid.lifecycle.fits_at hold hat).codeOrder
  have hfetched {fetched : Instruction} {label : Option String} (hfetch : deed.task.station? = none)
      (hnext : deed.before.cursor.next? listing = some fetched)
      (hcursor : deed.after.cursor = deed.before.cursor.advance listing label) :
      fetched = instruction := by
    rw [Deed.seq_of_fetch hfetch, hcursor, Cursor.instructionAt?_advance hnext, if_pos rfl] at hat
    exact Option.some.inj hat
  cases hvalid.stride with
  | entered htask hevent hnext hcursor =>
      rw [hevent, ← hfetched (by rw [htask]; rfl) hnext hcursor]
      rfl
  | steered hsite hnext hcursor hsteers =>
      rw [← hfetched (Task.station?_of_site hsite) hnext hcursor, hsteers.codeOrder]
  | advanced hstation hold _ hadvances => exact hadvances.codeOrder.trans (hheld hstation hold)
  | left hstation hold _ hleaves => exact hleaves.codeOrder.trans (hheld hstation hold)

theorem Deed.Valid.cursor_of_station {id : Nat} (hstation : deed.task.station? = some id) :
    deed.after.cursor = deed.before.cursor := by
  obtain ⟨after, hchange, -, hcursor, -⟩ := hvalid.change
  exact hcursor.trans (hchange.cursor_eq hstation)

/-- Only the fetch slot fetches, and it fetches one instruction. -/
theorem Deed.Valid.fetched_after :
    deed.after.cursor.fetched = deed.before.cursor.fetched + deed.task.station?.isNone.toNat := by
  cases hvalid.stride with
  | entered htask _ hnext hcursor =>
      rw [hcursor, Cursor.fetched_advance hnext, htask]
      rfl
  | steered hsite hnext hcursor =>
      rw [hcursor, Cursor.fetched_advance hnext, Task.station?_of_site hsite]
      rfl
  | advanced hstation =>
      rw [hvalid.cursor_of_station hstation, hstation]
      rfl
  | left hstation =>
      rw [hvalid.cursor_of_station hstation, hstation]
      rfl

/-- At most the instruction of a deed is a new one. -/
theorem Deed.Valid.lt_fetched_of_ne {n : Nat} (hbound : n < deed.after.cursor.fetched)
    (hne : n ≠ deed.seq) : n < deed.before.cursor.fetched := by
  rw [hvalid.fetched_after] at hbound
  cases hstation : deed.task.station? with
  | none =>
      rw [hstation, Option.isNone_none, Bool.toNat_true] at hbound
      rw [Deed.seq_of_fetch hstation] at hne
      omega
  | some id => simpa [hstation] using hbound

end Stride

/-! ## Events by position -/

section Events

variable {journal : List Deed} {deed : Deed} {n : Nat}

theorem eventsAt_append (journal later : List Deed) (n : Nat) :
    eventsAt (journal ++ later) n = eventsAt journal n ++ eventsAt later n := by
  simp [eventsAt]

theorem eventsAt_snoc_self (journal : List Deed) (deed : Deed) :
    eventsAt (journal ++ [deed]) deed.seq = eventsAt journal deed.seq ++ [deed.event] := by
  simp [eventsAt]

theorem eventsAt_snoc_of_ne (hne : n ≠ deed.seq) :
    eventsAt (journal ++ [deed]) n = eventsAt journal n := by
  simp [eventsAt, Ne.symm hne]

theorem eventsAt_eq_nil (hnone : ∀ deed ∈ journal, deed.seq ≠ n) : eventsAt journal n = [] := by
  unfold eventsAt
  rw [List.filter_eq_nil_iff.mpr fun deed hdeed => by simpa using hnone deed hdeed, List.map_nil]

end Events

/-! ## Held or gone -/

/-- Where the instruction at a position is, with its career so far. -/
inductive Tracked (banks : Banks) (journal : List Deed) (state : State) (n : Nat)
    (instruction : Instruction) : Prop
  | held {id : Nat} {slot : Slot} (hslot : state.stations.slot? id = some slot) (hseq : slot.seq = n)
      (hdelay : state.stations.delay id = banks.delayFor instruction.opClass)
      (hcareer :
        Career (banks.delayFor instruction.opClass) instruction (some slot) (eventsAt journal n))
  | gone (hfree : ∀ id, ¬ state.Holds id n)
      (hcareer : Career (banks.delayFor instruction.opClass) instruction none (eventsAt journal n))

section Tracked

variable {listing : Listing} {banks : Banks} {journal : List Deed} {deed : Deed} {n : Nat}
  {instruction : Instruction}

theorem Tracked.tick {state : State} (htracked : Tracked banks journal state n instruction) :
    Tracked banks journal state.tick n instruction := by
  cases htracked with
  | held hslot hseq hdelay hcareer =>
      exact .held (Pool.slot?_rest.trans hslot) hseq (Pool.delay_rest.trans hdelay) hcareer
  | gone hfree hcareer => exact .gone (fun id hheld => hfree id (State.holds_tick.mp hheld)) hcareer

variable (hvalid : deed.Valid listing)

include hvalid

/-- The station of a deed is in use for its instruction, or it is being filled. -/
theorem Deed.Valid.seq_of_site {id : Nat} {slot : Slot} (hsite : deed.task.site? = some id)
    (hslot : deed.before.stations.slot? id = some slot) : deed.seq = slot.seq := by
  cases hstation : deed.task.station? with
  | some site =>
      obtain rfl := Option.some.inj ((Task.site?_eq hstation).symm.trans hsite)
      exact Deed.seq_of_station hstation hslot
  | none =>
      have henabled := hvalid.enabled
      cases htask : deed.task with
      | issue instruction site =>
          -- The station that an issue fills is free.
          rw [htask] at hsite henabled
          obtain rfl := Option.some.inj hsite
          obtain ⟨-, -, station, hthere, hfree, -⟩ := henabled
          simp [Pool.slot?, hthere, hfree] at hslot
      | _ => simp_all [Task.site?, Task.station?]

/-- A deed leaves all instructions but its own where they are. -/
theorem Tracked.spare (htracked : Tracked banks journal deed.before n instruction)
    (hne : n ≠ deed.seq) : Tracked banks (journal ++ [deed]) deed.after n instruction := by
  obtain ⟨after, hchange, -, -, -, hstations, -⟩ := hvalid.change
  cases htracked with
  | @held id slot hslot hseq hdelay hcareer =>
      have hsite : deed.task.site? ≠ some id := fun hsite =>
        hne (hseq.symm.trans (hvalid.seq_of_site hsite hslot).symm)
      have hdelay' : deed.after.stations.delay id = banks.delayFor instruction.opClass := by
        rw [hstations, hchange.delay, hdelay]
      have hevents : eventsAt (journal ++ [deed]) n = eventsAt journal n := eventsAt_snoc_of_ne hne
      rcases hchange.slot?_of_ne hsite with hsame | ⟨producer, value, hsame⟩
      · exact .held (by rw [hstations, hsame, hslot]) hseq hdelay' (hevents ▸ hcareer)
      · have hreceived : deed.after.stations.slot? id = some (slot.receive producer value) := by
          rw [hstations, hsame, hslot, Option.map_some]
        exact .held hreceived hseq hdelay' (hevents ▸ hcareer.received producer value)
  | gone hfree hcareer =>
      have hevents : eventsAt (journal ++ [deed]) n = eventsAt journal n := eventsAt_snoc_of_ne hne
      refine .gone ?_ (hevents ▸ hcareer)
      rintro id ⟨slot, hslot, rfl⟩
      rw [hstations] at hslot
      rcases hchange.origin hslot with ⟨old, hold, hseq, -⟩ | ⟨-, hseq, _, htask⟩
      · exact hfree id ⟨old, hold, hseq.symm⟩
      · have hfetched : deed.seq = deed.before.cursor.fetched :=
          Deed.seq_of_fetch (by rw [htask]; rfl)
        exact hne (hseq.trans hfetched.symm)

/-- The instruction that a station task is about is the one that the station holds. -/
theorem Tracked.career_of_station
    (htracked : Tracked banks journal deed.before deed.seq instruction) {id : Nat} {slot : Slot}
    (hstation : deed.task.station? = some id) (hslot : deed.before.stations.slot? id = some slot) :
    deed.before.stations.delay id = banks.delayFor instruction.opClass ∧
      Career (banks.delayFor instruction.opClass) instruction (some slot)
        (eventsAt journal deed.seq) := by
  have hseq := Deed.seq_of_station hstation hslot
  cases htracked with
  | @held site held hheld hsame hdelay hcareer =>
      obtain rfl := hvalid.lifecycle.distinct site id held slot hheld hslot (hsame.trans hseq)
      obtain rfl := Option.some.inj (hslot.symm.trans hheld)
      exact ⟨hdelay, hcareer⟩
  | gone hfree _ => exact absurd ⟨slot, hslot, hseq.symm⟩ (hfree id)

/-- A deed is the next step in the career of its instruction. -/
theorem Tracked.stride (hlayout : deed.before.stations.layout = (Pool.ofBanks banks).layout)
    (hbounded : ∀ other ∈ journal, other.seq < deed.before.cursor.fetched)
    (htracked : deed.seq < deed.before.cursor.fetched →
      Tracked banks journal deed.before deed.seq instruction)
    (hat : deed.after.cursor.instructionAt? listing deed.seq = some instruction) :
    Tracked banks (journal ++ [deed]) deed.after deed.seq instruction := by
  obtain ⟨after, hchange, -, -, -, hstations, -⟩ := hvalid.change
  have hdelays (id : Nat) : deed.after.stations.delay id = deed.before.stations.delay id := by
    rw [hstations, hchange.delay]
  -- An instruction that is being fetched has done nothing before.
  have hfetched {fetched : Instruction} {label : Option String} (hfetch : deed.task.station? = none)
      (hnext : deed.before.cursor.next? listing = some fetched)
      (hcursor : deed.after.cursor = deed.before.cursor.advance listing label) :
      fetched = instruction ∧ eventsAt (journal ++ [deed]) deed.seq = [deed.event] := by
    have hseq := Deed.seq_of_fetch hfetch
    rw [hseq, hcursor, Cursor.instructionAt?_advance hnext, if_pos rfl] at hat
    rw [eventsAt_snoc_self, eventsAt_eq_nil fun other hother => ?_]
    · exact ⟨Option.some.inj hat, rfl⟩
    · have hlt := hbounded other hother
      omega
  -- One that is in its station goes on with its career.
  have hgoes {id : Nat} {old : Slot} (hstation : deed.task.station? = some id)
      (hold : deed.before.stations.slot? id = some old) :
      deed.before.stations.delay id = banks.delayFor instruction.opClass ∧
        Career (banks.delayFor instruction.opClass) instruction (some old)
          (eventsAt journal deed.seq) ∧ old.Fits instruction (banks.delayFor instruction.opClass) := by
    have hseq := Deed.seq_of_station hstation hold
    have hbound := hvalid.lifecycle.seq_lt hold
    obtain ⟨hdelay, hcareer⟩ := (htracked (by omega)).career_of_station hvalid hstation hold
    rw [hseq, hvalid.extends.instructionAt? hbound] at hat
    exact ⟨hdelay, hcareer, hdelay ▸ hvalid.lifecycle.fits_at hold hat⟩
  cases hvalid.stride with
  | @entered _ id slot name readings htask hevent hnext hcursor hclass hcapture hslot =>
      have hfetch : deed.task.station? = none := by rw [htask]; rfl
      obtain ⟨rfl, hevents⟩ := hfetched hfetch hnext hcursor
      obtain ⟨station, hstation, haccepts⟩ := hclass
      have hdelay := (Pool.delay_eq hstation).trans
        (Pool.delay_of_accepts hlayout (List.mem_of_getElem? hstation) haccepts)
      obtain ⟨hbound, -⟩ := List.getElem?_eq_some_iff.mp hstation
      have hpositive := hvalid.delays id hbound
      refine .held hslot ?_ ((hdelays id).trans hdelay) ?_
      · rw [Slot.seq_capture? hcapture, Deed.seq_of_fetch hfetch]
      · rw [hevents, hevent]
        exact .entered (hdelay ▸ hpositive) (hdelay ▸ hcapture)
  | steered hsite hnext hcursor hsteers =>
      have hfetch := Task.station?_of_site hsite
      obtain ⟨rfl, hevents⟩ := hfetched hfetch hnext hcursor
      refine .gone ?_ (hevents ▸ .steered hsteers)
      rintro id ⟨held, hheld, hseq⟩
      rw [hstations] at hheld
      rcases hchange.origin hheld with ⟨old, hold, hsame, -⟩ | ⟨-, -, _, htask⟩
      · have hlt := hvalid.lifecycle.seq_lt hold
        rw [Deed.seq_of_fetch hfetch] at hseq
        omega
      · rw [htask] at hsite
        exact absurd hsite (by simp [Task.site?])
  | @advanced id old next hstation hold hnext hadvances =>
      obtain ⟨hdelay, hcareer, hfits⟩ := hgoes hstation hold
      refine .held hnext ?_ ((hdelays id).trans hdelay) ?_
      · rw [hadvances.seq, Deed.seq_of_station hstation hold]
      · rw [eventsAt_snoc_self]
        exact hcareer.advanced hfits hadvances
  | @left id old hstation hold hfree hleaves =>
      obtain ⟨-, hcareer, hfits⟩ := hgoes hstation hold
      refine .gone ?_ ?_
      · rintro other ⟨held, hheld, hseq⟩
        rw [hstations] at hheld hfree
        rw [Deed.seq_of_station hstation hold] at hseq
        rcases hchange.origin hheld with ⟨older, holder, hsame, -⟩ | ⟨-, -, _, htask⟩
        · obtain rfl := hvalid.lifecycle.distinct other id older old holder hold (by omega)
          exact absurd (hfree.symm.trans hheld) (by simp)
        · rw [htask] at hstation
          exact absurd hstation (by simp [Task.station?])
      · rw [eventsAt_snoc_self]
        exact hcareer.left hfits hleaves

end Tracked

/-- Only instructions of the listing are fetched. -/
theorem Execution.exists_instructionAt {listing : Listing} {initial frozen state : State}
    {journal : List Deed} {todo : List Task}
    (hnow : Execution listing initial frozen journal state todo) (hfresh : initial.Fresh) {n : Nat}
    (hbound : n < state.cursor.fetched) :
    ∃ instruction, state.cursor.instructionAt? listing n = some instruction := by
  revert hbound
  refine hnow.of_deeds (motive := fun _ state => n < state.cursor.fetched →
    ∃ instruction, state.cursor.instructionAt? listing n = some instruction) hfresh ?_ ?_ ?_
  · intro hbound
    rw [hfresh.fetched] at hbound
    exact absurd hbound (Nat.not_lt_zero n)
  · intro journal state ih
    exact ih
  · intro frozen journal rest deed hbefore hvalid ih hbound
    -- What was not there before is the instruction of the deed.
    by_cases hseq : n = deed.seq
    · obtain ⟨instruction, hat, -⟩ := hvalid.inOrder_now (hbefore.dataflow hfresh)
      exact ⟨instruction, hseq ▸ hat⟩
    · have hold := hvalid.lt_fetched_of_ne hbound hseq
      obtain ⟨instruction, hat⟩ := ih hold
      exact ⟨instruction, (hvalid.extends.instructionAt? hold).trans hat⟩

/-- At every point of an execution, each fetched instruction is held or gone, with a career that ends
there. -/
theorem Execution.tracked {listing : Listing} {banks : Banks} {initial frozen state : State}
    {journal : List Deed} {todo : List Task}
    (hnow : Execution listing initial frozen journal state todo) (hfresh : initial.Fresh)
    (hlayout : initial.stations.layout = (Pool.ofBanks banks).layout) {n : Nat}
    {instruction : Instruction} (hat : state.cursor.instructionAt? listing n = some instruction) :
    Tracked banks journal state n instruction := by
  revert hat
  refine hnow.of_deeds (motive := fun journal state =>
    state.cursor.instructionAt? listing n = some instruction →
      Tracked banks journal state n instruction) hfresh ?_ ?_ ?_
  · intro hat
    have hbound := Cursor.lt_fetched hat
    rw [hfresh.fetched] at hbound
    exact absurd hbound (Nat.not_lt_zero n)
  · intro journal state ih hat
    exact (ih hat).tick
  · intro frozen journal rest deed hbefore hvalid ih hat
    have hearlier (hbound : n < deed.before.cursor.fetched) :
        Tracked banks journal deed.before n instruction :=
      ih ((hvalid.extends.instructionAt? hbound).symm.trans hat)
    by_cases hseq : n = deed.seq
    · subst hseq
      exact Tracked.stride hvalid ((hbefore.layout_eq hfresh).trans hlayout)
        (hbefore.ledger hfresh).bounded hearlier hat
    · exact (hearlier (hvalid.lt_fetched_of_ne (Cursor.lt_fetched hat) hseq)).spare hvalid hseq

end Tomasulo
