import Tomasulo.Proofs.Dataflow

/-!
# Accesses to memory

Each load reads memory once and each store writes it once, but a station does not show when: a load keeps
its result until it is published, and a store that has written is gone.  This module follows the
accesses in the journal of a run.

* `Deed.address?` is the address that a deed is about, `Deed.access?` the access that it makes.  A load
  that takes a single step reads in the deed that computes its address.
* `Deed.Fate` says what a deed does to a station in use: nothing, a step of work, or filling it.
* The invariant `Ledger` ties the stations to the journal: a load or store is in its station until it has
  made its access, its address is in the station as soon as the journal has it, and no sooner.
-/

namespace Tomasulo

/-- An access to memory. -/
inductive Access where
  | read (address : Int) (value : Float)
  | write (address : Int) (value : Float)

namespace Access

def address : Access → Int
  | read address _ | write address _ => address

def value : Access → Float
  | read _ value | write _ value => value

def isWrite : Access → Bool
  | read .. => false
  | write .. => true

end Access

namespace Deed

/-- The address that a load or store has computed or uses. -/
def address? (deed : Deed) : Option Int :=
  match deed.event with
  | .located _ _ _ _ address | .loaded _ _ _ address | .stored _ _ _ address => some address
  | _ => none

/-- The result that the station of a deed holds afterwards. -/
def result? (deed : Deed) : Option Float :=
  (deed.task.station?.bind deed.after.stations.slot?).bind Slot.result

/-- The value that a load finds where memory holds none. -/
def sample (listing : Listing) (deed : Deed) : Float :=
  State.sampleFor listing deed.event.codeOrder

/-- The access to memory that a deed makes. -/
def access? (deed : Deed) : Option Access :=
  match deed.event with
  | .located _ _ _ _ address => deed.result?.map (.read address)
  | .loaded _ _ value address => some (.read address value)
  | .stored _ _ value address => some (.write address value)
  | _ => none

theorem address?_of_access? {deed : Deed} {access : Access} (haccess : deed.access? = some access) :
    deed.address? = some access.address := by
  obtain ⟨task, before, event, after⟩ := deed
  cases event <;> simp only [access?, reduceCtorEq, Option.some.injEq] at haccess
  case located =>
    obtain ⟨value, -, rfl⟩ := Option.map_eq_some_iff.mp haccess
    rfl
  all_goals
    obtain rfl := haccess
    rfl

/-- An address in a deed that is in order is the address of its instruction. -/
theorem InOrder.address {listing : Listing} {deed : Deed} {instruction : Instruction}
    {value? : String → Option Float} {address : Int}
    (horder : deed.InOrder listing instruction value?) (haddress : deed.address? = some address) :
    instruction.operation.address? value? = some address := by
  obtain ⟨task, before, event, after⟩ := deed
  cases event <;> simp only [address?, reduceCtorEq, Option.some.injEq] at haddress
  case located => exact haddress ▸ horder
  case loaded => exact haddress ▸ horder
  case stored => exact haddress ▸ horder.1

/-- What a deed that is in order writes to memory is the value that its instruction stores. -/
theorem InOrder.written {listing : Listing} {deed : Deed} {instruction : Instruction}
    {value? : String → Option Float} {address : Int} {value : Float}
    (horder : deed.InOrder listing instruction value?)
    (haccess : deed.access? = some (.write address value)) :
    ∃ source, instruction.operation.second? = some source ∧ value? source = some value := by
  obtain ⟨task, before, event, after⟩ := deed
  cases event <;> simp only [access?, reduceCtorEq, Option.some.injEq] at haccess
  case located =>
    obtain ⟨_, -, hread⟩ := Option.map_eq_some_iff.mp haccess
    exact Access.noConfusion hread
  case stored =>
    obtain ⟨rfl, rfl⟩ := Access.write.inj haccess
    obtain ⟨-, ⟨source, base, offset, hoperation, hvalue⟩, -⟩ := horder
    exact ⟨source, by rw [hoperation]; rfl, hvalue⟩

/-- A store that is in order leaves its value in its cell. -/
theorem InOrder.read_of_isCommit {listing : Listing} {deed : Deed} {instruction : Instruction}
    {value? : String → Option Float} (horder : deed.InOrder listing instruction value?)
    (hcommit : deed.event.isCommit = true) :
    ∃ address value, deed.access? = some (.write address value) ∧
      deed.after.memory.read address = some value := by
  obtain ⟨task, before, event, after⟩ := deed
  cases event <;> simp only [Event.isCommit, Bool.false_eq_true] at hcommit
  case stored name codeOrder value address => exact ⟨address, value, rfl, horder.2.2⟩

end Deed

/-- Whether the instruction at a position has made its access to memory. -/
def Accessed (journal : List Deed) (n : Nat) : Prop :=
  ∃ deed ∈ journal, deed.seq = n ∧ ∃ access, deed.access? = some access

/-- Whether the address of the instruction at a position has been computed. -/
def Located (journal : List Deed) (n : Nat) (address : Int) : Prop :=
  ∃ deed ∈ journal, deed.seq = n ∧ deed.address? = some address

/-- Whether the instruction at a position has read a value from memory. -/
def HasRead (journal : List Deed) (n : Nat) (value : Float) : Prop :=
  ∃ deed ∈ journal, deed.seq = n ∧ ∃ address, deed.access? = some (.read address value)

instance (journal : List Deed) (n : Nat) : Decidable (Accessed journal n) :=
  decidable_of_iff (∃ deed ∈ journal, deed.seq = n ∧ deed.access?.isSome = true) (by
    simp only [Accessed, Option.isSome_iff_exists])

instance (journal : List Deed) (n : Nat) (address : Int) : Decidable (Located journal n address) :=
  inferInstanceAs (Decidable (∃ deed ∈ journal, deed.seq = n ∧ deed.address? = some address))

/-- Whether a station holds a load or store. -/
def Slot.IsMemory (slot : Slot) : Prop :=
  slot.op = .load ∨ slot.op = .store

/-! ## What a deed does to a station -/

/-- What a deed does to a station that is in use afterwards. -/
inductive Deed.Fate (deed : Deed) (id : Nat) (next : Slot) : Prop
  /-- The deed is about another station. -/
  | spared {old : Slot} (hold : deed.before.stations.slot? id = some old) (hseq : next.seq = old.seq)
      (hop : next.op = old.op) (haddress : next.address = old.address)
      (hresult : next.result = old.result) (hother : deed.seq ≠ old.seq)
  /-- The instruction in the station goes on. -/
  | worked {old : Slot} (hold : deed.before.stations.slot? id = some old) (hseq : next.seq = old.seq)
      (hop : next.op = old.op) (hdeed : deed.seq = old.seq)
      (haddress : next.effective? = deed.address?.or old.effective?)
      (hresult : next.IsMemory → next.result = (deed.access?.map Access.value).or old.result)
      (hread : ∀ access, deed.access? = some access → access.isWrite = false ∧ old.op = .load)
  /-- The station has just been filled. -/
  | filled (hfree : deed.before.stations.slot? id = none)
      (hseq : next.seq = deed.before.cursor.fetched) (hdeed : deed.seq = deed.before.cursor.fetched)
      (haddress : next.effective? = none) (hresult : next.result = none)
      (hsilent : deed.address? = none)

/-- What a deed has done if a station is free afterwards. -/
inductive Deed.Freed (deed : Deed) (id : Nat) (old : Slot) : Prop
  | published {value : Float} (hop : old.op ≠ .store) (hresult : old.result = some value)
      (hvalue : deed.event.published? = some value) (hsilent : deed.address? = none)
      (hdeed : deed.seq = old.seq)
  | stored {access : Access} (hop : old.op = .store) (haccess : deed.access? = some access)
      (hwrite : access.isWrite = true) (hdeed : deed.seq = old.seq)

section Fate

variable {listing : Listing} {deed : Deed} {id : Nat} {next old : Slot}

theorem Slot.effective?_capture? {registers : RegisterFile} {instruction : Instruction}
    {seq delay : Nat} {slot : Slot}
    (hslot : Slot.capture? registers instruction seq delay = some slot) :
    slot.effective? = none ∧ slot.result = none := by
  obtain ⟨line, mnemonic, codeOrder, operation⟩ := instruction
  cases operation <;> first
    | (obtain rfl := Option.some.inj hslot; exact ⟨rfl, rfl⟩)
    | exact absurd hslot (by simp [Slot.capture?])

/-- A load that computes its address reads at once exactly if it has its result afterwards. -/
theorem Deed.access?_located (hstation : deed.task.station? = some id)
    (hnext : deed.after.stations.slot? id = some next) {name : String} {codeOrder : Nat}
    {baseValue : Float} {offset address : Int}
    (hevent : deed.event = .located name codeOrder baseValue offset address) :
    deed.access? = next.result.map (.read address) := by
  unfold Deed.access? Deed.result?
  rw [hevent, hstation, Option.bind_some, hnext, Option.bind_some]

/-- A load or store that has not begun has no result. -/
theorem Slot.Fits.result_eq_none {instruction : Instruction} {delay : Nat} {slot : Slot}
    (hfits : slot.Fits instruction delay) (hop : slot.IsMemory) (hstep : 0 < slot.step) :
    slot.result = none := by
  have hnone (hdone : slot.result.isSome = true → slot.step = 0) : slot.result = none := by
    cases hresult : slot.result with
    | none => rfl
    | some value =>
        have hzero := hdone (by rw [hresult]; rfl)
        omega
  have hshaped := hfits.shaped
  rcases hop with hload | hstore
  · obtain ⟨dest, base, offset, hoperation⟩ := hfits.exists_load hload
    rw [hoperation] at hshaped
    exact hnone hshaped.2.2.2.1
  · obtain ⟨source, base, offset, hoperation⟩ := hfits.exists_store hstore
    rw [hoperation] at hshaped
    exact hshaped.2.2

theorem Slot.Fits.result_of_store {instruction : Instruction} {delay : Nat} {slot : Slot}
    (hfits : slot.Fits instruction delay) (hop : slot.op = .store) : slot.result = none := by
  obtain ⟨source, base, offset, hoperation⟩ := hfits.exists_store hop
  have hshaped := hfits.shaped
  rw [hoperation] at hshaped
  exact hshaped.2.2

/-- An instruction that goes on is in its station afterwards. -/
theorem Deed.worked {after : State} {other : Slot} (hstation : deed.task.station? = some id)
    (hstations : deed.after.stations = after.stations)
    (hworking : Working deed.before after id old other)
    (haddress : other.effective? = deed.address?.or old.effective?)
    (hresult : other.IsMemory → other.result = (deed.access?.map Access.value).or old.result)
    (hread : ∀ access, deed.access? = some access → access.isWrite = false ∧ old.op = .load)
    (hnext : deed.after.stations.slot? id = some next) : deed.Fate id next := by
  rw [hstations, hworking.slots, if_pos rfl] at hnext
  obtain rfl := Option.some.inj hnext
  exact .worked hworking.held hworking.seq hworking.op (Deed.seq_of_station hstation hworking.held)
    haddress hresult hread

variable (hvalid : deed.Valid listing)

include hvalid

/-- A deed about the instruction in a station is a task of that station. -/
theorem Deed.Valid.station?_of_seq (hold : deed.before.stations.slot? id = some old)
    (hseq : deed.seq = old.seq) : deed.task.station? = some id := by
  cases hstation : deed.task.station? with
  | none =>
      have hlt := hvalid.lifecycle.seq_lt hold
      rw [Deed.seq_of_fetch hstation] at hseq
      omega
  | some site =>
      obtain ⟨slot, hslot, -⟩ := (Task.enabled_iff hstation).mp hvalid.enabled
      rw [Deed.seq_of_station hstation hslot] at hseq
      rw [hvalid.lifecycle.distinct site id slot old hslot hold hseq]

/-- A load or store that is about to compute its address has no result. -/
theorem Deed.Valid.result_of_locate (htask : deed.task = .locate id)
    (hslot : deed.before.stations.slot? id = some old) : old.IsMemory ∧ old.result = none := by
  have henabled := htask ▸ hvalid.enabled
  obtain ⟨slot, hslot', hmemory, hstep, -⟩ := (Task.enabled_iff rfl).mp henabled
  obtain rfl := Option.some.inj (hslot.symm.trans hslot')
  obtain ⟨instruction, -, hfits⟩ := hvalid.lifecycle.fits id old hslot
  have hpositive := hvalid.delays id (Pool.lt_length_of_slot? hslot)
  exact ⟨hmemory, hfits.result_eq_none hmemory (by omega)⟩

theorem Deed.Valid.spared (hsite : deed.task.site? ≠ some id)
    (hnext : deed.after.stations.slot? id = some next) : deed.Fate id next := by
  obtain ⟨after, hchange, -, -, -, hstations, -⟩ := hvalid.change
  have hother {old : Slot} (hold : deed.before.stations.slot? id = some old) : deed.seq ≠ old.seq :=
    fun hseq => hsite (Task.site?_eq (hvalid.station?_of_seq hold hseq))
  rw [hstations] at hnext
  rcases hchange.slot?_of_ne hsite with hsame | ⟨producer, value, hsame⟩
  · rw [hsame] at hnext
    exact .spared hnext rfl rfl rfl rfl (hother hnext)
  · rw [hsame] at hnext
    obtain ⟨old, hold, rfl⟩ := Option.map_eq_some_iff.mp hnext
    exact .spared hold rfl rfl rfl rfl (hother hold)

/-- Computing an address puts it into the station, and the content of the cell if it is read at once. -/
theorem Deed.Valid.fate_of_locate (htask : deed.task = .locate id)
    (hnext : deed.after.stations.slot? id = some next) : deed.Fate id next := by
  obtain ⟨after, -, hperform, -, -, hstations, -⟩ := hvalid.change
  have hstation : deed.task.station? = some id := by
    rw [htask]
    rfl
  obtain ⟨slot, hslot, -⟩ := (Task.enabled_iff hstation).mp hvalid.enabled
  obtain ⟨-, hresult⟩ := hvalid.result_of_locate htask hslot
  rw [htask] at hperform
  obtain ⟨name, baseValue, base, offset, -, -, hevent, houtcome⟩ := locate_spec hslot hperform
  have haddress : deed.address? = some (effectiveAddress baseValue offset) := by
    unfold Deed.address?
    rw [hevent]
  have haccess {other : Slot} (hworking : Working deed.before after id slot other) :
      deed.access? = other.result.map (.read (effectiveAddress baseValue offset)) :=
    Deed.access?_located hstation (by rw [hstations, hworking.slots, if_pos rfl]) hevent
  rcases houtcome with ⟨hload, -, -, rfl⟩ | ⟨-, rfl⟩
  · have hworking : Working deed.before (deed.before.afterRead listing id
        (slot.located base baseValue offset) (effectiveAddress baseValue offset)) id slot _ :=
      working_of_afterRead hslot ⟨rfl, rfl, rfl, rfl⟩
    have hread := haccess hworking
    refine Deed.worked hstation hstations hworking ?_ (fun _ => ?_) (fun access hsome => ?_) hnext
    · rw [haddress]
      rfl
    · rw [hread]
      rfl
    · obtain rfl := Option.some.inj (hread.symm.trans hsome)
      exact ⟨rfl, hload⟩
  · have hworking : Working deed.before { deed.before with
        stations := deed.before.stations.work id (slot.located base baseValue offset) } id slot _ :=
      working_of_work hslot ⟨rfl, rfl, rfl, rfl⟩
    have hnothing : deed.access? = none := by
      rw [haccess hworking]
      simp [Slot.located, hresult]
    refine Deed.worked hstation hstations hworking ?_ (fun _ => ?_) (fun access hsome => ?_) hnext
    · rw [haddress]
      rfl
    · rw [hnothing]
      rfl
    · exact absurd (hnothing.symm.trans hsome) (by simp)

/-- Every deed does one of three things to a station that is in use afterwards. -/
theorem Deed.Valid.fate (hnext : deed.after.stations.slot? id = some next) : deed.Fate id next := by
  by_cases hsite : deed.task.site? = some id
  case neg => exact hvalid.spared hsite hnext
  have hlocate (htask : deed.task = .locate id) : deed.Fate id next :=
    hvalid.fate_of_locate htask hnext
  obtain ⟨after, -, hperform, -, -, hstations, -⟩ := hvalid.change
  have henabled := hvalid.enabled
  obtain ⟨task, before, event, noted⟩ := deed
  simp only at henabled hperform hstations hsite hnext hlocate
  cases task with
  | issue instruction site =>
      obtain rfl := Option.some.inj hsite
      obtain ⟨-, -, station, hstation, hfree, -⟩ := henabled
      obtain ⟨slot, _, _, hbound, hcapture, rfl, rfl⟩ := issue_spec hperform
      rw [hstations, Pool.slot?_put hbound, if_pos rfl] at hnext
      obtain rfl := Option.some.inj hnext
      obtain ⟨haddress, hresult⟩ := Slot.effective?_capture? hcapture
      refine .filled ?_ (Slot.seq_capture? hcapture) (Deed.seq_of_fetch rfl) haddress hresult rfl
      show before.stations.slot? site = none
      simp [Pool.slot?, hstation, hfree]
  | branch => exact absurd hsite (by simp [Task.site?, Task.station?])
  | jump => exact absurd hsite (by simp [Task.site?, Task.station?])
  | compute site =>
      obtain rfl := Option.some.inj hsite
      obtain ⟨slot, hslot, ⟨op, lhs, rhs, hop, hj, hk⟩, -⟩ := (Task.enabled_iff rfl).mp henabled
      have hnot (hmemory : slot.IsMemory) : False := by simp [Slot.IsMemory, hop] at hmemory
      -- Arithmetic has no address and makes no access.
      obtain ⟨name, ⟨-, rfl, rfl⟩ | ⟨-, rfl, rfl⟩⟩ := compute_spec hslot hop hj hk hperform
      · exact Deed.worked rfl hstations (working_of_work hslot ⟨rfl, rfl, rfl, rfl⟩) rfl
          (fun hmemory => (hnot hmemory).elim)
          (fun _ haccess => absurd haccess (by simp [Deed.access?])) hnext
      · exact Deed.worked rfl hstations (working_of_work hslot ⟨rfl, rfl, rfl, rfl⟩) rfl
          (fun hmemory => (hnot hmemory).elim)
          (fun _ haccess => absurd haccess (by simp [Deed.access?])) hnext
  | locate site =>
      obtain rfl := Option.some.inj hsite
      exact hlocate rfl
  | load site =>
      obtain rfl := Option.some.inj hsite
      obtain ⟨slot, hslot, hop, ⟨address, haddress⟩, -, -⟩ := (Task.enabled_iff rfl).mp henabled
      obtain ⟨name, ⟨-, rfl, rfl⟩ | ⟨-, rfl, rfl⟩⟩ := load_spec hslot haddress hperform
      · refine Deed.worked rfl hstations (working_of_afterRead hslot ⟨rfl, rfl, rfl, rfl⟩) haddress
          (fun _ => rfl) (fun access hread => ?_) hnext
        obtain rfl := Option.some.inj hread
        exact ⟨rfl, hop⟩
      · exact Deed.worked rfl hstations (working_of_work hslot ⟨rfl, rfl, rfl, rfl⟩) rfl
          (fun _ => rfl) (fun access hread => absurd hread (by simp [Deed.access?])) hnext
  | publish site =>
      obtain rfl := Option.some.inj hsite
      obtain ⟨_, _, _, _, _, -, -, -, rfl⟩ := publish_spec hperform
      rw [hstations] at hnext
      simp at hnext
  | commit site =>
      obtain rfl := Option.some.inj hsite
      obtain ⟨slot, hslot, hop, ⟨address, haddress⟩, -, value, hk⟩ :=
        (Task.enabled_iff rfl).mp henabled
      obtain ⟨name, ⟨-, rfl, rfl⟩ | ⟨-, rfl, rfl⟩⟩ := commit_spec hslot haddress hk hperform
      · rw [hstations] at hnext
        simp [Pool.slot?_release] at hnext
      · exact Deed.worked rfl hstations (working_of_work hslot ⟨rfl, rfl, rfl, rfl⟩) rfl
          (fun _ => rfl) (fun access hread => absurd hread (by simp [Deed.access?])) hnext

/-- A station is freed by a publication or by a write to memory. -/
theorem Deed.Valid.freed (hold : deed.before.stations.slot? id = some old)
    (hfree : deed.after.stations.slot? id = none) : deed.Freed id old := by
  obtain ⟨after, hchange, -, -, -, hstations, -⟩ := hvalid.change
  have henabled := hvalid.enabled
  obtain ⟨task, before, event, noted⟩ := deed
  simp only at henabled hchange hstations hold hfree
  rw [hstations] at hfree
  cases hchange with
  | @enter _ site slot _ _ _ hbound _ _ =>
      rw [Pool.slot?_put hbound] at hfree
      split at hfree <;> simp_all
  | steer => simp_all
  | @work _ _ _ site slot other _ _ hworking =>
      rw [hworking.slots] at hfree
      split at hfree <;> simp_all
  | @publish site slot value _ _ _ hslot hvalue =>
      have hsite : id = site := by
        by_contra hne
        simp [Pool.slot?_release, hne, hold] at hfree
      subst hsite
      obtain rfl := Option.some.inj (hold.symm.trans hslot)
      obtain ⟨held, hheld, hop, -⟩ := (Task.enabled_iff rfl).mp henabled
      obtain rfl := Option.some.inj (hold.symm.trans hheld)
      exact .published hop hvalue rfl rfl (Deed.seq_of_station rfl hold)
  | @store site slot other _ value address hslot hop _ _ =>
      have hsite : id = site := by
        by_contra hne
        simp [Pool.slot?_release, Pool.slot?_work (Pool.lt_length_of_slot? hslot), hne, hold] at hfree
      subst hsite
      obtain rfl := Option.some.inj (hold.symm.trans hslot)
      exact .stored hop rfl rfl (Deed.seq_of_station rfl hold)

end Fate

/-! ## What a deed does to memory -/

/-- What a deed has to do with memory, with the instruction that does it. -/
inductive Deed.Reach (listing : Listing) (deed : Deed) : Prop
  | silent (haddress : deed.address? = none) (haccess : deed.access? = none)
      (hmemory : deed.after.memory = deed.before.memory)
  /-- An address is computed and the cell left alone. -/
  | located {id : Nat} {slot : Slot} {address : Int} (htask : deed.task = .locate id)
      (hslot : deed.before.stations.slot? id = some slot) (haddress : deed.address? = some address)
      (haccess : deed.access? = none) (hmemory : deed.after.memory = deed.before.memory)
  /-- A load that takes a single step reads as soon as its address is computed, unless it is blocked
  then. -/
  | readAtOnce {id : Nat} {slot : Slot} {base : String} {offset : Int} {baseValue : Float}
      (htask : deed.task = .locate id) (hslot : deed.before.stations.slot? id = some slot)
      (hop : slot.op = .load) (hpending : slot.result = none)
      (hsymbolic : slot.address = some (.symbolic base offset))
      (hfree : (deed.before.stations.work id (slot.located base baseValue offset)).loadBlocked id =
        false)
      (haddress : deed.address? = some (effectiveAddress baseValue offset))
      (haccess : deed.access? = some (.read (effectiveAddress baseValue offset)
        (deed.before.memory.readOr (effectiveAddress baseValue offset) (deed.sample listing))))
      (hmemory : deed.after.memory =
        deed.before.memory.fill (effectiveAddress baseValue offset) (deed.sample listing))
  | read {id : Nat} {slot : Slot} {address : Int} (htask : deed.task = .load id)
      (hslot : deed.before.stations.slot? id = some slot) (hop : slot.op = .load)
      (hpending : slot.result = none) (heffective : slot.effective? = some address)
      (haddress : deed.address? = some address)
      (haccess : deed.access? =
        some (.read address (deed.before.memory.readOr address (deed.sample listing))))
      (hmemory : deed.after.memory = deed.before.memory.fill address (deed.sample listing))
  | write {id : Nat} {slot : Slot} {address : Int} {value : Float} (htask : deed.task = .commit id)
      (hslot : deed.before.stations.slot? id = some slot) (hop : slot.op = .store)
      (hpending : slot.result = none) (heffective : slot.effective? = some address)
      (haddress : deed.address? = some address) (haccess : deed.access? = some (.write address value))
      (hmemory : deed.after.memory = deed.before.memory.write address value)

/-- What an access does to memory, and what it says of the slot that makes it. -/
structure Deed.Touches (deed : Deed) (access : Access) (slot : Slot) : Prop where
  isMemory : slot.IsMemory
  /-- No access has been made before. -/
  pending : slot.result = none
  write_iff : access.isWrite = true ↔ slot.op = .store
  memory : ∀ x, deed.after.memory.read x =
    if x = access.address then some access.value else deed.before.memory.read x
  found : access.isWrite = false → ∀ value,
    deed.before.memory.read access.address = some value → access.value = value

section Reach

variable {listing : Listing} {deed : Deed} {access : Access} {address x : Int} {value sample : Float}
  {slot : Slot}

theorem Deed.touches_read (hop : slot.op = .load) (hpending : slot.result = none)
    (hmemory : deed.after.memory = deed.before.memory.fill address sample) :
    deed.Touches (.read address (deed.before.memory.readOr address sample)) slot where
  isMemory := .inl hop
  pending := hpending
  write_iff := by simp [Access.isWrite, hop]
  memory x := by
    rw [hmemory]
    exact Memory.read_fill ..
  found _ value hvalue := by
    rw [Access.address] at hvalue
    simp [Access.value, Memory.readOr, hvalue]

theorem Deed.touches_write (hop : slot.op = .store) (hpending : slot.result = none)
    (hmemory : deed.after.memory = deed.before.memory.write address value) :
    deed.Touches (.write address value) slot where
  isMemory := .inr hop
  pending := hpending
  write_iff := by simp [Access.isWrite, hop]
  memory x := by
    rw [hmemory]
    exact Memory.read_write ..
  found hread := absurd hread (by simp [Access.isWrite])

variable (hvalid : deed.Valid listing)

include hvalid

theorem Deed.Valid.reach : deed.Reach listing := by
  obtain ⟨after, -, hperform, -, -, hstations, hmemory⟩ := hvalid.change
  have henabled := hvalid.enabled
  have hsilent (haddress : deed.address? = none) (haccess : deed.access? = none)
      (hsame : after.memory = deed.before.memory) : deed.Reach listing :=
    .silent haddress haccess (hmemory.trans hsame)
  -- Only computing an address, the last step of a load and that of a store reach memory.
  cases htask : deed.task <;> rw [htask] at henabled hperform
  case issue instruction site =>
    obtain ⟨_, _, _, -, -, hevent, rfl⟩ := issue_spec hperform
    exact hsilent (by simp [address?, hevent]) (by simp [access?, hevent]) rfl
  case branch =>
    obtain ⟨hevent, rfl⟩ := Prod.mk.inj (Option.some.inj hperform)
    exact hsilent (by simp [address?, ← hevent]) (by simp [access?, ← hevent]) rfl
  case jump =>
    obtain ⟨hevent, rfl⟩ := Prod.mk.inj (Option.some.inj hperform)
    exact hsilent (by simp [address?, ← hevent]) (by simp [access?, ← hevent]) rfl
  case compute site =>
    obtain ⟨slot, hslot, ⟨op, lhs, rhs, hop, hj, hk⟩, -⟩ := (Task.enabled_iff rfl).mp henabled
    obtain ⟨name, ⟨-, hevent, rfl⟩ | ⟨-, hevent, rfl⟩⟩ := compute_spec hslot hop hj hk hperform <;>
      exact hsilent (by simp [address?, hevent]) (by simp [access?, hevent]) rfl
  case locate site =>
    obtain ⟨slot, hslot, -⟩ := (Task.enabled_iff rfl).mp henabled
    have hbound := Pool.lt_length_of_slot? hslot
    obtain ⟨-, hpending⟩ := hvalid.result_of_locate htask hslot
    obtain ⟨name, baseValue, base, offset, -, hsymbolic, hevent, houtcome⟩ :=
      locate_spec hslot hperform
    have haddress : deed.address? = some (effectiveAddress baseValue offset) := by
      simp [address?, hevent]
    have haccess {next : Slot} (hnext : after.stations.slot? site = some next) :=
      access?_located (by rw [htask]; rfl) (hstations ▸ hnext) hevent
    have hsample : deed.sample listing = State.sampleFor listing slot.codeOrder := by
      rw [sample, hevent]
      rfl
    rcases houtcome with ⟨hload, -, hfree, rfl⟩ | ⟨-, rfl⟩
    · refine .readAtOnce htask hslot hload hpending hsymbolic hfree haddress ?_ ?_
      · rw [hsample]
        exact haccess (slot?_afterRead hbound)
      · rw [hsample]
        exact hmemory
    · have hnothing := haccess ((Pool.slot?_work hbound).trans (if_pos rfl))
      simp only [Slot.located, hpending, Option.map_none] at hnothing
      exact .located htask hslot haddress hnothing hmemory
  case load site =>
    obtain ⟨slot, hslot, hop, ⟨address, heffective⟩, -, hpending⟩ :=
      (Task.enabled_iff rfl).mp henabled
    obtain ⟨name, ⟨-, hevent, rfl⟩ | ⟨-, hevent, rfl⟩⟩ := load_spec hslot heffective hperform
    · have hsample : deed.sample listing = State.sampleFor listing slot.codeOrder := by
        rw [sample, hevent]
        rfl
      refine .read htask hslot hop hpending heffective (by simp [address?, hevent]) ?_ ?_
      · simp only [access?, hevent, hsample]
      · rw [hsample]
        exact hmemory
    · exact hsilent (by simp [address?, hevent]) (by simp [access?, hevent]) rfl
  case publish site =>
    obtain ⟨_, _, _, _, _, -, -, hevent, rfl⟩ := publish_spec hperform
    exact hsilent (by simp [address?, hevent]) (by simp [access?, hevent]) rfl
  case commit site =>
    obtain ⟨slot, hslot, hop, ⟨address, heffective⟩, -, value, hk⟩ :=
      (Task.enabled_iff rfl).mp henabled
    obtain ⟨instruction, -, hfits⟩ := hvalid.lifecycle.fits site slot hslot
    obtain ⟨name, ⟨-, hevent, rfl⟩ | ⟨-, hevent, rfl⟩⟩ := commit_spec hslot heffective hk hperform
    · exact .write htask hslot hop (hfits.result_of_store hop) heffective (by simp [address?, hevent])
        (by simp only [access?, hevent]) hmemory
    · exact hsilent (by simp [address?, hevent]) (by simp [access?, hevent]) rfl

/-- Memory changes only where an access is made. -/
theorem Deed.Valid.memory_eq (haccess : deed.access? = none) :
    deed.after.memory = deed.before.memory := by
  have hsome {access : Access} (h : deed.access? = some access) :
      deed.after.memory = deed.before.memory := absurd (haccess.symm.trans h) (by simp)
  cases hvalid.reach with
  | silent _ _ hmemory => exact hmemory
  | located _ _ _ _ hmemory => exact hmemory
  | readAtOnce _ _ _ _ _ _ _ h _ => exact hsome h
  | read _ _ _ _ _ _ h _ => exact hsome h
  | write _ _ _ _ _ _ h _ => exact hsome h

/-- A load fills its cell unless that holds a value, and a store writes it. -/
theorem Deed.Valid.fills_or_writes (haccess : deed.access? = some access) :
    (∃ address, access = .read address (deed.before.memory.readOr address (deed.sample listing)) ∧
        deed.after.memory = deed.before.memory.fill address (deed.sample listing)) ∨
      ∃ address value, access = .write address value ∧
        deed.after.memory = deed.before.memory.write address value := by
  have hnone (h : deed.access? = none) : False := by simp [haccess] at h
  cases hvalid.reach with
  | silent _ h _ => exact (hnone h).elim
  | located _ _ _ h _ => exact (hnone h).elim
  | readAtOnce _ _ _ _ _ _ _ h hmemory =>
      exact .inl ⟨_, Option.some.inj (haccess.symm.trans h), hmemory⟩
  | read _ _ _ _ _ _ h hmemory => exact .inl ⟨_, Option.some.inj (haccess.symm.trans h), hmemory⟩
  | write _ _ _ _ _ _ h hmemory => exact .inr ⟨_, _, Option.some.inj (haccess.symm.trans h), hmemory⟩

theorem Deed.Valid.touches (haccess : deed.access? = some access) :
    ∃ id slot, deed.task.station? = some id ∧ deed.before.stations.slot? id = some slot ∧
      deed.Touches access slot := by
  have hnone (h : deed.access? = none) : False := by simp [haccess] at h
  cases hvalid.reach with
  | silent _ h _ => exact (hnone h).elim
  | located _ _ _ h _ => exact (hnone h).elim
  | @readAtOnce id slot _ _ _ htask hslot hop hpending _ _ _ h hmemory =>
      obtain rfl := Option.some.inj (h.symm.trans haccess)
      exact ⟨id, slot, by rw [htask]; rfl, hslot, touches_read hop hpending hmemory⟩
  | @read id slot _ htask hslot hop hpending _ _ h hmemory =>
      obtain rfl := Option.some.inj (h.symm.trans haccess)
      exact ⟨id, slot, by rw [htask]; rfl, hslot, touches_read hop hpending hmemory⟩
  | @write id slot _ _ htask hslot hop hpending _ _ h hmemory =>
      obtain rfl := Option.some.inj (h.symm.trans haccess)
      exact ⟨id, slot, by rw [htask]; rfl, hslot, touches_write hop hpending hmemory⟩

/-- The address of a deed is there before, unless the deed computes it. -/
theorem Deed.Valid.locates_or_located (haddress : deed.address? = some x) :
    ∃ id slot, deed.task.station? = some id ∧ deed.before.stations.slot? id = some slot ∧
      (deed.task = .locate id ∨ slot.effective? = some x) := by
  cases hvalid.reach with
  | silent h _ _ => exact absurd (h.symm.trans haddress) (by simp)
  | @located id slot _ htask hslot _ _ _ => exact ⟨id, slot, by rw [htask]; rfl, hslot, .inl htask⟩
  | @readAtOnce id slot _ _ _ htask hslot _ _ _ _ _ _ _ =>
      exact ⟨id, slot, by rw [htask]; rfl, hslot, .inl htask⟩
  | @read id slot _ htask hslot _ _ heffective h _ _ =>
      obtain rfl := Option.some.inj (h.symm.trans haddress)
      exact ⟨id, slot, by rw [htask]; rfl, hslot, .inr heffective⟩
  | @write id slot _ _ htask hslot _ _ heffective h _ _ =>
      obtain rfl := Option.some.inj (h.symm.trans haddress)
      exact ⟨id, slot, by rw [htask]; rfl, hslot, .inr heffective⟩

end Reach

/-! ## The ledger -/

/-- What the journal and the stations know of loads and stores. -/
structure Ledger (listing : Listing) (journal : List Deed) (state : State) : Prop where
  bounded : ∀ deed ∈ journal, deed.seq < state.cursor.fetched
  /-- A load or store is in its station until it has made its access. -/
  held : ∀ n instruction place, state.cursor.instructionAt? listing n = some instruction →
    instruction.operation.place? = some place → Accessed journal n ∨ ∃ id, state.Holds id n
  /-- A station has an address as soon as the journal has it, and no sooner. -/
  known : ∀ id slot, state.stations.slot? id = some slot →
    ((∃ address, Located journal slot.seq address) ↔ slot.effective? ≠ none)
  /-- A station has a result as soon as its access is made, and no sooner. -/
  result : ∀ id slot, state.stations.slot? id = some slot → slot.IsMemory → ∀ value,
    slot.result = some value → HasRead journal slot.seq value
  unread : ∀ id slot, state.stations.slot? id = some slot → slot.IsMemory →
    Accessed journal slot.seq → slot.result ≠ none

section Journals

variable {journal later : List Deed} {deed : Deed} {n : Nat} {address : Int}

theorem Accessed.append (haccessed : Accessed journal n) (later : List Deed) :
    Accessed (journal ++ later) n := by
  obtain ⟨deed, hdeed, hwhat⟩ := haccessed
  exact ⟨deed, List.mem_append_left _ hdeed, hwhat⟩

theorem Accessed.located (haccessed : Accessed journal n) : ∃ address, Located journal n address := by
  obtain ⟨deed, hdeed, hseq, access, haccess⟩ := haccessed
  exact ⟨access.address, deed, hdeed, hseq, Deed.address?_of_access? haccess⟩

theorem Located.append (hlocated : Located journal n address) (later : List Deed) :
    Located (journal ++ later) n address := by
  obtain ⟨deed, hdeed, hwhat⟩ := hlocated
  exact ⟨deed, List.mem_append_left _ hdeed, hwhat⟩

theorem HasRead.append {value : Float} (hread : HasRead journal n value) (later : List Deed) :
    HasRead (journal ++ later) n value := by
  obtain ⟨deed, hdeed, hwhat⟩ := hread
  exact ⟨deed, List.mem_append_left _ hdeed, hwhat⟩

theorem HasRead.accessed {value : Float} (hread : HasRead journal n value) : Accessed journal n := by
  obtain ⟨deed, hdeed, hseq, address, haccess⟩ := hread
  exact ⟨deed, hdeed, hseq, _, haccess⟩

theorem accessed_append_iff :
    Accessed (journal ++ later) n ↔ Accessed journal n ∨ Accessed later n := by
  simp [Accessed, or_and_right, exists_or]

theorem accessed_snoc_iff :
    Accessed (journal ++ [deed]) n ↔
      Accessed journal n ∨ deed.seq = n ∧ ∃ access, deed.access? = some access := by
  simp [Accessed, or_and_right, exists_or]

theorem located_snoc_iff :
    Located (journal ++ [deed]) n address ↔
      Located journal n address ∨ deed.seq = n ∧ deed.address? = some address := by
  simp [Located, or_and_right, exists_or]

theorem Operation.place?_of_isControl {instruction : Instruction}
    (hcontrol : instruction.isControl = true) : instruction.operation.place? = none := by
  unfold Instruction.isControl at hcontrol
  cases hoperation : instruction.operation <;>
    simp_all [Operation.isControl, Operation.place?]

theorem Slot.Fits.isMemory {slot : Slot} {instruction : Instruction} {delay : Nat}
    {place : String × Int} (hfits : slot.Fits instruction delay)
    (hplace : instruction.operation.place? = some place) : slot.IsMemory := by
  have hstationOp := hfits.stationOp?_eq
  unfold Slot.IsMemory
  cases hoperation : instruction.operation <;>
    simp_all [Operation.stationOp?, Operation.place?]

end Journals

section Ledger

variable {listing : Listing} {journal : List Deed} {deed : Deed}

theorem Deed.Valid.seq_lt (hvalid : deed.Valid listing) : deed.seq < deed.after.cursor.fetched := by
  cases hstation : deed.task.station? with
  | some id =>
      obtain ⟨slot, hslot, -⟩ := (Task.enabled_iff hstation).mp hvalid.enabled
      rw [Deed.seq_of_station hstation hslot]
      exact lt_of_lt_of_le (hvalid.lifecycle.seq_lt hslot) hvalid.extends.fetched_le
  | none =>
      obtain ⟨after, hchange, -, hcursor, -⟩ := hvalid.change
      rw [Deed.seq_of_fetch hstation, hcursor]
      obtain ⟨task, before, event, noted⟩ := deed
      cases hchange with
      | enter hnext _ _ _ =>
          show before.cursor.fetched < (before.cursor.advance listing none).fetched
          rw [Cursor.fetched_advance hnext]
          exact Nat.lt_succ_self _
      | steer _ _ hnext _ =>
          show before.cursor.fetched < (before.cursor.advance listing _).fetched
          rw [Cursor.fetched_advance hnext]
          exact Nat.lt_succ_self _
      | work hsite _ _ => exact absurd (hsite.symm.trans hstation) (by simp)
      | publish => exact absurd hstation (by simp [Task.station?])
      | store => exact absurd hstation (by simp [Task.station?])

/-- Nothing has been done at the position that is fetched next. -/
theorem Ledger.seq_ne_fetched {state : State} (hledger : Ledger listing journal state) {other : Deed}
    (hother : other ∈ journal) : other.seq ≠ state.cursor.fetched :=
  Nat.ne_of_lt (hledger.bounded other hother)

section Act

variable (hledger : Ledger listing journal deed.before) (hvalid : deed.Valid listing)

include hledger hvalid

/-- A load or store leaves its station only after it has made its access. -/
theorem Ledger.held_act {n : Nat} {instruction : Instruction} {place : String × Int}
    (hat : deed.after.cursor.instructionAt? listing n = some instruction)
    (hplace : instruction.operation.place? = some place) :
    Accessed (journal ++ [deed]) n ∨ ∃ id, deed.after.Holds id n := by
  by_cases hbound : n < deed.before.cursor.fetched
  case neg =>
    obtain ⟨after, hchange, -, hcursor, -, hstations, -⟩ := hvalid.change
    rw [hcursor] at hat
    rcases hchange.holds_fetched hat (by omega) with hcontrol | ⟨id, slot, hslot, hseq⟩
    · rw [Operation.place?_of_isControl hcontrol] at hplace
      exact absurd hplace (by simp)
    · exact .inr ⟨id, slot, by rw [hstations, hslot], hseq⟩
  case pos =>
    rw [hvalid.extends.instructionAt? hbound] at hat
    rcases hledger.held n instruction place hat hplace with haccessed | ⟨id, old, hold, rfl⟩
    · exact .inl (haccessed.append _)
    · cases hnext : deed.after.stations.slot? id with
      | some next =>
          refine .inr ⟨id, next, hnext, ?_⟩
          rcases hvalid.fate hnext with ⟨hsame, hseq, -⟩ | ⟨hsame, hseq, -⟩ | ⟨hfree, -⟩
          · rw [hseq, Option.some.inj (hsame.symm.trans hold)]
          · rw [hseq, Option.some.inj (hsame.symm.trans hold)]
          · exact absurd (hfree.symm.trans hold) (by simp)
      | none =>
          refine .inl ?_
          rcases hvalid.freed hold hnext with ⟨-, hresult, -⟩ | ⟨-, haccess, -, hdeed⟩
          · -- A load has been read before its result is published.
            have hfits := hvalid.lifecycle.fits_at hold hat
            have hread := hledger.result id old hold (hfits.isMemory hplace) _ hresult
            exact hread.accessed.append _
          · exact accessed_snoc_iff.mpr (.inr ⟨hdeed, _, haccess⟩)

theorem Ledger.known_act {id : Nat} {next : Slot} (hnext : deed.after.stations.slot? id = some next) :
    (∃ address, Located (journal ++ [deed]) next.seq address) ↔ next.effective? ≠ none := by
  simp only [located_snoc_iff, exists_or]
  rcases hvalid.fate hnext with ⟨hold, hseq, hop, haddress, hresult, hother⟩ |
    ⟨hold, hseq, hop, hdeed, haddress, hresult, hread⟩ |
    ⟨hfree, hseq, hdeed, haddress, hresult, hsilent⟩
  · have hknown := hledger.known id _ hold
    simp only [hseq, hother, false_and, exists_false, or_false]
    rw [hknown]
    simp [Slot.effective?, haddress]
  · have hknown := hledger.known id _ hold
    rw [hseq, hknown, haddress, hdeed]
    cases deed.address? <;> simp
  -- A new instruction stands at a position about which the journal says nothing.
  · rw [haddress, hseq]
    simp only [hsilent, reduceCtorEq, and_false, exists_false, or_false, ne_eq, not_true, iff_false]
    rintro ⟨address, other, hother, hsame, -⟩
    exact hledger.seq_ne_fetched hother hsame

theorem Ledger.result_act {id : Nat} {next : Slot} {value : Float}
    (hnext : deed.after.stations.slot? id = some next) (hmemory : next.IsMemory)
    (hvalue : next.result = some value) : HasRead (journal ++ [deed]) next.seq value := by
  rcases hvalid.fate hnext with ⟨hold, hseq, hop, haddress, hresult, hother⟩ |
    ⟨hold, hseq, hop, hdeed, haddress, hresult, hread⟩ |
    ⟨hfree, hseq, hdeed, haddress, hresult, hsilent⟩
  · rw [hseq]
    rw [hresult] at hvalue
    exact (hledger.result id _ hold (by rwa [Slot.IsMemory, ← hop]) value hvalue).append _
  · rw [hseq]
    rw [hresult hmemory] at hvalue
    cases haccess : deed.access? with
    | none =>
        rw [haccess] at hvalue
        exact (hledger.result id _ hold (by rwa [Slot.IsMemory, ← hop]) value hvalue).append _
    | some access =>
        -- The result is what has just been read.
        rw [haccess] at hvalue
        refine ⟨deed, List.mem_append_right _ (List.mem_singleton_self _), hdeed, ?_⟩
        cases access with
        | read address held =>
            obtain rfl := Option.some.inj hvalue
            exact ⟨address, haccess⟩
        | write address held => exact absurd (hread _ haccess).1 (by simp [Access.isWrite])
  · exact absurd (hresult.symm.trans hvalue) (by simp)

theorem Ledger.unread_act {id : Nat} {next : Slot} (hnext : deed.after.stations.slot? id = some next)
    (hmemory : next.IsMemory) (haccessed : Accessed (journal ++ [deed]) next.seq) :
    next.result ≠ none := by
  rw [accessed_snoc_iff] at haccessed
  rcases hvalid.fate hnext with ⟨hold, hseq, hop, haddress, hresult, hother⟩ |
    ⟨hold, hseq, hop, hdeed, haddress, hresult, hread⟩ |
    ⟨hfree, hseq, hdeed, haddress, hresult, hsilent⟩
  · rw [hseq] at haccessed
    rcases haccessed with haccessed | ⟨hsame, -⟩
    · rw [hresult]
      exact hledger.unread id _ hold (by rwa [Slot.IsMemory, ← hop]) haccessed
    · exact absurd hsame hother
  · rw [hseq] at haccessed
    rw [hresult hmemory]
    rcases haccessed with haccessed | ⟨-, access, haccess⟩
    · have hsome := hledger.unread id _ hold (by rwa [Slot.IsMemory, ← hop]) haccessed
      cases deed.access? <;> simp [hsome]
    · simp [haccess]
  · rw [hseq] at haccessed
    rcases haccessed with ⟨other, hother, hsame, -⟩ | ⟨-, access, haccess⟩
    · exact absurd hsame (hledger.seq_ne_fetched hother)
    · rw [Deed.address?_of_access? haccess] at hsilent
      exact absurd hsilent (by simp)

theorem Ledger.act : Ledger listing (journal ++ [deed]) deed.after where
  bounded other hother := by
    rcases List.mem_append.mp hother with hold | hnew
    · exact lt_of_lt_of_le (hledger.bounded other hold) hvalid.extends.fetched_le
    · obtain rfl := List.mem_singleton.mp hnew
      exact hvalid.seq_lt
  held _ _ _ := hledger.held_act hvalid
  known _ _ := hledger.known_act hvalid
  result _ _ hnext hmemory _ := hledger.result_act hvalid hnext hmemory
  unread _ _ := hledger.unread_act hvalid

end Act

theorem Ledger.tick {state : State} (hledger : Ledger listing journal state) :
    Ledger listing journal state.tick where
  bounded := hledger.bounded
  held n instruction place hat hplace := by
    rcases hledger.held n instruction place hat hplace with haccessed | ⟨id, hheld⟩
    · exact .inl haccessed
    · exact .inr ⟨id, State.holds_tick.mpr hheld⟩
  known id slot hslot := hledger.known id slot (by simpa [State.tick] using hslot)
  result id slot hslot := hledger.result id slot (by simpa [State.tick] using hslot)
  unread id slot hslot := hledger.unread id slot (by simpa [State.tick] using hslot)

/-- An address in the journal is that of the instruction at its position. -/
theorem Execution.address?_of_deed {initial frozen state : State} {todo : List Task}
    (hnow : Execution listing initial frozen journal state todo) (hfresh : initial.Fresh)
    {instruction : Instruction} {address : Int} (hdeed : deed ∈ journal)
    (haddress : deed.address? = some address)
    (hat : state.cursor.instructionAt? listing deed.seq = some instruction) :
    instruction.operation.address?
      (valueBefore? listing initial.registers journal state.cursor · deed.seq) = some address :=
  (hnow.inOrder_at hfresh hdeed hat).address haddress

/-- At every point of an execution, the stations agree with the journal about loads and stores. -/
theorem Execution.ledger {initial frozen state : State} {todo : List Task}
    (hnow : Execution listing initial frozen journal state todo) (hfresh : initial.Fresh) :
    Ledger listing journal state := by
  induction hnow with
  | start =>
      refine ⟨by simp, fun n instruction place hat => ?_, ?_, ?_, ?_⟩
      · have hbound := Cursor.lt_fetched hat
        rw [hfresh.fetched] at hbound
        omega
      all_goals
        intro id slot hslot
        rw [hfresh.free] at hslot
        exact absurd hslot (by simp)
  | tick _ ih => exact ih.tick
  | pass _ _ ih => exact ih
  | @act frozen state after journal task todo event hnow hperform ih =>
      have hvalid : Deed.Valid listing ⟨task, state, event, after.note event.codeOrder event.action⟩ :=
        hnow.valid hfresh.inStep ⟨after, hperform, rfl⟩
      exact ih.act hvalid

end Ledger

end Tomasulo
