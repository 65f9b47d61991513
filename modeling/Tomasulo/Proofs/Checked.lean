import Tomasulo.Proofs.Plan
import Tomasulo.Text.Numeral

/-!
# A machine that checks itself

The definitions of the machine are total: what is not there reads as nothing, and a countdown stops at zero.
So they do not tell whether a cycle ever asks for a station that the pool does not have, or counts below
zero.  This module says a cycle once more over operations that fault in these cases (`Checked.cycleOnce`)
and shows that none of them does: whatever the stations hold, the cycle that checks comes to the same outcome
as the one that does not (`checked_cycle_eq`).

Two kinds of lists are read in two ways.  A station is read by its number without looking first
(`Checked.entry`); an instruction or an action is read only if there is one (`Checked.lookup`).  The
countdowns of memory accesses stop at zero by design and are not checked.
-/

namespace Tomasulo

/-- What an operation can run into. -/
inductive Fault where
  /-- No station has the number. -/
  | station (id : Nat)
  /-- No instruction has the code order. -/
  | instruction (codeOrder : Nat)
  /-- No action is kept for the code order. -/
  | action (codeOrder : Nat)
  /-- The steps of a station would go below zero. -/
  | countdown (id : Nat)
  /-- A counter would leave its word. -/
  | counter

namespace Checked

/-! ## Operations -/

section Operations

variable {α : Type} (fault : Fault) (entries : List α) (n : Nat)

/-- Reads an entry, which has to be there. -/
def entry : Except Fault α :=
  match entries[n]? with
  | some found => .ok found
  | none => .error fault

/-- Changes an entry, which has to be there. -/
def update (f : α → α) : Except Fault (List α) :=
  if n < entries.length then .ok (entries.modify n f) else .error fault

/-- Reads an entry if there is one. -/
def lookup : Except Fault (Option α) :=
  if n < entries.length then some <$> entry fault entries n else .ok none

/-- Counts up within a word. -/
def count : Except Fault Nat :=
  if n + 1 < Word.limit then .ok (n + 1) else .error .counter

/-- Counts the steps of a station down, of which there has to be one. -/
def countDown (id step : Nat) : Except Fault Nat :=
  if 0 < step then .ok (step - 1) else .error (.countdown id)

end Operations

/-! ## Plans -/

/-- The instruction that comes next. -/
def next? (listing : Listing) (cursor : Cursor) : Except Fault (Option Instruction) :=
  match cursor.current? listing with
  | none => return none
  | some codeOrder => lookup (.instruction codeOrder) listing.instructions codeOrder

/-- Decides what becomes of the next instruction. -/
def fetch (listing : Listing) (state : State) : Except Fault Fetch := do
  match ← next? listing state.cursor with
  | none => return .exhausted
  | some instruction =>
      match instruction.operation with
      | .jump target => return .act (.jump instruction target)
      | .branch comparison lhs rhs target =>
          match (state.registers.get lhs).value?, (state.registers.get rhs).value? with
          | some a, some b => return .act (.branch instruction comparison a b target)
          | _, _ => return .stall
      | _ =>
          match state.stations.freeFor? instruction.opClass with
          | some station => return .act (.issue instruction station)
          | none => return .stall

/-- Whether an older instruction of some kind stands in the way of the one in a station. -/
def blocked (kind : Slot → Bool) (pool : Pool) (id : Nat) : Except Fault Bool := do
  let station ← entry (.station id) pool id
  return station.slot.any fun slot => pool.olderConflict slot kind

def loadBlocked : Pool → Nat → Except Fault Bool :=
  blocked Slot.isStore

def storeBlocked : Pool → Nat → Except Fault Bool :=
  blocked fun other => other.isLoad || other.isStore

/-- A condition with a guard, which is asked last. -/
def guarded (condition : Bool) (waits : Except Fault Bool) : Except Fault Bool := do
  if condition then return !(← waits) else return false

/-- Whether a load goes on with reading. -/
def loads (pool : Pool) (entry : Occupied) : Except Fault Bool :=
  guarded
    (entry.slot.isLoad && entry.slot.effective?.isSome && entry.slot.step < entry.station.delay &&
      entry.slot.result.isNone)
    (loadBlocked pool entry.id)

/-- Whether a store goes on with writing. -/
def commits (pool : Pool) (entry : Occupied) : Except Fault Bool :=
  guarded
    (entry.slot.isStore && entry.slot.effective?.isSome && entry.slot.step < entry.station.delay &&
      entry.slot.k.isReady)
    (storeBlocked pool entry.id)

/-- The entries that satisfy a condition. -/
def choose (condition : Occupied → Except Fault Bool) : List Occupied → Except Fault (List Occupied)
  | [] => return []
  | entry :: rest => do
      let chosen ← condition entry
      let others ← choose condition rest
      return if chosen then entry :: others else others

/-- The numbers of the occupied stations that satisfy a condition, oldest instruction first. -/
def byAge (pool : Pool) (condition : Occupied → Except Fault Bool) : Except Fault (List Nat) := do
  let chosen ← choose condition pool.occupied
  return (chosen.foldr Pool.insertByAge []).map Occupied.id

/-- Decides what happens in a cycle. -/
def plan (listing : Listing) (state : State) : Except Fault Plan := do
  let pool := state.stations
  return {
    fetch := ← fetch listing state
    computes := pool.byAge Occupied.computes
    locates := (pool.byAge Occupied.locates).head?
    loads := ← byAge pool (loads pool)
    publishes := (pool.byAge Occupied.publishes).head?
    commits := ← byAge pool (commits pool) }

/-! ## Tasks -/

/-- The name of a station; a question mark for a number that no station has. -/
def name (pool : Pool) (id : Nat) : Except Fault String := do
  let station? ← lookup (.station id) pool id
  return (station?.map Station.name).getD "?"

/-- Puts an instruction into a station. -/
def put (pool : Pool) (id : Nat) (slot : Slot) : Except Fault Pool :=
  update (.station id) pool id fun station => { station with slot := some slot }

/-- Replaces the content of a station whose functional unit works. -/
def work (pool : Pool) (id : Nat) (slot : Slot) : Except Fault Pool :=
  update (.station id) pool id fun station => { station with working := true, slot := some slot }

/-- Frees a station. -/
def release (pool : Pool) (id : Nat) : Except Fault Pool :=
  update (.station id) pool id fun station => { station with slot := none }

/-- What an instruction finds in a register. -/
def reading (state : State) (register : String) : Except Fault Reading := do
  match state.registers.get register with
  | .ready value => return .value value
  | .pending station => return .awaits (← name state.stations station)
  | .empty => return .nothing

/-- Fetches the next instruction and moves on. -/
def advance (listing : Listing) (label : Option String) (cursor : Cursor) : Except Fault Cursor := do
  if cursor.isExhausted listing then return cursor
  else
    let _ ← count cursor.fetched
    return cursor.advance listing label

/-- Puts the next instruction into a station; the register that it writes waits for the station. -/
def issue (listing : Listing) (instruction : Instruction) (id : Nat) (state : State) :
    Except Fault (Option (Event × State)) := do
  let station ← entry (.station id) state.stations id
  match Slot.capture? state.registers instruction state.cursor.fetched station.delay with
  | none => return none
  | some slot =>
      let readings ← instruction.operation.sources.mapM fun name => return (name, ← reading state name)
      let registers := match instruction.operation.dest? with
        | some name => state.registers.await name id
        | none => state.registers
      return some (.issued instruction station.name readings,
        { state with
          registers
          stations := ← put state.stations id slot
          cursor := ← advance listing none state.cursor })

/-- Resolves a branch. -/
def branch (listing : Listing) (instruction : Instruction) (comparison : Comparison)
    (lhs rhs : Float) (target : String) (state : State) : Except Fault (Event × State) := do
  let label := if comparison.holds lhs rhs then some target else none
  return (.branched instruction comparison lhs rhs target,
    { state with cursor := ← advance listing label state.cursor })

/-- Takes a jump. -/
def jump (listing : Listing) (instruction : Instruction) (target : String) (state : State) :
    Except Fault (Event × State) := do
  return (.jumped instruction target,
    { state with cursor := ← advance listing (some target) state.cursor })

/-- Works on arithmetic; the last step gives the result. -/
def compute (id : Nat) (state : State) : Except Fault (Option (Event × State)) := do
  let station ← entry (.station id) state.stations id
  match station.slot with
  | none => return none
  | some slot =>
      let left ← countDown id slot.step
      match slot.op, slot.j, slot.k with
      | .alu op, .ready lhs, .ready rhs =>
          if left = 0 then
            let result := op.apply lhs rhs
            let slot := { slot with step := left, result := some result }
            return some (.computed station.name slot.codeOrder op lhs rhs result,
              { state with stations := ← work state.stations id slot })
          else
            let slot := { slot with step := left }
            return some (.worked station.name slot.codeOrder left,
              { state with stations := ← work state.stations id slot })
      | _, _, _ =>
          let slot := { slot with step := left }
          return some (.worked station.name slot.codeOrder left,
            { state with stations := ← work state.stations id slot })

/-- The value that a load finds in a cell that holds none. -/
def sampleFor (listing : Listing) (codeOrder : Nat) : Except Fault Float := do
  match ← lookup (.instruction codeOrder) listing.instructions codeOrder with
  | none => return 0
  | some instruction =>
      match instruction.operation with
      | .load dest .. => return Sample.value dest instruction.mnemonic .load
      | _ => return 0

/-- Gives a load its value, filling the cell if it holds none. -/
def finishLoad (listing : Listing) (id : Nat) (slot : Slot) (address : Int) (state : State) :
    Except Fault (Float × State) := do
  let sample ← sampleFor listing slot.codeOrder
  let value := state.memory.readOr address sample
  return (value,
    { state with
      memory := state.memory.fill address sample
      stations := ← put state.stations id { slot with result := some value } })

/-- Computes an address, and reads the cell at once if nothing is left to do. -/
def locate (listing : Listing) (id : Nat) (state : State) :
    Except Fault (Option (Event × State)) := do
  let station ← entry (.station id) state.stations id
  match station.slot with
  | none => return none
  | some slot =>
      match slot.j, slot.address with
      | .ready baseValue, some (.symbolic base offset) =>
          let address := effectiveAddress baseValue offset
          let slot : Slot :=
            { slot with
              address := some (.effective address base baseValue offset)
              step := ← countDown id slot.step }
          let located : State := { state with stations := ← work state.stations id slot }
          let event := Event.located station.name slot.codeOrder baseValue offset address
          if slot.step = 0 && slot.isLoad then
            if ← loadBlocked located.stations id then return some (event, located)
            else return some (event, (← finishLoad listing id slot address located).2)
          else return some (event, located)
      | _, _ => return none

/-- Works on the memory access of a load; the last step reads the cell. -/
def load (listing : Listing) (id : Nat) (state : State) : Except Fault (Option (Event × State)) := do
  let station ← entry (.station id) state.stations id
  match station.slot with
  | none => return none
  | some slot =>
      match slot.effective? with
      | none => return none
      | some address =>
          let slot : Slot := { slot with step := slot.step - 1 }
          let working : State := { state with stations := ← work state.stations id slot }
          if slot.step = 0 then
            let (value, done) ← finishLoad listing id slot address working
            return some (.loaded station.name slot.codeOrder value address, done)
          else return some (.accessed station.name slot.codeOrder slot.step, working)

/-- Publishes a result to registers and operands and frees the station. -/
def publish (id : Nat) (state : State) : Except Fault (Option (Event × State)) := do
  let station ← entry (.station id) state.stations id
  match station.slot with
  | none => return none
  | some slot =>
      match slot.result with
      | none => return none
      | some value =>
          return some (.published station.name slot.codeOrder value (state.registers.awaiting id)
              (state.stations.awaiting id),
            { state with
              registers := state.registers.receive id value
              stations := ← release (state.stations.receive id value) id })

/-- Works on the memory access of a store; the last step writes the cell and frees the station. -/
def commit (id : Nat) (state : State) : Except Fault (Option (Event × State)) := do
  let station ← entry (.station id) state.stations id
  match station.slot with
  | none => return none
  | some slot =>
      match slot.effective?, slot.k.value? with
      | some address, some value =>
          let slot : Slot := { slot with step := slot.step - 1 }
          let stations ← work state.stations id slot
          if slot.step = 0 then
            return some (.stored station.name slot.codeOrder value address,
              { state with
                memory := state.memory.write address value
                stations := ← release stations id })
          else
            return some (.storing station.name slot.codeOrder slot.step, { state with stations })
      | _, _ => return none

/-- Carries out a task. -/
def task (listing : Listing) (state : State) : Task → Except Fault (Option (Event × State))
  | .issue instruction id => issue listing instruction id state
  | .branch instruction comparison lhs rhs target =>
      some <$> branch listing instruction comparison lhs rhs target state
  | .jump instruction target => some <$> jump listing instruction target state
  | .compute id => compute id state
  | .locate id => locate listing id state
  | .load id => load listing id state
  | .publish id => publish id state
  | .commit id => commit id state

/-! ## Cycles -/

/-- Notes what an instruction did; a code order that no instruction has is passed over. -/
def note (state : State) (codeOrder : Nat) (action : Action) : Except Fault State := do
  match ← lookup (.action codeOrder) state.actions codeOrder with
  | none => return state
  | some _ =>
      return { state with
        actions := ← update (.action codeOrder) state.actions codeOrder fun _ => some action }

/-- Carries out one more task. -/
def perform (listing : Listing) (progress : Progress) (next : Task) : Except Fault Progress := do
  match ← task listing progress.state next with
  | none => return progress
  | some (event, state) =>
      let state ← note state event.codeOrder event.action
      return ⟨state, progress.steps ++ [⟨event, state⟩]⟩

/-- The state at the beginning of the next cycle. -/
def tick (state : State) : Except Fault State := do
  return { state with
    cycle := ← count state.cycle
    actions := state.actions.map fun _ => none
    stations := state.stations.rest }

/-- Runs one cycle. -/
def cycleOnce (listing : Listing) (state : State) : Except Fault Outcome := do
  let state ← tick state
  let plan ← plan listing state
  let progress ← plan.tasks.foldlM (perform listing) ⟨state, []⟩
  return ⟨progress.state,
    { progressed := !plan.tasks.isEmpty, stalled := plan.isStalled, steps := progress.steps }⟩

/-! ## No operation faults -/

section Operations

variable {α β : Type} {fault : Fault} {entries : List α} {n : Nat}

theorem ok_bind (a : α) (f : α → Except Fault β) : (Except.ok a >>= f) = f a :=
  rfl

theorem entry_eq {found : α} (hfound : entries[n]? = some found) :
    entry fault entries n = .ok found := by
  rw [entry, hfound]

theorem update_eq (hbound : n < entries.length) (f : α → α) :
    update fault entries n f = .ok (entries.modify n f) :=
  if_pos hbound

/-- Looking an entry up never faults. -/
theorem lookup_eq : lookup fault entries n = .ok entries[n]? := by
  unfold lookup
  split
  case isTrue hbound =>
    rw [entry_eq (List.getElem?_eq_getElem hbound), List.getElem?_eq_getElem hbound]
    rfl
  case isFalse hbound => rw [List.getElem?_eq_none (Nat.le_of_not_lt hbound)]

theorem count_eq (hbound : n + 1 < Word.limit) : count n = .ok (n + 1) :=
  if_pos hbound

theorem countDown_eq {id step : Nat} (hpositive : 0 < step) : countDown id step = .ok (step - 1) :=
  if_pos hpositive

end Operations

variable {listing : Listing} {state : State} {pool : Pool} {id : Nat}

/-! ## Plans -/

theorem next?_eq (cursor : Cursor) : next? listing cursor = .ok (cursor.next? listing) := by
  unfold next? Cursor.next?
  cases cursor.current? listing with
  | none => rfl
  | some codeOrder => exact lookup_eq

theorem fetch_eq : fetch listing state = .ok (state.fetch listing) := by
  unfold fetch State.fetch
  rw [next?_eq, ok_bind]
  cases state.cursor.next? listing with
  | none => rfl
  | some instruction =>
      dsimp only
      cases instruction.operation with
      | jump target => rfl
      | branch comparison lhs rhs target =>
          dsimp only
          cases (state.registers.get lhs).value? <;> cases (state.registers.get rhs).value? <;> rfl
      | _ =>
          dsimp only
          cases state.stations.freeFor? instruction.opClass <;> rfl

theorem blocked_eq (kind : Slot → Bool) (hbound : id < pool.length) :
    blocked kind pool id = .ok ((pool.slot? id).any fun slot => pool.olderConflict slot kind) := by
  unfold blocked Pool.slot?
  rw [entry_eq (List.getElem?_eq_getElem hbound), ok_bind, List.getElem?_eq_getElem hbound]
  rfl

theorem loadBlocked_eq (hbound : id < pool.length) :
    loadBlocked pool id = .ok (pool.loadBlocked id) :=
  blocked_eq _ hbound

theorem storeBlocked_eq (hbound : id < pool.length) :
    storeBlocked pool id = .ok (pool.storeBlocked id) :=
  blocked_eq _ hbound

theorem choose_eq {condition : Occupied → Except Fault Bool} {test : Occupied → Bool}
    {entries : List Occupied} (hcondition : ∀ entry ∈ entries, condition entry = .ok (test entry)) :
    choose condition entries = .ok (entries.filter test) := by
  induction entries with
  | nil => rfl
  | cons entry rest ih =>
      obtain ⟨hentry, hrest⟩ := List.forall_mem_cons.mp hcondition
      rw [choose, hentry, ok_bind, ih hrest, ok_bind, List.filter_cons]
      rfl

theorem byAge_eq {condition : Occupied → Except Fault Bool} {test : Occupied → Bool}
    (hcondition : ∀ entry ∈ pool.occupied, condition entry = .ok (test entry)) :
    byAge pool condition = .ok (pool.byAge test) := by
  rw [byAge, choose_eq hcondition, ok_bind]
  rfl

theorem guarded_eq {condition waits : Bool} {asked : Except Fault Bool} (hasked : asked = .ok waits) :
    guarded condition asked = .ok (condition && !waits) := by
  rw [hasked]
  cases condition <;> rfl

theorem loads_eq {entry : Occupied} (hentry : entry ∈ pool.occupied) :
    loads pool entry = .ok (entry.loads pool) :=
  guarded_eq (loadBlocked_eq (Pool.lt_length_of_mem_occupied hentry))

theorem commits_eq {entry : Occupied} (hentry : entry ∈ pool.occupied) :
    commits pool entry = .ok (entry.commits pool) :=
  guarded_eq (storeBlocked_eq (Pool.lt_length_of_mem_occupied hentry))

/-- Plans ask only for stations that are there. -/
theorem plan_eq : plan listing state = .ok (state.plan listing) := by
  simp only [plan, fetch_eq, byAge_eq fun _ => loads_eq, byAge_eq fun _ => commits_eq, ok_bind]
  rfl

/-! ## Tasks -/

theorem name_eq : name pool id = .ok (pool.name id) := by
  rw [name, lookup_eq, ok_bind]
  rfl

theorem reading_eq (register : String) : reading state register = .ok (state.reading register) := by
  unfold reading State.reading
  cases state.registers.get register with
  | ready value => rfl
  | pending station => dsimp only; rw [name_eq]; rfl
  | empty => rfl

theorem advance_eq {cursor : Cursor} (hfetched : cursor.fetched + 1 < Word.limit)
    (label : Option String) : advance listing label cursor = .ok (cursor.advance listing label) := by
  unfold advance
  split
  case isTrue hexhausted =>
    rw [Cursor.isExhausted, Option.isNone_iff_eq_none] at hexhausted
    rw [Cursor.advance, hexhausted]
    rfl
  case isFalse => rw [count_eq hfetched]; rfl

theorem sampleFor_eq (codeOrder : Nat) :
    sampleFor listing codeOrder = .ok (State.sampleFor listing codeOrder) := by
  unfold sampleFor State.sampleFor Listing.instruction?
  rw [lookup_eq, ok_bind]
  cases listing.instructions[codeOrder]? with
  | none => rfl
  | some instruction =>
      dsimp only
      cases instruction.operation <;> rfl

theorem put_eq (hbound : id < pool.length) (slot : Slot) : put pool id slot = .ok (pool.put id slot) :=
  update_eq hbound _

theorem work_eq (hbound : id < pool.length) (slot : Slot) :
    work pool id slot = .ok (pool.work id slot) :=
  update_eq hbound _

theorem release_eq (hbound : id < pool.length) : release pool id = .ok (pool.release id) :=
  update_eq hbound _

theorem finishLoad_eq {address : Int} (hbound : id < state.stations.length) (slot : Slot) :
    finishLoad listing id slot address state = .ok (state.finishLoad listing id slot address) := by
  simp only [finishLoad, sampleFor_eq, put_eq hbound, ok_bind]
  rfl

theorem issue_eq {instruction : Instruction} (hbound : id < state.stations.length)
    (hfetched : state.cursor.fetched + 1 < Word.limit) :
    issue listing instruction id state = .ok (state.issue listing instruction id) := by
  have hstation := List.getElem?_eq_getElem hbound
  have hreadings (names : List String) :
      (names.mapM fun name => return (name, ← reading state name)) =
        (Except.ok (names.map fun name => (name, state.reading name)) : Except Fault _) := by
    simp only [reading_eq, ok_bind]
    exact List.mapM_pure
  simp only [issue, State.issue, entry_eq hstation, hstation, ok_bind, Option.bind_eq_bind,
    Option.bind_some]
  cases Slot.capture? state.registers instruction state.cursor.fetched _ with
  | none => rfl
  | some slot =>
      simp only [hreadings, put_eq hbound, advance_eq hfetched, ok_bind]
      rfl

section Stations

variable {slot : Slot} (hslot : state.stations.slot? id = some slot)

include hslot

theorem compute_eq (hsuits : slot.Suits (state.stations.delay id) (.compute id)) :
    compute id state = .ok (state.compute id) := by
  obtain ⟨station, hstation, hheld⟩ := Pool.slot?_eq_some_iff.mp hslot
  have hbound := Pool.lt_length_of_slot? hslot
  obtain ⟨⟨op, lhs, rhs, hop, hj, hk⟩, hpositive, -⟩ := hsuits
  simp only [compute, State.compute, entry_eq hstation, hstation, hheld, countDown_eq hpositive, hop,
    hj, hk, work_eq hbound, ok_bind, Option.bind_eq_bind, Option.bind_some]
  split <;> rfl

theorem locate_eq (hdelay : 0 < state.stations.delay id)
    (hsuits : slot.Suits (state.stations.delay id) (.locate id)) :
    locate listing id state = .ok (state.locate listing id) := by
  obtain ⟨station, hstation, hheld⟩ := Pool.slot?_eq_some_iff.mp hslot
  have hbound := Pool.lt_length_of_slot? hslot
  have hbound' (next : Slot) : id < (state.stations.work id next).length := by simpa using hbound
  obtain ⟨-, hstep, -, baseValue, hj⟩ := hsuits
  have hpositive : 0 < slot.step := hstep ▸ hdelay
  simp only [locate, State.locate, entry_eq hstation, hstation, hheld, hj, countDown_eq hpositive,
    work_eq hbound, ok_bind, Option.bind_eq_bind, Option.bind_some]
  cases slot.address with
  | none => rfl
  | some address =>
      cases address with
      | effective address base baseValue offset => rfl
      | symbolic base offset =>
          have hread (next : Slot) (address : Int) :
              finishLoad listing id next address
                  { state with stations := state.stations.work id next } =
                .ok (State.finishLoad listing id next address
                  { state with stations := state.stations.work id next }) :=
            finishLoad_eq (hbound' next) next
          simp only [loadBlocked_eq (hbound' _), hread, ok_bind]
          -- Whether nothing is left to do for a load, and whether it has to wait.
          generalize (decide (slot.step - 1 = 0) && Slot.isLoad _) = last
          generalize Pool.loadBlocked _ id = waits
          cases last <;> cases waits <;> rfl

theorem load_eq (hsuits : slot.Suits (state.stations.delay id) (.load id)) :
    load listing id state = .ok (state.load listing id) := by
  obtain ⟨station, hstation, hheld⟩ := Pool.slot?_eq_some_iff.mp hslot
  have hbound := Pool.lt_length_of_slot? hslot
  obtain ⟨-, ⟨address, haddress⟩, -⟩ := hsuits
  simp only [load, State.load, entry_eq hstation, hstation, hheld, haddress, work_eq hbound, ok_bind,
    Option.bind_eq_bind, Option.bind_some]
  split
  · rw [finishLoad_eq (by simpa using hbound)]
    rfl
  · rfl

theorem publish_eq (hsuits : slot.Suits (state.stations.delay id) (.publish id)) :
    publish id state = .ok (state.publish id) := by
  obtain ⟨station, hstation, hheld⟩ := Pool.slot?_eq_some_iff.mp hslot
  obtain ⟨-, -, value, hvalue⟩ := hsuits
  have hbound (value : Float) : id < (state.stations.receive id value).length := by
    simpa using Pool.lt_length_of_slot? hslot
  simp only [publish, State.publish, entry_eq hstation, hstation, hheld, hvalue,
    release_eq (hbound value), ok_bind, Option.bind_eq_bind, Option.bind_some]
  rfl

theorem commit_eq (hsuits : slot.Suits (state.stations.delay id) (.commit id)) :
    commit id state = .ok (state.commit id) := by
  obtain ⟨station, hstation, hheld⟩ := Pool.slot?_eq_some_iff.mp hslot
  have hbound := Pool.lt_length_of_slot? hslot
  have hbound' (next : Slot) : id < (state.stations.work id next).length := by simpa using hbound
  obtain ⟨-, ⟨address, haddress⟩, -, value, hk⟩ := hsuits
  simp only [commit, State.commit, entry_eq hstation, hstation, hheld, haddress, hk, Operand.value?,
    work_eq hbound, release_eq (hbound' _), ok_bind, Option.bind_eq_bind, Option.bind_some]
  split <;> rfl

end Stations

/-- A task that is possible runs into nothing.  Only the tasks of the fetch slot count anything. -/
theorem task_eq {next : Task} (henabled : next.Enabled listing state)
    (hdelays : ∀ id < state.stations.length, 0 < state.stations.delay id)
    (hfetched : next.station? = none → state.cursor.fetched + 1 < Word.limit) :
    task listing state next = .ok (next.perform listing state) := by
  cases next with
  | issue instruction id =>
      obtain ⟨-, -, station, hstation, -⟩ := henabled
      exact issue_eq (List.getElem?_eq_some_iff.mp hstation).1 (hfetched rfl)
  | branch instruction comparison lhs rhs target =>
      simp only [task, branch, advance_eq (hfetched rfl), ok_bind]
      rfl
  | jump instruction target =>
      simp only [task, jump, advance_eq (hfetched rfl), ok_bind]
      rfl
  | compute id =>
      obtain ⟨slot, hslot, hsuits⟩ := (Task.enabled_iff rfl).mp henabled
      exact compute_eq hslot hsuits
  | locate id =>
      obtain ⟨slot, hslot, hsuits⟩ := (Task.enabled_iff rfl).mp henabled
      exact locate_eq hslot (hdelays id (Pool.lt_length_of_slot? hslot)) hsuits
  | load id =>
      obtain ⟨slot, hslot, hsuits⟩ := (Task.enabled_iff rfl).mp henabled
      exact load_eq hslot hsuits
  | publish id =>
      obtain ⟨slot, hslot, hsuits⟩ := (Task.enabled_iff rfl).mp henabled
      exact publish_eq hslot hsuits
  | commit id =>
      obtain ⟨slot, hslot, hsuits⟩ := (Task.enabled_iff rfl).mp henabled
      exact commit_eq hslot hsuits

/-! ## Cycles -/

theorem note_eq (codeOrder : Nat) (action : Action) :
    note state codeOrder action = .ok (state.note codeOrder action) := by
  unfold note State.note
  rw [lookup_eq, ok_bind]
  cases hthere : state.actions[codeOrder]? with
  | none =>
      rw [List.set_eq_of_length_le (List.getElem?_eq_none_iff.mp hthere)]
      rfl
  | some _ =>
      have hbound := (List.getElem?_eq_some_iff.mp hthere).1
      simp only [update_eq hbound, ok_bind, List.set_eq_modify]
      rfl

theorem tick_eq (hcycle : state.cycle + 1 < Word.limit) : tick state = .ok state.tick := by
  simp only [tick, count_eq hcycle, ok_bind]
  rfl

/-- The tasks of a plan are carried out without running into anything, since each is still possible when
its turn comes. -/
theorem foldlM_perform_eq {frozen : State} {todo : List Task}
    (hnow : Underway listing frozen state todo)
    (hfetched : ∀ next ∈ todo, next.station? = none → state.cursor.fetched + 1 < Word.limit)
    (steps : List Step) : todo.foldlM (perform listing) ⟨state, steps⟩ =
      .ok (todo.foldl (Progress.perform listing) ⟨state, steps⟩) := by
  induction todo generalizing state steps with
  | nil => rfl
  | cons next todo ih =>
      have htask := task_eq (hnow.enabled next (List.mem_cons_self ..)) hnow.delays
        (hfetched next (List.mem_cons_self ..))
      -- Only the first task can be one of the fetch slot.
      have hlater (cursor : Cursor) :
          ∀ later ∈ todo, later.station? = none → cursor.fetched + 1 < Word.limit := by
        intro later hmember hnone
        obtain ⟨id, hstation, -⟩ := (List.pairwise_cons.mp hnow.apart).1 later hmember
        exact absurd (hnone.symm.trans hstation) (by simp)
      rw [List.foldlM_cons, List.foldl_cons]
      cases hperform : next.perform listing state with
      | none =>
          have hstep : perform listing ⟨state, steps⟩ next = .ok ⟨state, steps⟩ := by
            rw [perform, htask, hperform]
            rfl
          rw [hstep, ok_bind, ih hnow.pass (hlater _), Progress.perform, hperform]
      | some outcome =>
          obtain ⟨event, after⟩ := outcome
          have hstep : perform listing ⟨state, steps⟩ next =
              .ok ⟨after.note event.codeOrder event.action,
                steps ++ [⟨event, after.note event.codeOrder event.action⟩]⟩ := by
            rw [perform, htask, hperform, ok_bind]
            simp only [note_eq, ok_bind]
            rfl
          rw [hstep, ok_bind, ih (hnow.act hperform) (hlater _), Progress.perform, hperform]

end Checked

/-! ## Stations take turns -/

section Sites

variable {listing : Listing}

/-- Tasks that keep apart change different stations. -/
theorem nodup_sites {todo : List Task} (hapart : todo.Pairwise Task.Apart) :
    (todo.filterMap Task.site?).Nodup := by
  refine List.pairwise_filterMap.mpr (hapart.imp ?_)
  rintro earlier later ⟨id, hstation, hother⟩ site hsite site' hsite' rfl
  rw [Task.site?_eq hstation] at hsite'
  exact hother (hsite.trans hsite'.symm)

/-- What is carried out was planned, in the same order. -/
theorem sublist_tasks_deedsFrom (todo : List Task) (state : State) :
    ((deedsFrom listing todo state).map Deed.task).Sublist todo := by
  induction todo generalizing state with
  | nil => exact .slnil
  | cons task todo ih =>
      rw [deedsFrom]
      split
      · exact (ih state).cons task
      · exact (ih _).cons_cons task

end Sites

/-- Whatever the stations hold, and whatever the registers, the memory and the cursor are: if every station
takes time and no counter is at its end, a cycle runs into no fault, and no two of its tasks work on the same
station. -/
theorem checked_cycle_eq {state : State} (hdelays : ∀ station ∈ state.stations, 0 < station.delay)
    (hcycle : state.cycle + 1 < Word.limit) (hfetched : state.cursor.fetched + 1 < Word.limit)
    (listing : Listing) :
    Checked.cycleOnce listing state = .ok (state.cycleOnce listing) ∧
      ((state.tick.plan listing).tasks.filterMap Task.site?).Nodup ∧
      ((state.deeds listing).map Deed.task).Sublist (state.tick.plan listing).tasks := by
  have hdelays' : ∀ id < state.tick.stations.length, 0 < state.tick.stations.delay id := by
    intro id hbound
    rw [State.tick, Pool.length_rest] at hbound
    rw [State.tick, Pool.delay_rest]
    exact Pool.delay_pos hdelays hbound
  have hnow : Underway listing state.tick state.tick (state.tick.plan listing).tasks :=
    .begin hdelays'
  refine ⟨?_, nodup_sites hnow.apart, sublist_tasks_deedsFrom ..⟩
  rw [Checked.cycleOnce, Checked.tick_eq hcycle, Checked.ok_bind, Checked.plan_eq, Checked.ok_bind,
    Checked.foldlM_perform_eq hnow (fun _ _ _ => hfetched)]
  rfl

namespace Unruly

def listing : Listing where
  instructions := [⟨"add x3,x1,x2", "add", 0, .arithmetic .add "x3" "x1" "x2"⟩]
  sections := [⟨"main", [0]⟩]
  initialValues := .empty

/-- An arithmetic slot of an instruction that the listing does not have. -/
def slot : Slot where
  mnemonic := "none"
  codeOrder := 9
  seq := 7
  op := .alu .add
  j := .ready 8
  k := .ready 8
  address := none
  step := 1
  result := none

/-- A state that no run leads to, by the delay of its first station.  All instructions in its stations have one
position and a code order out of range; there are tags without a station, a load and a store that have counted to
zero before they read and write, and arithmetic that has a result before it is done. -/
def state (delay : Nat) : State where
  cycle := 0
  cursor := ⟨0, 0, [5, 5]⟩
  registers := RegisterFile.await .empty "x1" 40
  stations :=
    [⟨"Load1", .loadStore, delay, false,
        some { slot with op := .load, step := delay, address := some (.symbolic "a0" 0) }⟩,
      ⟨"Load2", .loadStore, 3, false,
        some { slot with op := .load, step := 0, address := some (.effective 16 "a0" 16 0) }⟩,
      ⟨"Load3", .loadStore, 2, false,
        some { slot with op := .store, step := 0, address := some (.effective 8 "a0" 8 0) }⟩,
      ⟨"Add1", .add, 2, false, some { slot with result := some 3 }⟩,
      ⟨"Add2", .add, 2, false, some { slot with step := 0, k := .waiting 99, result := some 3 }⟩,
      ⟨"Add3", .add, 2, false, none⟩]
  memory := .empty
  actions := []

end Unruly

/-- Every station of the unruly state is at work, the free one included.  If the first one took no time, it
would have no step left for its address. -/
theorem checked_cycle_eq_unruly :
    (∀ station ∈ (Unruly.state 1).stations, 0 < station.delay) ∧
      (Unruly.state 1).cycle + 1 < Word.limit ∧ (Unruly.state 1).cursor.fetched + 1 < Word.limit ∧
      ((Unruly.state 1).tick.plan Unruly.listing).tasks.filterMap Task.site? = [5, 3, 0, 1, 4, 2] ∧
      Checked.cycleOnce Unruly.listing (Unruly.state 1) =
        .ok ((Unruly.state 1).cycleOnce Unruly.listing) ∧
      Checked.cycleOnce Unruly.listing (Unruly.state 0) = .error (.countdown 0) := by
  have hdelays : ∀ station ∈ (Unruly.state 1).stations, 0 < station.delay := by
    simp [Unruly.state]
  have hcycle : (Unruly.state 1).cycle + 1 < Word.limit := by decide
  have hfetched : (Unruly.state 1).cursor.fetched + 1 < Word.limit := by decide
  obtain ⟨hchecked, -, -⟩ := checked_cycle_eq hdelays hcycle hfetched Unruly.listing
  exact ⟨hdelays, hcycle, hfetched, rfl, hchecked, rfl⟩

end Tomasulo
