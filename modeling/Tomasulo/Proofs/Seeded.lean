import Tomasulo.Proofs.Grounding
import Tomasulo.Proofs.StoreFree

/-!
# What seeding builds

Seeding is one pass that creates registers and fills cells as it goes on.  What it ends with can be read off
the listing without a pass (`Listing.Seeds`):

* a register is there if the program mentions it, and the first instruction that does decides how it starts;
* a cell is there if some load reads it by a base that holds a value, and the last such load decides what it
  holds.

A register stays as it was created, so a load finds its base during the pass as it is in the end.  It finds
it like that at run time too if no instruction writes the base.  Its cell is then filled from the start, and
no run ever comes to it without finding a value there (`Listing.FindsFilled`).
-/

namespace Tomasulo

/-- Whether an instruction reads or writes a register. -/
def Instruction.Mentions (instruction : Instruction) (name : String) : Prop :=
  name ∈ instruction.operation.sources ∨ instruction.operation.dest? = some name

/-- Whether an instruction is the first one of a listing that mentions a register. -/
def Listing.FirstMention (listing : Listing) (name : String) (first : Instruction) : Prop :=
  ∃ earlier later, listing.instructions = earlier ++ first :: later ∧ first.Mentions name ∧
    ∀ other ∈ earlier, ¬ other.Mentions name

/-- Whether an instruction is a load that reads a cell by a base that holds a value, with the sample that it
has for the cell. -/
inductive Instruction.Fills (registers : RegisterFile) (instruction : Instruction) : Int → Float → Prop
  | load {dest base : String} {offset : Int} {baseValue : Float}
      (hload : instruction.operation = .load dest base offset)
      (hbase : registers.get base = .ready baseValue) :
      Fills registers instruction (effectiveAddress baseValue offset)
        (Sample.value dest instruction.mnemonic .load)

/-- Whether a value is the sample of the last load of a listing that fills a cell. -/
def Listing.LastFill (listing : Listing) (registers : RegisterFile) (address : Int) (value : Float) :
    Prop :=
  ∃ earlier load later, listing.instructions = earlier ++ load :: later ∧
    load.Fills registers address value ∧
    ∀ other ∈ later, ∀ sample, ¬ other.Fills registers address sample

/-- What registers and memory are like before the first cycle. -/
structure Listing.Seeds (listing : Listing) (seeded : Seeded) : Prop where
  /-- There is a register for every name that occurs in the program, and for no other. -/
  named : ∀ name, name ∈ seeded.registers.keys ↔
    ∃ instruction ∈ listing.instructions, instruction.Mentions name
  settled : ∀ name station, seeded.registers.find? name ≠ some (.pending station)
  /-- A register is without a value if no directive gives it one and it is written before it is read. -/
  empty : ∀ name, seeded.registers.find? name = some .empty ↔
    listing.initialValues.find? name = none ∧
      ∃ first, listing.FirstMention name first ∧ name ∉ first.operation.sources
  /-- All others hold the value of their directive or a sample. -/
  ready : ∀ name ∈ seeded.registers.keys, seeded.registers.find? name ≠ some .empty →
    ∃ first, listing.FirstMention name first ∧
      seeded.registers.find? name =
        some (.ready ((listing.initialValues.find? name).getD
          (Sample.value name first.mnemonic first.opClass)))
  /-- Memory lists the addresses of the loads whose base holds a value. -/
  addressed : ∀ address, address ∈ seeded.memory.keys ↔
    ∃ load ∈ listing.instructions, ∃ sample, load.Fills seeded.registers address sample
  /-- Each cell holds the sample of the last load that reads it. -/
  filled : ∀ address ∈ seeded.memory.keys, ∃ value, listing.LastFill seeded.registers address value ∧
    seeded.memory.find? address = some (some value)

/-- Whether what a run does finds the cell of a load filled: nothing discovers the cell, and when the load
reads, it is this cell and the value that is there. -/
structure Deed.FindsFilled (deed : Deed) (listing : Listing) (cursor : Cursor) (load : Instruction)
    (address : Int) : Prop where
  undiscovered : ¬ deed.Discovers address
  reads : cursor.instructionAt? listing deed.seq = some load →
    ∀ x value, deed.access? = some (.read x value) →
      x = address ∧ deed.before.memory.read address = some value

/-- Whether no run on a sound machine has to fill the cell of a load. -/
def Listing.KeepsFilled (listing : Listing) (load : Instruction) : Prop :=
  ∃ address, load.operation.cell? listing.seeded.registers = some address ∧
    ∀ configuration : Configuration, configuration.error? = none →
      ∀ count, ∀ deed ∈ (listing.initialState configuration.stations).journal listing count,
        deed.FindsFilled listing
          ((listing.initialState configuration.stations).afterCycles listing count).cursor load address

/-! ## Registers -/

/-- The value with which a register starts if an instruction reads it first. -/
def Listing.startValue (listing : Listing) (instruction : Instruction) (name : String) : Float :=
  (listing.initialValues.find? name).getD (Sample.value name instruction.mnemonic instruction.opClass)

/-- The register that a visit creates for a name that is not there yet. -/
def Listing.provides? (listing : Listing) (name : String) (instruction : Instruction) : Option Register :=
  if name ∈ instruction.operation.sources then some (.ready (listing.startValue instruction name))
  else if instruction.operation.dest? = some name then
    some (((listing.initialValues.find? name).map Register.ready).getD .empty)
  else none

namespace Seeded

variable {listing : Listing} {instruction : Instruction} {seeded after : Seeded} {name other : String}

/-- A register is created only if it is not there. -/
theorem find?_insert_unless (file : RegisterFile) (name other : String) (register : Register) :
    OrderedMap.find? (if file.contains name then file else file.insert name register) other =
      (file.find? other).or (if other = name then some register else none) := by
  rw [OrderedMap.contains_eq_isSome_find?]
  by_cases hsame : other = name
  · subst hsame
    cases hthere : file.find? other with
    | none => simp [OrderedMap.find?_insert_self]
    | some held => simp [hthere]
  · rw [if_neg hsame, Option.or_none]
    split
    · rfl
    · exact OrderedMap.find?_insert_of_ne _ _ hsame

theorem find?_read (name other : String) :
    (seeded.read listing instruction name).registers.find? other =
      (seeded.registers.find? other).or
        (if other = name then some (.ready (listing.startValue instruction name)) else none) := by
  rw [← find?_insert_unless, read]
  split <;> rfl

theorem find?_written (name other : String) :
    (seeded.written listing name).registers.find? other =
      (seeded.registers.find? other).or
        (if other = name then some (((listing.initialValues.find? name).map Register.ready).getD .empty)
          else none) := by
  rw [← find?_insert_unless, written]
  split <;> rfl

theorem find?_foldl_read (names : List String) :
    (names.foldl (read listing instruction) seeded).registers.find? name =
      (seeded.registers.find? name).or
        (if name ∈ names then some (.ready (listing.startValue instruction name)) else none) := by
  induction names generalizing seeded with
  | nil => simp
  | cons first rest ih =>
      rw [List.foldl_cons, ih, find?_read, Option.or_assoc]
      congr 1
      by_cases hfirst : name = first
      · simp [hfirst]
      · simp [hfirst]

theorem registers_fill : (seeded.fill instruction).registers = seeded.registers := by
  unfold fill
  split
  case h_1 => split <;> rfl
  case h_2 => rfl

theorem find?_visit : (seeded.visit listing instruction).registers.find? name =
    (seeded.registers.find? name).or (listing.provides? name instruction) := by
  unfold visit Listing.provides?
  cases hdest : instruction.operation.dest? with
  | none =>
      rw [Option.toList_none, List.foldl_nil, registers_fill, find?_foldl_read]
      simp
  | some dest =>
      rw [Option.toList_some, List.foldl_cons, List.foldl_nil, find?_written, registers_fill,
        find?_foldl_read, Option.or_assoc]
      congr 1
      -- A register that is read and written is there when its turn as destination comes.
      by_cases hread : name ∈ instruction.operation.sources
      · simp [hread]
      · by_cases hsame : name = dest
        · subst hsame
          simp [hread]
        · simp [hread, hsame, Ne.symm hsame]

theorem find?_foldl_visit (instructions : List Instruction) :
    (instructions.foldl (visit listing) seeded).registers.find? name =
      (seeded.registers.find? name).or (instructions.findSome? (listing.provides? name)) := by
  induction instructions generalizing seeded with
  | nil => simp
  | cons first rest ih =>
      rw [List.foldl_cons, ih, find?_visit, Option.or_assoc, List.findSome?_cons]
      cases listing.provides? name first <;> rfl

end Seeded

section Registers

variable {listing : Listing} {instruction first : Instruction} {name : String} {register : Register}

theorem Listing.find?_seeded (name : String) :
    listing.seeded.registers.find? name = listing.instructions.findSome? (listing.provides? name) := by
  rw [seeded, Seeded.find?_foldl_visit, Seeded.empty, OrderedMap.find?_empty, Option.none_or]

theorem Listing.FirstMention.mentions (hfirst : listing.FirstMention name first) :
    first.Mentions name := by
  obtain ⟨_, _, -, hmentions, -⟩ := hfirst
  exact hmentions

theorem Listing.provides?_eq_none_iff :
    listing.provides? name instruction = none ↔ ¬ instruction.Mentions name := by
  unfold provides? Instruction.Mentions
  by_cases hread : name ∈ instruction.operation.sources
  · simp [hread]
  · by_cases hwritten : instruction.operation.dest? = some name
    · simp [hread, hwritten]
    · simp [hread, hwritten]

/-- A register starts without a value only if nothing gives it one. -/
theorem Listing.provides?_of_mentions (hmentions : instruction.Mentions name) :
    listing.provides? name instruction =
      some (if listing.initialValues.find? name = none ∧ name ∉ instruction.operation.sources then .empty
        else .ready (listing.startValue instruction name)) := by
  unfold provides?
  by_cases hread : name ∈ instruction.operation.sources
  · simp [hread]
  · rw [if_neg hread, if_pos (hmentions.resolve_left hread)]
    cases hdirective : listing.initialValues.find? name with
    | none => simp [hread]
    | some value => simp [startValue, hdirective]

/-- The first instruction that mentions a register provides it. -/
theorem Listing.find?_seeded_eq_some_iff : listing.seeded.registers.find? name = some register ↔
    ∃ first, listing.FirstMention name first ∧ listing.provides? name first = some register := by
  rw [find?_seeded, List.findSome?_eq_some_iff]
  simp only [provides?_eq_none_iff]
  constructor
  · rintro ⟨earlier, first, later, hsplit, hprovides, hearlier⟩
    have hmentions : first.Mentions name := by
      by_contra hnot
      rw [provides?_eq_none_iff.mpr hnot] at hprovides
      exact absurd hprovides (by simp)
    exact ⟨first, ⟨earlier, later, hsplit, hmentions, hearlier⟩, hprovides⟩
  · rintro ⟨first, ⟨earlier, later, hsplit, -, hearlier⟩, hprovides⟩
    exact ⟨earlier, first, later, hsplit, hprovides, hearlier⟩

theorem Listing.mem_keys_seeded_iff : name ∈ listing.seeded.registers.keys ↔
    ∃ instruction ∈ listing.instructions, instruction.Mentions name := by
  rw [OrderedMap.mem_keys_iff, find?_seeded, List.findSome?_isSome_iff]
  simp only [Option.isSome_iff_ne_none, ne_eq, provides?_eq_none_iff, not_not]

end Registers

/-! ## Cells -/

/-- The sample that a load puts into a cell, if it reads the cell by a base that holds a value. -/
def Instruction.sampleAt? (registers : RegisterFile) (address : Int) (instruction : Instruction) :
    Option Float :=
  match instruction.operation with
  | .load dest base offset =>
      (registers.get base).value?.bind fun baseValue =>
        if effectiveAddress baseValue offset = address then
          some (Sample.value dest instruction.mnemonic .load)
        else none
  | _ => none

section Cells

variable {listing : Listing} {instruction : Instruction} {registers registers' : RegisterFile}
  {seeded after : Seeded} {address : Int} {value : Float}

theorem Instruction.sampleAt?_eq_some_iff :
    instruction.sampleAt? registers address = some value ↔ instruction.Fills registers address value := by
  constructor
  · intro hsample
    unfold sampleAt? at hsample
    split at hsample
    case h_2 => exact absurd hsample (by simp)
    case h_1 dest base offset hload =>
      obtain ⟨baseValue, hbase, hcell⟩ := Option.bind_eq_some_iff.mp hsample
      obtain ⟨rfl, hvalue⟩ := Option.ite_none_right_eq_some.mp hcell
      obtain rfl := Option.some.inj hvalue
      exact .load hload (Register.value?_eq_some_iff.mp hbase)
  · rintro ⟨hload, hbase⟩
    simp [sampleAt?, hload, hbase, Register.value?]

/-- Only the base counts. -/
theorem Instruction.sampleAt?_congr
    (hbase : ∀ dest base offset, instruction.operation = .load dest base offset →
      registers.get base = registers'.get base) :
    instruction.sampleAt? registers address = instruction.sampleAt? registers' address := by
  unfold sampleAt?
  split
  case h_1 dest base offset hload => rw [hbase dest base offset hload]
  case h_2 => rfl

namespace Seeded

theorem find?_fill : (seeded.fill instruction).memory.find? address =
    ((instruction.sampleAt? seeded.registers address).map some).or (seeded.memory.find? address) := by
  obtain ⟨line, mnemonic, codeOrder, operation⟩ := instruction
  cases operation with
  | load dest base offset =>
      simp only [fill, Instruction.sampleAt?]
      cases (seeded.registers.get base).value? with
      | none => rfl
      | some baseValue =>
          simp only [Option.bind_some]
          rw [Memory.find?_write]
          by_cases hsame : address = effectiveAddress baseValue offset
          · simp [hsame]
          · simp [hsame, Ne.symm hsame]
  | _ => rfl

/-- A load finds its base as it will be in the end. -/
theorem find?_memory_visit (hafter : (seeded.visit listing instruction).Grows after) :
    (seeded.visit listing instruction).memory.find? address =
      ((instruction.sampleAt? after.registers address).map some).or (seeded.memory.find? address) := by
  -- Reading its sources creates the base, and nothing changes it afterwards.
  have hgrows : Grows _ after := (grows_fill.trans grows_after_fill).trans hafter
  have hbase (dest base : String) (offset : Int)
      (hload : instruction.operation = .load dest base offset) :
      after.registers.get base =
        (instruction.operation.sources.foldl (read listing instruction) seeded).registers.get base := by
    have hsource : base ∈ instruction.operation.sources :=
      Operation.mem_sources_of_place? (by rw [hload]; rfl)
    exact (hgrows.registers base (contains_foldl_read hsource)).2
  unfold visit
  rw [memory_foldl memory_written, find?_fill, Instruction.sampleAt?_congr hbase,
    memory_foldl memory_read]

theorem find?_memory_foldl_visit (instructions : List Instruction) :
    (instructions.foldl (visit listing) seeded).memory.find? address =
      ((instructions.reverse.findSome?
        (Instruction.sampleAt? (instructions.foldl (visit listing) seeded).registers address)).map
          some).or (seeded.memory.find? address) := by
  induction instructions generalizing seeded with
  | nil => rfl
  | cons first rest ih =>
      have hlater : (seeded.visit listing first).Grows
          (rest.foldl (visit listing) (seeded.visit listing first)) :=
        grows_foldl (fun _ _ _ => grows_visit) _
      rw [List.foldl_cons, ih, find?_memory_visit hlater, List.reverse_cons, List.findSome?_append,
        List.findSome?_singleton, ← Option.or_assoc]
      cases List.findSome? _ rest.reverse <;> rfl

end Seeded

theorem Listing.find?_memory_seeded (address : Int) :
    listing.seeded.memory.find? address =
      (listing.instructions.reverse.findSome?
        (Instruction.sampleAt? listing.seeded.registers address)).map some := by
  rw [seeded, Seeded.find?_memory_foldl_visit, Seeded.empty, OrderedMap.find?_empty, Option.or_none]

theorem Listing.mem_keys_memory_seeded_iff : address ∈ listing.seeded.memory.keys ↔
    ∃ load ∈ listing.instructions, ∃ sample, load.Fills listing.seeded.registers address sample := by
  rw [OrderedMap.mem_keys_iff, find?_memory_seeded, Option.isSome_map, List.findSome?_isSome_iff]
  simp only [List.mem_reverse, Option.isSome_iff_exists, Instruction.sampleAt?_eq_some_iff]

/-- The last load that fills a cell decides what it holds. -/
theorem Listing.find?_memory_seeded_eq_some_iff :
    listing.seeded.memory.find? address = some (some value) ↔
      listing.LastFill listing.seeded.registers address value := by
  have hnone (other : Instruction) : other.sampleAt? listing.seeded.registers address = none ↔
      ∀ sample, ¬ other.Fills listing.seeded.registers address sample := by
    simp only [Option.eq_none_iff_forall_ne_some, ne_eq, Instruction.sampleAt?_eq_some_iff]
  rw [find?_memory_seeded, Option.map_eq_some_iff]
  simp only [Option.some.injEq, exists_eq_right, List.findSome?_eq_some_iff, hnone,
    Instruction.sampleAt?_eq_some_iff]
  constructor
  · rintro ⟨later, load, earlier, hsplit, hfills, hlater⟩
    refine ⟨earlier.reverse, load, later.reverse, ?_, hfills, fun other hother => ?_⟩
    · rw [← List.reverse_reverse listing.instructions, hsplit]
      simp
    · exact hlater other (List.mem_reverse.mp hother)
  · rintro ⟨earlier, load, later, hsplit, hfills, hlater⟩
    refine ⟨later.reverse, load, earlier.reverse, ?_, hfills, fun other hother => ?_⟩
    · rw [hsplit]
      simp
    · exact hlater other (List.mem_reverse.mp hother)

end Cells

/-! ## What runs find -/

section Runs

variable {listing : Listing} {initial frozen state : State} {journal : List Deed} {todo : List Task}
  {deed : Deed} {load : Instruction} {dest base : String} {offset address : Int}

/-- A cell that is filled at the start holds a value at every point of an execution. -/
theorem Execution.isSome_read_of_initial (hnow : Execution listing initial frozen journal state todo)
    (hfresh : initial.Fresh) (hfull : initial.memory.Full) (hthere : address ∈ initial.memory.keys) :
    (state.memory.read address).isSome = true :=
  (hnow.cells hfresh hfull).isSome_read.mpr (.inl hthere)

/-- A load whose base no instruction writes reads the cell that its base gives at the start. -/
theorem Execution.address_of_unwritten (hnow : Execution listing initial frozen journal state todo)
    (hfresh : initial.Fresh) (hdeed : deed ∈ journal)
    (hat : state.cursor.instructionAt? listing deed.seq = some load)
    (hplace : load.operation.place? = some (base, offset)) (hunwritten : listing.Unwritten base)
    (haddress : deed.address? = some address) :
    load.operation.cell? initial.registers = some address := by
  have hcell := hnow.address?_of_deed hfresh hdeed haddress hat
  rw [Operation.address?_eq hplace, hunwritten.valueBefore?_eq] at hcell
  rw [Operation.cell?, Operation.address?_eq hplace, hcell]

/-- Where the cell of a load is filled at the start, every deed finds it filled. -/
theorem Execution.findsFilled (hnow : Execution listing initial frozen journal state todo)
    (hfresh : initial.Fresh) (hfull : initial.memory.Full)
    (hplace : load.operation.place? = some (base, offset)) (hunwritten : listing.Unwritten base)
    (hcell : load.operation.cell? initial.registers = some address)
    (hthere : address ∈ initial.memory.keys) (hdeed : deed ∈ journal) :
    deed.FindsFilled listing state.cursor load address := by
  obtain ⟨_, _, _, _, -, hthen, hperforms⟩ := hnow.mem_journal hdeed
  obtain ⟨held, hheld⟩ := Option.isSome_iff_exists.mp (hthen.isSome_read_of_initial hfresh hfull hthere)
  refine ⟨fun hdiscovers => ?_, fun hat x value haccess => ?_⟩
  · exact absurd (hheld.symm.trans hdiscovers.1) (by simp)
  · have hx := hnow.address_of_unwritten hfresh hdeed hat hplace hunwritten
      (Deed.address?_of_access? haccess)
    obtain rfl : address = x := Option.some.inj (hcell.symm.trans hx)
    obtain ⟨_, _, -, -, htouches⟩ := (hthen.valid hfresh.inStep hperforms).touches haccess
    obtain rfl : value = held := htouches.found rfl held hheld
    exact ⟨rfl, hheld⟩

end Runs

/-! ## Main statement -/

section Main

variable {listing : Listing}

theorem Listing.seeds_seeded : listing.Seeds listing.seeded where
  named name := mem_keys_seeded_iff
  settled name station hpending := by
    refine listing.seeded_settled name station ?_
    rw [RegisterFile.get, hpending, Option.getD_some]
  empty name := by
    rw [find?_seeded_eq_some_iff]
    constructor
    · rintro ⟨first, hfirst, hprovides⟩
      rw [provides?_of_mentions hfirst.mentions, Option.some.injEq, ite_eq_left_iff] at hprovides
      by_contra hnot
      have hready := hprovides fun hboth => hnot ⟨hboth.1, first, hfirst, hboth.2⟩
      exact absurd hready (by simp)
    · rintro ⟨hdirective, first, hfirst, hread⟩
      exact ⟨first, hfirst, by rw [provides?_of_mentions hfirst.mentions, if_pos ⟨hdirective, hread⟩]⟩
  ready name hname hvalue := by
    obtain ⟨register, hregister⟩ := Option.isSome_iff_exists.mp (OrderedMap.mem_keys_iff.mp hname)
    obtain ⟨first, hfirst, hprovides⟩ := find?_seeded_eq_some_iff.mp hregister
    rw [provides?_of_mentions hfirst.mentions] at hprovides
    split at hprovides
    case isTrue => exact absurd (hregister.trans hprovides.symm) hvalue
    case isFalse => exact ⟨first, hfirst, hregister.trans hprovides.symm⟩
  addressed address := mem_keys_memory_seeded_iff
  filled address hthere := by
    obtain ⟨cell, hcell⟩ := Option.isSome_iff_exists.mp (OrderedMap.mem_keys_iff.mp hthere)
    cases cell with
    | none => exact absurd hcell (seeded_full address)
    | some value => exact ⟨value, find?_memory_seeded_eq_some_iff.mp hcell, hcell⟩

theorem Listing.keepsFilled {load : Instruction} {dest base : String} {offset : Int}
    (hmember : load ∈ listing.instructions) (hload : load.operation = .load dest base offset)
    (hunwritten : listing.Unwritten base) : listing.KeepsFilled load := by
  obtain ⟨baseValue, hbase, hfilled⟩ := listing.seeded_filled hmember hload hunwritten
  have hplace : load.operation.place? = some (base, offset) := by rw [hload]; rfl
  have hcell : load.operation.cell? listing.seeded.registers =
      some (effectiveAddress baseValue offset) := by
    rw [Operation.cell?, Operation.address?_eq hplace, hbase, Register.value?, Option.map_some]
  refine ⟨effectiveAddress baseValue offset, hcell, fun configuration hsound count deed hdeed => ?_⟩
  obtain ⟨_, hnow⟩ :=
    State.execution_afterCycles listing (listing.initialState configuration.stations) count
  refine hnow.findsFilled (Listing.fresh_initialState hsound) seeded_full hplace hunwritten hcell ?_ hdeed
  exact seeded_full.isSome_read.mp (Option.isSome_iff_ne_none.mpr hfilled)

end Main

/-- What seeding builds can be read off the listing.  If the base of a load is a register that no instruction
writes, no run on a sound machine seeds the cell of this load: whenever the load reads, the cell holds a
value. -/
theorem seeding_of_listing (listing : Listing) :
    listing.Seeds listing.seeded ∧
      ∀ load ∈ listing.instructions, ∀ dest base offset, load.operation = .load dest base offset →
        listing.Unwritten base → listing.KeepsFilled load :=
  ⟨listing.seeds_seeded, fun _ hmember _ _ _ hload hunwritten =>
    listing.keepsFilled hmember hload hunwritten⟩

/-! ## Two loads of one cell

The second load decides what the cell holds, and the third one overwrites its own base.
-/

namespace Aliases

def listing : Listing where
  instructions :=
    [⟨"lw x2,0(a0)", "lw", 0, .load "x2" "a0" 0⟩, ⟨"lw x3,0(a0)", "lw", 1, .load "x3" "a0" 0⟩,
      ⟨"lw x4,0(x4)", "lw", 2, .load "x4" "x4" 0⟩]
  sections := [⟨"main", [0, 1, 2]⟩]
  initialValues := .empty

/-- What the default machine has done after some cycles. -/
def journal (count : Nat) : List Deed :=
  (listing.initialState ({} : Configuration).stations).journal listing count

end Aliases

/-- The first load finds the sample of the second one. -/
theorem seeding_of_listing_aliases :
    Aliases.listing.Unwritten "a0" ∧ Configuration.error? {} = none ∧
      (∃ value, Aliases.listing.LastFill Aliases.listing.seeded.registers 850 value ∧
        (value == Sample.value "x3" "lw" .load) = true) ∧
      ∃ deed ∈ Aliases.journal 8, deed.seq = 0 ∧ deed.access?.map Access.address = some 850 ∧
        ¬ deed.Discovers 850 := by
  have hunwritten : Aliases.listing.Unwritten "a0" := by
    simp [Listing.Unwritten, Aliases.listing, Operation.dest?]
  have hsound : Configuration.error? {} = none := by decide
  obtain ⟨hseeds, hkeeps⟩ := seeding_of_listing Aliases.listing
  have hlisted : 850 ∈ Aliases.listing.seeded.memory.keys := by decide +kernel
  obtain ⟨value, hlast, hcell⟩ := hseeds.filled 850 hlisted
  have hvalue : (Aliases.listing.seeded.memory.find? 850).any
      (·.any (· == Sample.value "x3" "lw" .load)) = true := by decide +kernel
  rw [hcell, Option.any_some, Option.any_some] at hvalue
  obtain ⟨address, haddress, hruns⟩ := hkeeps ⟨"lw x2,0(a0)", "lw", 0, .load "x2" "a0" 0⟩
    (List.mem_cons_self ..) "x2" "a0" 0 rfl hunwritten
  have hfirst : (⟨"lw x2,0(a0)", "lw", 0, .load "x2" "a0" 0⟩ : Instruction).operation.cell?
      Aliases.listing.seeded.registers = some 850 := by decide +kernel
  obtain rfl : address = 850 := Option.some.inj (haddress.symm.trans hfirst)
  have hreads : ∃ deed ∈ Aliases.journal 8, deed.seq = 0 ∧
      deed.access?.map Access.address = some 850 := by decide +kernel
  obtain ⟨deed, hdeed, hseq, hread⟩ := hreads
  exact ⟨hunwritten, hsound, ⟨value, hlast, hvalue⟩, deed, hdeed, hseq, hread,
    (hruns {} hsound 8 deed hdeed).undiscovered⟩

end Tomasulo
