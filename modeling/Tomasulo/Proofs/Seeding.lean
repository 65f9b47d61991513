import Tomasulo.Proofs.Storage
import Tomasulo.Run.Seed

/-!
# What seeding provides

Seeding creates registers and memory cells in the order of the listing and never takes anything back
(`Seeded.Grows`).  Of what it builds, runs rely on three things:

* no register waits for a station (`Listing.seeded_settled`);
* a register that is read and that no instruction writes, or no earlier one, holds a value
  (`Listing.seeded_ready`, `Listing.seeded_ready_before`);
* the cell of a load whose base no instruction writes is filled (`Listing.seeded_filled`).
-/

namespace Tomasulo

/-- Whether a register is written by no instruction of a listing. -/
def Listing.Unwritten (listing : Listing) (name : String) : Prop :=
  ∀ writer ∈ listing.instructions, writer.operation.dest? ≠ some name

namespace Seeded

/-- What is seeded stays as it is. -/
structure Grows (before after : Seeded) : Prop where
  registers : ∀ name, before.registers.contains name = true →
    after.registers.contains name = true ∧ after.registers.get name = before.registers.get name
  memory : ∀ address, before.memory.read address ≠ none → after.memory.read address ≠ none

variable {listing : Listing} {instruction : Instruction} {seeded middle after : Seeded}

theorem Grows.refl (seeded : Seeded) : seeded.Grows seeded :=
  ⟨fun _ h => ⟨h, rfl⟩, fun _ h => h⟩

theorem Grows.trans (hfirst : seeded.Grows middle) (hsecond : middle.Grows after) :
    seeded.Grows after where
  registers name hname := by
    obtain ⟨hmiddle, hsame⟩ := hfirst.registers name hname
    obtain ⟨hafter, hsame'⟩ := hsecond.registers name hmiddle
    exact ⟨hafter, hsame'.trans hsame⟩
  memory address hread := hsecond.memory address (hfirst.memory address hread)

theorem contains_insert (file : RegisterFile) (name other : String) (register : Register) :
    OrderedMap.contains (file.insert name register) other =
      (decide (other = name) || file.contains other) := by
  rw [OrderedMap.contains_eq_isSome_find?, OrderedMap.contains_eq_isSome_find?]
  by_cases hsame : other = name
  · rw [hsame, OrderedMap.find?_insert_self]
    simp
  · rw [OrderedMap.find?_insert_of_ne _ _ hsame]
    simp [hsame]

/-- Creating a register that was not there changes no other one. -/
theorem grows_insert {name : String} {register : Register}
    (hnew : ¬ seeded.registers.contains name = true) :
    seeded.Grows { seeded with registers := seeded.registers.insert name register } where
  registers other hother := by
    have hne : other ≠ name := fun hsame => hnew (hsame ▸ hother)
    simp [contains_insert, hother, RegisterFile.get_insert, hne]
  memory _ hread := hread

theorem grows_read (name : String) : seeded.Grows (seeded.read listing instruction name) := by
  unfold read
  split
  case isTrue => exact .refl _
  case isFalse hnew => exact grows_insert hnew

theorem grows_written (name : String) : seeded.Grows (seeded.written listing name) := by
  unfold written
  split
  case isTrue => exact .refl _
  case isFalse hnew => exact grows_insert hnew

theorem grows_fill : seeded.Grows (seeded.fill instruction) := by
  unfold fill
  split
  case h_2 => exact .refl _
  case h_1 =>
    split
    case h_2 => exact .refl _
    case h_1 =>
      refine ⟨fun _ h => ⟨h, rfl⟩, fun address hread => ?_⟩
      rw [Memory.read_write]
      split
      · simp
      · exact hread

theorem grows_foldl {α : Type} {step : Seeded → α → Seeded} {entries : List α}
    (hstep : ∀ seeded : Seeded, ∀ entry ∈ entries, seeded.Grows (step seeded entry))
    (seeded : Seeded) :
    seeded.Grows (entries.foldl step seeded) := by
  induction entries generalizing seeded with
  | nil => exact .refl _
  | cons entry rest ih =>
      have hfirst := hstep seeded entry (List.mem_cons_self ..)
      exact hfirst.trans (ih (fun s e he => hstep s e (List.mem_cons_of_mem _ he)) _)

theorem grows_after_fill :
    ((instruction.operation.sources.foldl (read listing instruction) seeded).fill instruction).Grows
      (seeded.visit listing instruction) :=
  grows_foldl (fun _ name _ => grows_written name) _

theorem grows_visit : seeded.Grows (seeded.visit listing instruction) :=
  (grows_foldl (fun _ name _ => grows_read name) _).trans (grows_fill.trans grows_after_fill)

/-! ## Registers -/

/-- No register waits, and those that are there and that no instruction writes hold a value. -/
structure Sound (listing : Listing) (seeded : Seeded) : Prop where
  settled : ∀ name producer, seeded.registers.get name ≠ .pending producer
  ready : ∀ name, listing.Unwritten name → seeded.registers.contains name = true →
    ∃ value, seeded.registers.get name = .ready value

theorem Sound.insert (hsound : seeded.Sound listing) {name : String} {register : Register}
    (hsettled : ∀ producer, register ≠ .pending producer)
    (hready : listing.Unwritten name → ∃ value, register = .ready value) :
    Sound listing { seeded with registers := seeded.registers.insert name register } where
  settled other producer := by
    rw [RegisterFile.get_insert]
    split
    · exact hsettled producer
    · exact hsound.settled other producer
  ready other hunwritten hcontains := by
    rw [RegisterFile.get_insert]
    split
    case isTrue hsame => exact hready (hsame ▸ hunwritten)
    case isFalse hne =>
      rw [contains_insert, decide_eq_false hne, Bool.false_or] at hcontains
      exact hsound.ready other hunwritten hcontains

theorem Sound.read (hsound : seeded.Sound listing) (name : String) :
    (seeded.read listing instruction name).Sound listing := by
  unfold Seeded.read
  split
  case isTrue => exact hsound
  case isFalse => exact hsound.insert (fun _ => by simp) fun _ => ⟨_, rfl⟩

/-- A register that is created because it is written may be without a value. -/
theorem Sound.written (hsound : seeded.Sound listing) {name : String}
    (hwritten : ¬ listing.Unwritten name) : (seeded.written listing name).Sound listing := by
  unfold Seeded.written
  split
  case isTrue => exact hsound
  case isFalse =>
    refine hsound.insert (fun _ => ?_) fun hunwritten => absurd hunwritten hwritten
    cases listing.initialValues.find? name <;> simp

theorem Sound.fill (hsound : seeded.Sound listing) : (seeded.fill instruction).Sound listing := by
  unfold Seeded.fill
  split
  case h_2 => exact hsound
  case h_1 =>
    split
    case h_2 => exact hsound
    case h_1 => exact ⟨hsound.settled, hsound.ready⟩

theorem Sound.foldl {α : Type} {step : Seeded → α → Seeded} {entries : List α}
    (hstep : ∀ seeded : Seeded, ∀ entry ∈ entries, seeded.Sound listing →
      (step seeded entry).Sound listing) (hsound : seeded.Sound listing) :
    (entries.foldl step seeded).Sound listing := by
  induction entries generalizing seeded with
  | nil => exact hsound
  | cons entry rest ih =>
      exact ih (fun s e he => hstep s e (List.mem_cons_of_mem _ he))
        (hstep seeded entry (List.mem_cons_self ..) hsound)

theorem Sound.visit (hsound : seeded.Sound listing) (hmember : instruction ∈ listing.instructions) :
    (seeded.visit listing instruction).Sound listing := by
  refine Sound.foldl (fun _ name hname hthen => hthen.written fun hunwritten => ?_)
    (Sound.foldl (fun _ name _ hthen => hthen.read name) hsound).fill
  exact hunwritten instruction hmember (Option.mem_toList.mp hname)

/-! ## What a visit leaves behind -/

theorem contains_read (name : String) :
    (seeded.read listing instruction name).registers.contains name = true := by
  unfold read
  split
  case isTrue hthere => exact hthere
  case isFalse =>
    show OrderedMap.contains (seeded.registers.insert name _) name = true
    simp [contains_insert]

theorem contains_foldl_read {names : List String} {name : String} (hname : name ∈ names) :
    (names.foldl (read listing instruction) seeded).registers.contains name = true := by
  induction names generalizing seeded with
  | nil => simp at hname
  | cons first rest ih =>
      rcases List.mem_cons.mp hname with rfl | hrest
      · exact ((grows_foldl (fun _ other _ => grows_read other) _).registers name
          (contains_read name)).1
      · exact ih hrest

theorem contains_visit {name : String} (hname : name ∈ instruction.operation.sources) :
    (seeded.visit listing instruction).registers.contains name = true := by
  have hread : (instruction.operation.sources.foldl (read listing instruction)
      seeded).registers.contains name = true := contains_foldl_read hname
  exact ((grows_fill.trans grows_after_fill).registers name hread).1

theorem contains_visit_dest {name : String} (hdest : instruction.operation.dest? = some name) :
    (seeded.visit listing instruction).registers.contains name = true := by
  have hwritten (seeded : Seeded) :
      (seeded.written listing name).registers.contains name = true := by
    unfold written
    split
    case isTrue hthere => exact hthere
    case isFalse =>
      show OrderedMap.contains (seeded.registers.insert name _) name = true
      simp [contains_insert]
  rw [visit, hdest]
  exact hwritten _

/-- Visiting a load whose base no instruction writes fills its cell. -/
theorem filled_visit {dest base : String} {offset : Int} (hsound : seeded.Sound listing)
    (hload : instruction.operation = .load dest base offset) (hunwritten : listing.Unwritten base) :
    ∃ value, (seeded.visit listing instruction).registers.get base = .ready value ∧
      (seeded.visit listing instruction).memory.read (effectiveAddress value offset) ≠ none := by
  have hbase : base ∈ instruction.operation.sources := by
    rw [hload]
    simp [Operation.sources, Operation.operands]
  have hlater : Grows _ (seeded.visit listing instruction) := grows_after_fill
  have hcontains : (instruction.operation.sources.foldl (read listing instruction)
      seeded).registers.contains base = true := contains_foldl_read hbase
  have hread : (instruction.operation.sources.foldl (read listing instruction) seeded).Sound listing :=
    Sound.foldl (fun _ name _ hthen => hthen.read name) hsound
  -- What counts is the state after the sources have been read.
  generalize instruction.operation.sources.foldl (read listing instruction) seeded = sources
    at hlater hcontains hread
  obtain ⟨value, hvalue⟩ := hread.ready base hunwritten hcontains
  have hfilled : (sources.fill instruction).memory.read (effectiveAddress value offset) ≠ none := by
    unfold fill
    simp only [hload, hvalue, Register.value?]
    rw [Memory.read_write, if_pos rfl]
    simp
  obtain ⟨hthere, hsame⟩ := grows_fill.registers base hcontains
  refine ⟨value, ?_, hlater.memory _ hfilled⟩
  rw [(hlater.registers base hthere).2, hsame, hvalue]

/-- Every instruction is visited on a sound state, and what the visit leaves behind stays. -/
theorem exists_visit {instructions : List Instruction} {seeded : Seeded}
    (hsound : seeded.Sound listing) (hmembers : ∀ i ∈ instructions, i ∈ listing.instructions)
    (hmember : instruction ∈ instructions) :
    ∃ before : Seeded, before.Sound listing ∧
      (before.visit listing instruction).Grows (instructions.foldl (visit listing) seeded) := by
  induction instructions generalizing seeded with
  | nil => simp at hmember
  | cons first rest ih =>
      rcases List.mem_cons.mp hmember with rfl | hrest
      · exact ⟨seeded, hsound, grows_foldl (fun _ _ _ => grows_visit) _⟩
      · exact ih (hsound.visit (hmembers first (List.mem_cons_self ..)))
          (fun i hi => hmembers i (List.mem_cons_of_mem _ hi)) hrest

theorem sound_empty : Seeded.empty.Sound listing where
  settled name producer := by simp [empty, RegisterFile.get]
  ready name _ hcontains := by
    rw [OrderedMap.contains_eq_isSome_find?] at hcontains
    simp [empty] at hcontains

end Seeded

/-! ## What runs rely on -/

variable {listing : Listing} {instruction : Instruction}

theorem Listing.sound_seeded : listing.seeded.Sound listing :=
  Seeded.Sound.foldl (fun _ _ hmember hthen => hthen.visit hmember) Seeded.sound_empty

/-- No register waits for a station before the first cycle. -/
theorem Listing.seeded_settled (name : String) (producer : Nat) :
    listing.seeded.registers.get name ≠ .pending producer :=
  listing.sound_seeded.settled name producer

/-- A register that is read, and written only by later instructions, holds a value. -/
theorem Listing.seeded_ready_before {n : Nat} {name : String}
    (hinstruction : listing.instruction? n = some instruction)
    (hname : name ∈ instruction.operation.sources)
    (hunwritten : ∀ m < n, ∀ writer, listing.instruction? m = some writer →
      writer.operation.dest? ≠ some name) :
    ∃ value, listing.seeded.registers.get name = .ready value := by
  obtain ⟨hbound, hthere⟩ := List.getElem?_eq_some_iff.mp hinstruction
  -- Up to the instruction, seeding visits a listing that does not write the register.
  let upTo : Listing := { listing with instructions := listing.instructions.take n }
  have hsound : upTo.seeded.Sound upTo := upTo.sound_seeded
  have hfirst : upTo.Unwritten name := by
    intro writer hwriter
    obtain ⟨m, hm⟩ := List.getElem?_of_mem hwriter
    have hlt := (List.getElem?_eq_some_iff.mp hm).1
    rw [List.length_take] at hlt
    rw [List.getElem?_take_of_lt (by omega)] at hm
    exact hunwritten m (by omega) writer hm
  have hread : (instruction.operation.sources.foldl (Seeded.read upTo instruction)
      upTo.seeded).Sound upTo :=
    Seeded.Sound.foldl (fun _ other _ hthen => hthen.read other) hsound
  have hcontains : (instruction.operation.sources.foldl (Seeded.read upTo instruction)
      upTo.seeded).registers.contains name = true := Seeded.contains_foldl_read hname
  obtain ⟨value, hvalue⟩ := hread.ready name hfirst hcontains
  -- What comes later changes nothing of it.
  have hseeded : listing.seeded = (listing.instructions.drop (n + 1)).foldl (Seeded.visit listing)
      (upTo.seeded.visit listing instruction) := by
    have hsplit : listing.instructions =
        listing.instructions.take n ++ instruction :: listing.instructions.drop (n + 1) := by
      rw [← hthere, List.getElem_cons_drop, List.take_append_drop]
    unfold Listing.seeded
    conv_lhs => rw [hsplit, List.foldl_append, List.foldl_cons]
    rfl
  have hvisit : (instruction.operation.sources.foldl (Seeded.read listing instruction)
      upTo.seeded).Grows (upTo.seeded.visit listing instruction) :=
    Seeded.grows_fill.trans Seeded.grows_after_fill
  have hlater : (upTo.seeded.visit listing instruction).Grows listing.seeded := by
    rw [hseeded]
    exact Seeded.grows_foldl (fun _ _ _ => Seeded.grows_visit) _
  refine ⟨value, ?_⟩
  rw [((hvisit.trans hlater).registers name hcontains).2]
  exact hvalue

/-- A register that is read and that no instruction writes holds a value. -/
theorem Listing.seeded_ready {name : String} (hmember : instruction ∈ listing.instructions)
    (hname : name ∈ instruction.operation.sources) (hunwritten : listing.Unwritten name) :
    ∃ value, listing.seeded.registers.get name = .ready value := by
  obtain ⟨n, hn⟩ := List.getElem?_of_mem hmember
  exact Listing.seeded_ready_before hn hname fun m _ writer hwriter =>
    hunwritten writer (List.mem_of_getElem? hwriter)

/-- Every register that is written is there. -/
theorem Listing.seeded_contains_dest {name : String} (hmember : instruction ∈ listing.instructions)
    (hdest : instruction.operation.dest? = some name) :
    listing.seeded.registers.contains name = true := by
  obtain ⟨before, -, hgrows⟩ := Seeded.exists_visit Seeded.sound_empty (fun _ h => h) hmember
  exact (hgrows.registers name (Seeded.contains_visit_dest hdest)).1

/-- The cell of a load whose base no instruction writes holds a value. -/
theorem Listing.seeded_filled {dest base : String} {offset : Int}
    (hmember : instruction ∈ listing.instructions)
    (hload : instruction.operation = .load dest base offset) (hunwritten : listing.Unwritten base) :
    ∃ value, listing.seeded.registers.get base = .ready value ∧
      listing.seeded.memory.read (effectiveAddress value offset) ≠ none := by
  obtain ⟨before, hsound, hgrows⟩ := Seeded.exists_visit Seeded.sound_empty (fun _ h => h) hmember
  obtain ⟨value, hvalue, hfilled⟩ := Seeded.filled_visit hsound hload hunwritten
  have hbase : base ∈ instruction.operation.sources := by
    rw [hload]
    simp [Operation.sources, Operation.operands]
  refine ⟨value, ?_, hgrows.memory _ hfilled⟩
  rw [← hvalue]
  exact (hgrows.registers base (Seeded.contains_visit hbase)).2

end Tomasulo
