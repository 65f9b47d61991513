import Tomasulo.Proofs.Seeded

/-!
# Registers that seeding overlooks

Seeding visits the instructions in the order of the text.  Without branches and jumps they are fetched section
by section, which is another order as soon as a label is opened again: what stands behind it is fetched before
all sections that stand in between.  An instruction there may come to read a register before anything has
written it, although in the text a write stands first.  Seeding leaves such a register without a value
(`Listing.Overlooks`), and the instruction waits in its station for ever.

By `starved_iff_overlooked` this is exactly what happens: the operands without a supplier are those of
overlooked registers, and there are none if the sections hold the instructions in the order of the text.  So
it is not true of all programs that every register is provided with a value in time (`not_always_provided`).
-/

namespace Tomasulo

namespace Listing

/-- The instruction at a position of the flattened sections. -/
def fetchedAt? (listing : Listing) (n : Nat) : Option Instruction :=
  listing.flat[n]?.bind listing.instruction?

/-- Whether the instruction at a position of the flattened sections writes a register. -/
def WritesAt (listing : Listing) (name : String) (n : Nat) : Prop :=
  (listing.fetchedAt? n).bind (·.operation.dest?) = some name

/-- Whether a register holds a value from the start or is written in front of a position. -/
def Provides (listing : Listing) (name : String) (n : Nat) : Prop :=
  (∃ value, listing.seeded.registers.get name = .ready value) ∨ ∃ m < n, listing.WritesAt name m

/-- Whether one code order belongs to an earlier section than another. -/
def Precedes (listing : Listing) (codeOrder other : Nat) : Prop :=
  ∃ part later : Section, [part, later].Sublist listing.sections ∧ codeOrder ∈ part.members ∧
    other ∈ later.members

/-- Whether seeding leaves a register without a value that the instruction at a position reads. -/
structure Overlooks (listing : Listing) (name : String) (n : Nat) : Prop where
  undirected : listing.initialValues.find? name = none
  /-- In the text the register is written first, but the label of the reader has been opened again. -/
  reopened : ∃ reader first, listing.flat[n]? = some reader ∧ listing.FirstMention name first ∧
    name ∉ first.operation.sources ∧ first.operation.dest? = some name ∧ first.codeOrder < reader ∧
    listing.Precedes reader first.codeOrder
  unwritten : ∀ m < n, ¬ listing.WritesAt name m

/-! ## The order of the text and the order of fetching -/

section Orders

variable {listing : Listing} {instruction first : Instruction} {name : String} {n : Nat}

/-- Of two code orders the first one fetched is the smaller one or belongs to an earlier section. -/
theorem pairwise_flat (hincreasing : ∀ part ∈ listing.sections, part.members.Pairwise (· < ·)) :
    listing.flat.Pairwise fun codeOrder other => codeOrder < other ∨ listing.Precedes codeOrder other := by
  refine List.pairwise_flatMap.mpr ⟨fun part hpart => (hincreasing part hpart).imp .inl, ?_⟩
  refine List.pairwise_iff_forall_sublist.mpr fun {part later} hsublist x hx y hy => ?_
  exact .inr ⟨part, later, hsublist, hx, hy⟩

/-- Sections that hold the instructions in the order of the text are not opened again. -/
theorem not_precedes (hordered : listing.flat.Pairwise (· < ·)) {reader writer : Nat}
    (hlt : writer < reader) : ¬ listing.Precedes reader writer := by
  rintro ⟨part, later, hsublist, hreader, hwriter⟩
  have hapart := List.pairwise_iff_forall_sublist.mp (List.pairwise_flatMap.mp hordered).2 hsublist
  exact lt_asymm hlt (hapart reader hreader writer hwriter)

theorem represents_of_read {source : String} (hread : Listing.ofSource? source = some listing) :
    ∃ lines directives, listing.Represents lines directives := by
  rw [ofSource?_eq] at hread
  obtain ⟨hnonempty, hlisting⟩ := Option.ite_none_left_eq_some.mp hread
  obtain rfl := Option.some.inj hlisting
  exact ⟨_, _, represents_listingOf _ _ hnonempty⟩

/-- A write that stands in the text before an instruction, but is not fetched before it, belongs to a later
section. -/
theorem Represents.precedes {lines : List (List Char)} {directives : List (String × Float)}
    (hlisting : listing.Represents lines directives) {reader writer : Nat}
    (hreader : listing.flat[n]? = some reader) (hwriter : listing.instruction? writer = some first)
    (hlt : writer < reader) (hdest : first.operation.dest? = some name)
    (hunwritten : ∀ m < n, ¬ listing.WritesAt name m) : listing.Precedes reader writer := by
  have hflat : writer ∈ listing.flat :=
    hlisting.complete.symm.subset (List.mem_range.mpr (List.getElem?_eq_some_iff.mp hwriter).1)
  obtain ⟨m, hm⟩ := List.getElem?_of_mem hflat
  have hle : n ≤ m := by
    by_contra hearlier
    refine hunwritten m (by omega) ?_
    rw [WritesAt, fetchedAt?, hm, Option.bind_some, hwriter, Option.bind_some, hdest]
  have hne : n ≠ m := by
    rintro rfl
    exact hlt.ne (Option.some.inj (hm.symm.trans hreader))
  obtain ⟨hboundN, hthereN⟩ := List.getElem?_eq_some_iff.mp hreader
  obtain ⟨hboundM, hthereM⟩ := List.getElem?_eq_some_iff.mp hm
  have hordered := List.pairwise_iff_getElem.mp (pairwise_flat hlisting.increasing) n m hboundN hboundM
    (by omega)
  rw [hthereN, hthereM] at hordered
  exact hordered.resolve_left (by omega)

/-- The first mention of a register that an instruction reads does not stand behind the instruction. -/
theorem FirstMention.codeOrder_le (hfirst : listing.FirstMention name first) {reader : Nat}
    (hnumbered : ∀ (codeOrder : Nat) (instruction : Instruction),
      listing.instructions[codeOrder]? = some instruction → instruction.codeOrder = codeOrder)
    (hinstruction : listing.instruction? reader = some instruction) (hmentions : instruction.Mentions name) :
    listing.instruction? first.codeOrder = some first ∧ first.codeOrder ≤ reader := by
  obtain ⟨earlier, later, hsplit, -, hearlier⟩ := hfirst
  have hthere : listing.instructions[earlier.length]? = some first := by rw [hsplit]; simp
  rw [hnumbered _ _ hthere]
  refine ⟨hthere, ?_⟩
  by_contra hlt
  rw [instruction?, hsplit, List.getElem?_append_left (by omega)] at hinstruction
  exact hearlier instruction (List.mem_of_getElem? hinstruction) hmentions

end Orders

/-! ## Overlooked registers -/

section Overlooked

variable {listing : Listing} {instruction : Instruction} {name : String} {n : Nat}

/-- A register is not provided if it starts without a value and is not written in time. -/
theorem not_provides_iff : ¬ listing.Provides name n ↔
    listing.seeded.registers.get name = .empty ∧ ∀ m < n, ¬ listing.WritesAt name m := by
  have hempty : (¬ ∃ value, listing.seeded.registers.get name = .ready value) ↔
      listing.seeded.registers.get name = .empty := by
    cases hregister : listing.seeded.registers.get name with
    | empty => simp
    | ready value => simp
    | pending station => exact absurd hregister (listing.seeded_settled name station)
  simp only [Provides, not_or, hempty, not_exists, not_and]

/-- A register that an instruction reads starts without a value if no directive gives it one and the text
writes it first. -/
theorem get_seeded_eq_empty_iff (hmember : instruction ∈ listing.instructions)
    (hname : name ∈ instruction.operation.sources) :
    listing.seeded.registers.get name = .empty ↔
      listing.initialValues.find? name = none ∧
        ∃ first, listing.FirstMention name first ∧ name ∉ first.operation.sources := by
  have hthere : name ∈ listing.seeded.registers.keys :=
    mem_keys_seeded_iff.mpr ⟨instruction, hmember, .inl hname⟩
  obtain ⟨register, hregister⟩ := Option.isSome_iff_exists.mp (OrderedMap.mem_keys_iff.mp hthere)
  rw [← listing.seeds_seeded.empty, RegisterFile.get, hregister, Option.getD_some, Option.some.injEq]

/-- The registers that are not provided are those that seeding overlooks. -/
theorem Represents.not_provides_iff_overlooks {lines : List (List Char)}
    {directives : List (String × Float)} (hlisting : listing.Represents lines directives)
    (hat : listing.fetchedAt? n = some instruction) (hname : name ∈ instruction.operation.sources) :
    ¬ listing.Provides name n ↔ listing.Overlooks name n := by
  obtain ⟨reader, hreader, hinstruction⟩ := Option.bind_eq_some_iff.mp hat
  rw [not_provides_iff, get_seeded_eq_empty_iff (List.mem_of_getElem? hinstruction) hname]
  constructor
  · rintro ⟨⟨hundirected, first, hfirst, hunread⟩, hunwritten⟩
    have hdest := hfirst.mentions.resolve_left hunread
    obtain ⟨hthere, hle⟩ := hfirst.codeOrder_le hlisting.numbered hinstruction (.inl hname)
    -- The reader is another instruction than the first one, which does not read the register.
    have hlt : first.codeOrder < reader := lt_of_le_of_ne hle fun hsame => by
      obtain rfl := Option.some.inj (hthere.symm.trans (hsame ▸ hinstruction))
      exact hunread hname
    exact ⟨hundirected, ⟨reader, first, hreader, hfirst, hunread, hdest, hlt,
      hlisting.precedes hreader hthere hlt hdest hunwritten⟩, hunwritten⟩
  · rintro ⟨hundirected, ⟨_, first, -, hfirst, hunread, -⟩, hunwritten⟩
    exact ⟨⟨hundirected, first, hfirst, hunread⟩, hunwritten⟩

theorem Overlooks.not_ordered (hoverlooks : listing.Overlooks name n) :
    ¬ listing.flat.Pairwise (· < ·) := by
  obtain ⟨reader, first, -, -, -, -, hlt, hprecedes⟩ := hoverlooks.reopened
  exact fun hordered => not_precedes hordered hlt hprecedes

end Overlooked

end Listing

/-! ## Runs without branches -/

section Runs

variable {listing : Listing} {cursor : Cursor} {name : String} {n : Nat}

/-- Without branches the instruction at a position is the one that the flattened sections have there. -/
theorem Cursor.Unsteered.instructionAt?_eq (hunsteered : cursor.Unsteered listing)
    (hbound : n < cursor.fetched) : cursor.instructionAt? listing n = listing.fetchedAt? n := by
  rw [instructionAt?, Listing.fetchedAt?, ← hunsteered.complete, List.getElem?_append_left hbound]

theorem Cursor.Unsteered.lastWriter?_eq_none_iff (hunsteered : cursor.Unsteered listing)
    (hbound : n < cursor.fetched) :
    cursor.lastWriter? listing name n = none ↔ ∀ m < n, ¬ listing.WritesAt name m := by
  refine latest?_eq_none_iff.trans (forall₂_congr fun m hm => not_congr ?_)
  rw [Cursor.Writes, Listing.WritesAt, hunsteered.instructionAt?_eq (by omega)]

/-- Without branches an instruction lacks an operand if and only if one of its registers is not provided. -/
theorem Execution.starved_iff_of_unsteered {initial frozen state : State} {journal : List Deed}
    {todo : List Task} (hnow : Execution listing initial frozen journal state todo)
    (hfresh : initial.Fresh) (hregisters : initial.registers = listing.seeded.registers)
    (hunsteered : state.cursor.Unsteered listing) {id : Nat} {slot : Slot}
    (hslot : state.stations.slot? id = some slot) :
    ∃ instruction, listing.fetchedAt? slot.seq = some instruction ∧
      slot.codeOrder = instruction.codeOrder ∧
      (slot.Starved ↔ ∃ name ∈ instruction.operation.sources, ¬ listing.Provides name slot.seq) := by
  have hbound := (hnow.lifecycle hfresh.free hfresh.delays).seq_lt hslot
  obtain ⟨instruction, hat, hcodeOrder, hstarved⟩ := hnow.starved_iff hfresh hslot
  refine ⟨instruction, (hunsteered.instructionAt?_eq hbound).symm.trans hat, hcodeOrder, hstarved.trans ?_⟩
  refine exists_congr fun name => and_congr_right fun _ => ?_
  rw [Listing.not_provides_iff, hunsteered.lastWriter?_eq_none_iff hbound, hregisters, and_comm]

end Runs

/-! ## Main statement -/

/-- In a program without branches and jumps, exactly those registers are not provided with a value in time
that seeding overlooks, and none is overlooked if the sections hold the instructions in the order of the text.
Whatever the machine, it fetches section by section, and an instruction in a station lacks an operand if and
only if one of its registers was overlooked. -/
theorem starved_iff_overlooked {source : String} {listing : Listing}
    (hread : Listing.ofSource? source = some listing)
    (huncontrolled : ∀ instruction ∈ listing.instructions, instruction.isControl = false) :
    (∀ n instruction name, listing.fetchedAt? n = some instruction → name ∈ instruction.operation.sources →
      (¬ listing.Provides name n ↔ listing.Overlooks name n)) ∧
    (listing.flat.Pairwise (· < ·) → ∀ n name, ¬ listing.Overlooks name n) ∧
    ∀ configuration : Configuration, configuration.error? = none → ∀ journal state,
      Observed listing (listing.initialState configuration.stations) journal state →
        state.cursor.executionOrder <+: listing.flat ∧
        ∀ id slot, state.stations.slot? id = some slot →
          ∃ instruction, listing.fetchedAt? slot.seq = some instruction ∧
            slot.codeOrder = instruction.codeOrder ∧
            (slot.Starved ↔
              ∃ name ∈ instruction.operation.sources, listing.Overlooks name slot.seq) := by
  obtain ⟨lines, directives, hlisting⟩ := Listing.represents_of_read hread
  refine ⟨fun n instruction name => hlisting.not_provides_iff_overlooks,
    fun hordered n name hoverlooks => hoverlooks.not_ordered hordered, ?_⟩
  intro configuration hsound journal state hobserved
  obtain ⟨frozen, todo, hnow⟩ := hobserved.execution
  have hfresh : (listing.initialState configuration.stations).Fresh := Listing.fresh_initialState hsound
  have hunsteered := hnow.unsteered hfresh rfl huncontrolled
  refine ⟨⟨_, hunsteered.complete⟩, fun id slot hslot => ?_⟩
  obtain ⟨instruction, hat, hcodeOrder, hstarved⟩ :=
    hnow.starved_iff_of_unsteered hfresh rfl hunsteered hslot
  refine ⟨instruction, hat, hcodeOrder, hstarved.trans ?_⟩
  exact exists_congr fun name => and_congr_right fun hname =>
    hlisting.not_provides_iff_overlooks hat hname

/-! ## A label that is opened again

The addition stands behind the instruction that gives `x4` a value, but in a section that is fetched before it.
-/

namespace Returning

def source : String :=
  "a:\nb: li x4, 2\na: add x5, x4, x4"

def addition : Instruction :=
  ⟨"add x5, x4, x4", "add", 1, .arithmetic .add "x5" "x4" "x4"⟩

def listing : Listing where
  instructions := [⟨"li x4, 2", "li", 0, .loadImmediate "x4" 2⟩, addition]
  sections := [⟨"a", [1]⟩, ⟨"b", [0]⟩]
  initialValues := .empty

theorem ofSource?_source : Listing.ofSource? source = some listing := by
  rfl

theorem uncontrolled : ∀ instruction ∈ listing.instructions, instruction.isControl = false := by
  decide

theorem fetchedAt?_zero : listing.fetchedAt? 0 = some addition := by
  rfl

theorem not_provides : ¬ listing.Provides "x4" 0 :=
  Listing.not_provides_iff.mpr ⟨by rfl, fun m hm => absurd hm (Nat.not_lt_zero m)⟩

/-- The default machine after the first cycle. -/
def state : State :=
  (listing.initialState ({} : Configuration).stations).afterCycles listing 1

end Returning

/-- The first adder holds the addition without its operands. -/
theorem starved_iff_overlooked_returning :
    Listing.ofSource? Returning.source = some Returning.listing ∧
      (∀ instruction ∈ Returning.listing.instructions, instruction.isControl = false) ∧
      Returning.listing.Overlooks "x4" 0 ∧ Configuration.error? {} = none ∧
      ∃ slot, Returning.state.stations.slot? 3 = some slot ∧ slot.codeOrder = 1 ∧ slot.Starved := by
  obtain ⟨hprovides, -, hruns⟩ :=
    starved_iff_overlooked Returning.ofSource?_source Returning.uncontrolled
  have hname : "x4" ∈ Returning.addition.operation.sources := by decide
  have hoverlooks := (hprovides 0 _ "x4" Returning.fetchedAt?_zero hname).mp Returning.not_provides
  have hsound : Configuration.error? {} = none := by decide
  have hseq : (Returning.state.stations.slot? 3).map Slot.seq = some 0 := by decide +kernel
  obtain ⟨slot, hslot, hzero⟩ := Option.map_eq_some_iff.mp hseq
  obtain ⟨-, hslots⟩ := hruns {} hsound _ Returning.state (.between (.afterCycles 1))
  obtain ⟨instruction, hat, hcodeOrder, hstarved⟩ := hslots 3 slot hslot
  rw [hzero] at hat hstarved
  obtain rfl := Option.some.inj (Returning.fetchedAt?_zero.symm.trans hat)
  exact ⟨Returning.ofSource?_source, Returning.uncontrolled, hoverlooks, hsound, slot, hslot, hcodeOrder,
    hstarved.mpr ⟨"x4", hname, hoverlooks⟩⟩

/-- In a program without branches a register need neither start with a value nor be written in time. -/
theorem not_always_provided :
    ¬ ∀ source listing, Listing.ofSource? source = some listing →
      (∀ instruction ∈ listing.instructions, instruction.isControl = false) →
        ∀ n instruction, listing.fetchedAt? n = some instruction →
          ∀ name ∈ instruction.operation.sources, listing.Provides name n := by
  intro halways
  exact Returning.not_provides (halways _ _ Returning.ofSource?_source Returning.uncontrolled 0 _
    Returning.fetchedAt?_zero "x4" (by decide))

end Tomasulo
