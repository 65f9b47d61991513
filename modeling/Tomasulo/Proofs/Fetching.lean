import Tomasulo.Proofs.Position
import Tomasulo.Proofs.Source

/-!
# Fetching through the flattened sections

A cursor stands in a section, but what it does can be said without sections.  The members of all sections
in their order make one list (`Listing.flat`), and a cursor is an index into it (`Cursor.index`): advancing
moves to the next index or to that at which a section starts, and the length of the list means that fetching
is exhausted.  `reachable_indexes` states this of all cursors of a listing that was read.

The reason is that what lies ahead of a cursor is what the list holds from its index on
(`Cursor.upcoming_eq_drop`), and that passing over sections without members leaves it as it is
(`Cursor.upcoming_settle`).
-/

namespace Tomasulo

namespace Listing

/-- The code orders of all sections, in the order of fetching. -/
def flat (listing : Listing) : List Nat :=
  listing.sections.flatMap Section.members

/-- How many instructions stand in the first sections. -/
def offset (listing : Listing) (count : Nat) : Nat :=
  ((listing.sections.take count).map fun part => part.members.length).sum

variable {listing : Listing}

theorem flat_eq_append (count : Nat) :
    listing.flat = (listing.sections.take count).flatMap Section.members ++
      (listing.sections.drop count).flatMap Section.members := by
  rw [← List.flatMap_append, List.take_append_drop]
  rfl

theorem length_flatMap_take (count : Nat) :
    ((listing.sections.take count).flatMap Section.members).length = listing.offset count := by
  rw [List.length_flatMap, offset]

/-- A section is found at its place if no other one has its name. -/
theorem sectionIndex?_eq (hdistinct : (listing.sections.map Section.name).Nodup)
    {before after : List Section} {part : Section} (hsplit : listing.sections = before ++ part :: after) :
    listing.sectionIndex? part.name = some before.length := by
  have hnone : before.findIdx? (·.name == part.name) = none := by
    refine List.findIdx?_eq_none_iff.mpr fun other hother => ?_
    simpa using name_ne_of_split hdistinct hsplit (List.mem_append_left _ hother)
  rw [sectionIndex?, hsplit, List.findIdx?_append, hnone]
  simp [List.findIdx?_cons]

theorem sectionIndex?_eq_none {name : String} (hunknown : name ∉ listing.sections.map Section.name) :
    listing.sectionIndex? name = none := by
  refine List.findIdx?_eq_none_iff.mpr fun part hpart => ?_
  have hne : part.name ≠ name := fun hsame => hunknown (hsame ▸ List.mem_map_of_mem hpart)
  simpa using hne

end Listing

namespace Cursor

variable {listing : Listing} {cursor : Cursor}

/-! ## What lies ahead -/

/-- Sections without members add nothing. -/
theorem flatMap_drop_findIdx (sections : List Section) :
    (sections.drop (sections.findIdx fun part => !part.members.isEmpty)).flatMap Section.members =
      sections.flatMap Section.members := by
  induction sections with
  | nil => rfl
  | cons part rest ih =>
      cases hmembers : part.members with
      | nil => simpa [List.findIdx_cons, hmembers] using ih
      | cons first others => simp [List.findIdx_cons, hmembers]

theorem upcoming_of_start {index : Nat} {executionOrder : List Nat} :
    upcoming listing ⟨index, 0, executionOrder⟩ =
      (listing.sections.drop index).flatMap Section.members := by
  unfold upcoming
  cases hdrop : listing.sections.drop index <;> simp

theorem upcoming_settle : (settle listing cursor).upcoming listing = cursor.upcoming listing := by
  unfold settle
  split
  case isFalse => rfl
  case isTrue hexhausted =>
    rw [upcoming_of_start, firstFilled, ← List.drop_drop, flatMap_drop_findIdx]
    unfold isExhausted current? at hexhausted
    unfold upcoming
    cases hpart : listing.sections[cursor.sectionIndex]? with
    | none =>
        have hbound := List.getElem?_eq_none_iff.mp hpart
        rw [List.drop_eq_nil_of_le hbound, List.drop_eq_nil_of_le (by omega)]
        rfl
    | some part =>
        obtain ⟨hbound, hthere⟩ := List.getElem?_eq_some_iff.mp hpart
        have hend : part.members.drop cursor.position = [] := by
          simpa [hpart] using hexhausted
        rw [List.drop_eq_getElem_cons hbound, hthere]
        simp [hend]

/-- A settled cursor is exhausted only if nothing lies ahead. -/
theorem upcoming_of_exhausted (hexhausted : (settle listing cursor).isExhausted listing = true) :
    (settle listing cursor).upcoming listing = [] := by
  unfold settle at hexhausted ⊢
  split at hexhausted
  case isFalse hmore => exact absurd hexhausted hmore
  case isTrue hend =>
    rw [if_pos hend, upcoming_of_start]
    unfold isExhausted current? firstFilled at hexhausted
    unfold firstFilled
    generalize cursor.sectionIndex + 1 = start at hexhausted ⊢
    rcases lt_or_ge ((listing.sections.drop start).findIdx fun part => !part.members.isEmpty)
      (listing.sections.drop start).length with hfound | hnone
    · -- A section with members was found, so there is a next instruction.
      have hfilled := List.findIdx_getElem (w := hfound)
      rw [← List.getElem?_drop, List.getElem?_eq_getElem hfound, Option.bind_some] at hexhausted
      rw [Option.isNone_iff_eq_none, List.getElem?_eq_none_iff] at hexhausted
      have hempty := List.length_eq_zero_iff.mp (Nat.le_zero.mp hexhausted)
      rw [hempty] at hfilled
      exact absurd hfilled (by simp)
    · rw [List.length_drop] at hnone
      rw [List.drop_eq_nil_of_le (by omega), List.flatMap_nil]

/-- What comes next is the first of what lies ahead. -/
theorem upcoming_of_current {codeOrder : Nat} (hcurrent : cursor.current? listing = some codeOrder)
    (executionOrder : List Nat) : cursor.upcoming listing =
      codeOrder :: upcoming listing ⟨cursor.sectionIndex, cursor.position + 1, executionOrder⟩ := by
  obtain ⟨part, hpart, hmember⟩ := Option.bind_eq_some_iff.mp hcurrent
  obtain ⟨hbound, hthere⟩ := List.getElem?_eq_some_iff.mp hpart
  obtain ⟨hbound', hthere'⟩ := List.getElem?_eq_some_iff.mp hmember
  unfold upcoming
  simp only [List.drop_eq_getElem_cons hbound, hthere, List.drop_eq_getElem_cons hbound', hthere',
    List.cons_append]

/-! ## Moves -/

section Moves

variable {codeOrder : Nat} {label : Option String}

/-- Without a known label the next member is moved to. -/
theorem advance_through (hcurrent : cursor.current? listing = some codeOrder)
    (hlabel : label.bind listing.sectionIndex? = none) : cursor.advance listing label =
      settle listing
        ⟨cursor.sectionIndex, cursor.position + 1, cursor.executionOrder ++ [codeOrder]⟩ := by
  rw [advance, hcurrent, hlabel]

theorem advance_to (hcurrent : cursor.current? listing = some codeOrder) {target : Nat}
    (hlabel : label.bind listing.sectionIndex? = some target) : cursor.advance listing label =
      settle listing ⟨target, 0, cursor.executionOrder ++ [codeOrder]⟩ := by
  rw [advance, hcurrent, hlabel]

theorem advance_of_exhausted (hcurrent : cursor.current? listing = none) :
    cursor.advance listing label = cursor := by
  rw [advance, hcurrent]

/-- Going on takes the first of what lies ahead away. -/
theorem upcoming_advance (hcurrent : cursor.current? listing = some codeOrder) :
    cursor.upcoming listing = codeOrder :: (cursor.advance listing none).upcoming listing := by
  rw [advance_through hcurrent rfl, upcoming_settle, upcoming_of_current hcurrent]

end Moves

/-! ## Indices -/

/-- The index of a cursor in the flattened sections. -/
def index (listing : Listing) (cursor : Cursor) : Nat :=
  listing.offset cursor.sectionIndex + cursor.position

/-- Whether a cursor stands in its section or right behind it. -/
def Within (listing : Listing) (cursor : Cursor) : Prop :=
  cursor.position ≤ (listing.sections[cursor.sectionIndex]?).elim 0 fun part => part.members.length

/-- Whether a cursor stands within its section, and behind it only if nothing lies ahead. -/
structure Settled (listing : Listing) (cursor : Cursor) : Prop where
  within : cursor.Within listing
  ended : cursor.isExhausted listing = true → cursor.upcoming listing = []

/-- As many code orders as the index says stand before what lies ahead. -/
theorem flat_eq_append (hwithin : cursor.Within listing) :
    ∃ passed, listing.flat = passed ++ cursor.upcoming listing ∧ passed.length = cursor.index listing := by
  rw [Listing.flat_eq_append cursor.sectionIndex, index, ← Listing.length_flatMap_take]
  generalize (listing.sections.take cursor.sectionIndex).flatMap Section.members = earlier
  unfold Within at hwithin
  unfold upcoming
  cases hpart : listing.sections[cursor.sectionIndex]? with
  | none =>
      rw [hpart] at hwithin
      rw [List.drop_eq_nil_of_le (List.getElem?_eq_none_iff.mp hpart)]
      exact ⟨earlier, by simp, by simpa using hwithin⟩
  | some part =>
      obtain ⟨hbound, hthere⟩ := List.getElem?_eq_some_iff.mp hpart
      rw [hpart, Option.elim_some] at hwithin
      rw [List.drop_eq_getElem_cons hbound, hthere, List.flatMap_cons]
      refine ⟨earlier ++ part.members.take cursor.position, ?_, ?_⟩
      · rw [List.append_assoc, ← List.append_assoc (part.members.take _), List.take_append_drop]
      · rw [List.length_append, List.length_take_of_le hwithin]

theorem index_le (hwithin : cursor.Within listing) : cursor.index listing ≤ listing.flat.length := by
  obtain ⟨passed, hsplit, hlength⟩ := flat_eq_append hwithin
  rw [hsplit, List.length_append, hlength]
  exact Nat.le_add_right ..

/-- What lies ahead is what the flattened sections hold from the index on. -/
theorem upcoming_eq_drop (hwithin : cursor.Within listing) :
    cursor.upcoming listing = listing.flat.drop (cursor.index listing) := by
  obtain ⟨passed, hsplit, hlength⟩ := flat_eq_append hwithin
  rw [hsplit, ← hlength, List.drop_left]

/-- Two cursors ahead of which the same lies have the same index. -/
theorem index_eq_of_upcoming {other : Cursor} (hwithin : cursor.Within listing)
    (hwithin' : other.Within listing) (hsame : cursor.upcoming listing = other.upcoming listing) :
    cursor.index listing = other.index listing := by
  have hlength := congrArg List.length hsame
  rw [upcoming_eq_drop hwithin, upcoming_eq_drop hwithin', List.length_drop, List.length_drop] at hlength
  have hle := index_le hwithin
  have hle' := index_le hwithin'
  omega

/-- The next code order is that at the index. -/
theorem Settled.current?_eq (hsettled : cursor.Settled listing) :
    cursor.current? listing = listing.flat[cursor.index listing]? := by
  rw [← List.head?_drop, ← upcoming_eq_drop hsettled.within]
  cases hcurrent : cursor.current? listing with
  | none => rw [hsettled.ended (by rw [isExhausted, hcurrent]; rfl), List.head?_nil]
  | some codeOrder => rw [upcoming_of_current hcurrent [], List.head?_cons]

/-! ## Settling -/

theorem within_of_start (sectionIndex : Nat) (executionOrder : List Nat) :
    Within listing ⟨sectionIndex, 0, executionOrder⟩ :=
  Nat.zero_le _

theorem settled_settle (hwithin : cursor.Within listing) : (settle listing cursor).Settled listing where
  within := by
    unfold settle
    split
    · exact within_of_start ..
    · exact hwithin
  ended := upcoming_of_exhausted

theorem index_settle (hwithin : cursor.Within listing) :
    (settle listing cursor).index listing = cursor.index listing :=
  index_eq_of_upcoming (settled_settle hwithin).within hwithin upcoming_settle

section Advance

variable {codeOrder : Nat} {label : Option String}

theorem within_of_current (hcurrent : cursor.current? listing = some codeOrder)
    (executionOrder : List Nat) :
    Within listing ⟨cursor.sectionIndex, cursor.position + 1, executionOrder⟩ := by
  obtain ⟨part, hpart, hmember⟩ := Option.bind_eq_some_iff.mp hcurrent
  unfold Within
  rw [hpart]
  exact (List.getElem?_eq_some_iff.mp hmember).1

/-- Every move ends on a settled cursor. -/
theorem Settled.advance (hsettled : cursor.Settled listing) (label : Option String) :
    (cursor.advance listing label).Settled listing := by
  cases hcurrent : cursor.current? listing with
  | none => rwa [advance_of_exhausted hcurrent]
  | some codeOrder =>
      cases hlabel : label.bind listing.sectionIndex? with
      | none =>
          rw [advance_through hcurrent hlabel]
          exact settled_settle (within_of_current hcurrent _)
      | some target =>
          rw [advance_to hcurrent hlabel]
          exact settled_settle (within_of_start ..)

theorem index_advance_through (hcurrent : cursor.current? listing = some codeOrder)
    (hlabel : label.bind listing.sectionIndex? = none) :
    (cursor.advance listing label).index listing = cursor.index listing + 1 := by
  rw [advance_through hcurrent hlabel, index_settle (within_of_current hcurrent _)]
  rfl

theorem index_advance_to (hcurrent : cursor.current? listing = some codeOrder) {target : Nat}
    (hlabel : label.bind listing.sectionIndex? = some target) :
    (cursor.advance listing label).index listing = listing.offset target := by
  rw [advance_to hcurrent hlabel, index_settle (within_of_start ..)]
  rfl

end Advance

/-! ## All cursors of a listing -/

/-- Whether a cursor comes from the start by advancing. -/
inductive Reachable (listing : Listing) : Cursor → Prop
  | start : Reachable listing (start listing)
  | advance {cursor : Cursor} (label : Option String) (hbefore : Reachable listing cursor) :
      Reachable listing (cursor.advance listing label)

theorem settled_start : (start listing).Settled listing :=
  settled_settle (within_of_start ..)

theorem Reachable.settled (hreachable : cursor.Reachable listing) : cursor.Settled listing := by
  induction hreachable with
  | start => exact settled_start
  | advance label _ ih => exact ih.advance label

/-- What a cursor does, said of its index in the flattened sections. -/
structure Indexes (listing : Listing) (cursor : Cursor) : Prop where
  bounded : cursor.index listing ≤ listing.flat.length
  /-- The instruction with the code order at the index comes next. -/
  next : ∀ codeOrder, listing.flat[cursor.index listing]? = some codeOrder →
    ∃ instruction, cursor.next? listing = some instruction ∧
      listing.instruction? codeOrder = some instruction ∧ instruction.codeOrder = codeOrder
  ended : cursor.next? listing = none ↔ cursor.index listing = listing.flat.length
  /-- Without a label that names a section, advancing moves to the next index. -/
  through : cursor.index listing < listing.flat.length → ∀ label : Option String,
    (∀ name, label = some name → name ∉ listing.sections.map Section.name) →
      (cursor.advance listing label).index listing = cursor.index listing + 1
  /-- The label of a section leads behind all sections before it. -/
  target : cursor.index listing < listing.flat.length →
    ∀ before part after, listing.sections = before ++ part :: after →
      (cursor.advance listing (some part.name)).index listing =
        (before.map fun earlier => earlier.members.length).sum
  recorded : ∀ codeOrder label, listing.flat[cursor.index listing]? = some codeOrder →
    (cursor.advance listing label).executionOrder = cursor.executionOrder ++ [codeOrder] ∧
      (cursor.advance listing label).fetched = cursor.fetched + 1
  fetched : cursor.fetched = cursor.executionOrder.length
  /-- Behind the last index nothing changes any more. -/
  rest : cursor.index listing = listing.flat.length → ∀ label, cursor.advance listing label = cursor

theorem Settled.indexes (hsettled : cursor.Settled listing) (hwellFormed : listing.WellFormed)
    (hdistinct : (listing.sections.map Section.name).Nodup) : cursor.Indexes listing := by
  have hcurrent := hsettled.current?_eq
  have hbounded := index_le hsettled.within
  have hsome (hlt : cursor.index listing < listing.flat.length) :
      cursor.current? listing = some listing.flat[cursor.index listing] := by
    rw [hcurrent, List.getElem?_eq_getElem hlt]
  have hnone : cursor.current? listing = none ↔ cursor.index listing = listing.flat.length := by
    rw [hcurrent, List.getElem?_eq_none_iff]
    omega
  exact
    { bounded := hbounded
      next := fun codeOrder hthere => by
        obtain ⟨instruction, hinstruction⟩ := hwellFormed.closed.exists_instruction (hcurrent.trans hthere)
        refine ⟨instruction, ?_, hinstruction, hwellFormed.codeOrder_eq hinstruction⟩
        rw [next?, hcurrent, hthere, Option.bind_some, hinstruction]
      ended := by
        rw [hwellFormed.closed.next?_eq_none_iff, isExhausted, Option.isNone_iff_eq_none, hnone]
      through := fun hlt label hunknown => by
        refine index_advance_through (hsome hlt) (Option.bind_eq_none_iff.mpr fun name hname => ?_)
        exact Listing.sectionIndex?_eq_none (hunknown name hname)
      target := fun hlt before part after hsplit => by
        have hlabel : (some part.name).bind listing.sectionIndex? = some before.length :=
          Listing.sectionIndex?_eq hdistinct hsplit
        rw [index_advance_to (hsome hlt) hlabel, Listing.offset, hsplit, List.take_left]
      recorded := fun codeOrder label hthere => by
        have horder := executionOrder_advance (hcurrent.trans hthere) label
        refine ⟨horder, ?_⟩
        rw [Cursor.fetched, horder, List.length_append]
        rfl
      fetched := rfl
      rest := fun hend label => advance_of_exhausted (hnone.mpr hend) }

end Cursor

/-- Over a listing that was read, the cursor at the start has the first index of the flattened sections,
and every cursor that comes of advancing moves through them by its index. -/
theorem reachable_indexes {source : String} {listing : Listing}
    (hread : Listing.ofSource? source = some listing) :
    (Cursor.start listing).index listing = 0 ∧ (Cursor.start listing).fetched = 0 ∧
      ∀ cursor, Cursor.Reachable listing cursor → cursor.Indexes listing := by
  refine ⟨?_, Cursor.fetched_start, fun cursor hreachable => ?_⟩
  · rw [Cursor.start, Cursor.index_settle (Cursor.within_of_start ..)]
    rfl
  · exact hreachable.settled.indexes (Listing.wellFormed_ofSource? hread)
      (Listing.nodup_names_ofSource? hread)

namespace Gaps

/-- A program with empty sections at the front, in the middle and at the end, and one that is reopened. -/
def source : String :=
  "front:\nloop: addi x1,x1,1\nblt x1,x2,middle\nmiddle:\nback: j loop\nloop: add x3,x1,x2\nend:"

def listing : Listing where
  instructions :=
    [⟨"addi x1,x1,1", "addi", 0, .arithmeticImmediate .add "x1" "x1" 1⟩,
      ⟨"blt x1,x2,middle", "blt", 1, .branch .lessThan "x1" "x2" "middle"⟩,
      ⟨"j loop", "j", 2, .jump "loop"⟩,
      ⟨"add x3,x1,x2", "add", 3, .arithmetic .add "x3" "x1" "x2"⟩]
  sections := [⟨"front", []⟩, ⟨"loop", [0, 1, 3]⟩, ⟨"middle", []⟩, ⟨"back", [2]⟩, ⟨"end", []⟩]
  initialValues := .empty

theorem ofSource?_source : Listing.ofSource? source = some listing := by
  rfl

/-- The cursor behind a branch that is taken to the empty section. -/
def taken : Cursor :=
  ((Cursor.start listing).advance listing none).advance listing (some "middle")

theorem reachable_taken : Cursor.Reachable listing taken :=
  .advance _ (.advance _ .start)

end Gaps

theorem reachable_indexes_gaps :
    Listing.ofSource? Gaps.source = some Gaps.listing ∧ Gaps.listing.flat = [0, 1, 3, 2] ∧
      (Cursor.start Gaps.listing).index Gaps.listing = 0 ∧
      Gaps.taken.index Gaps.listing = 3 ∧ Gaps.taken.Indexes Gaps.listing := by
  obtain ⟨hstart, -, hindexes⟩ := reachable_indexes Gaps.ofSource?_source
  exact ⟨Gaps.ofSource?_source, rfl, hstart, rfl, hindexes _ Gaps.reachable_taken⟩

end Tomasulo
