import Tomasulo.Listing.Document
import Tomasulo.Proofs.WellFormed

/-!
# What a source reads as

A source is read in one pass that carries the present section and the next code order along.  This module
says what comes of the pass without it:

* a line belongs to the section named by the last label at or before it (`Assembly.sectionAt`), and to the
  implicit section if there is none;
* the instruction with a code order is the statement of that line which holds it, counted among the lines
  that hold a statement (`Assembly.statementLines`);
* sections stand in the order in which their names first appear (`Assembly.Appears`).

`Listing.Represents` puts this together, and `ofSource?_represents` shows it of every listing that is read.
Lines are those of `Assembly.codeLines`: a line of which nothing is left besides blanks and a comment is
blank and does not count.
-/

namespace Tomasulo

namespace Assembly

/-- The label of a code line. -/
def label? (line : List Char) : Option String :=
  (splitLabel line).1

/-- What stands on a code line besides the label. -/
def body (line : List Char) : List Char :=
  (splitLabel line).2

/-- The last label at or before a line. -/
def lastLabel? (lines : List (List Char)) (n : Nat) : Option String :=
  ((lines.take (n + 1)).filterMap label?).getLast?

/-- The section that a line belongs to. -/
def sectionAt (lines : List (List Char)) (n : Nat) : String :=
  (lastLabel? lines n).getD implicitSection

/-- The statement on a line. -/
def statementAt? (lines : List (List Char)) (n : Nat) : Option Statement :=
  lines[n]?.bind fun line => statement? (body line)

/-- The lines that hold a statement. -/
def statementLines (lines : List (List Char)) : List Nat :=
  (List.range lines.length).filter fun n => (statementAt? lines n).isSome

/-- Whether the name of a section appears at a line: as its label, or because the first line has none. -/
def Appears (lines : List (List Char)) (name : String) (n : Nat) : Prop :=
  ∃ line, lines[n]? = some line ∧
    (label? line = some name ∨ n = 0 ∧ label? line = none ∧ name = implicitSection)

end Assembly

open Assembly

/-- Whether a listing is what lines of code and directives say. -/
structure Listing.Represents (lines : List (List Char)) (directives : List (String × Float))
    (listing : Listing) : Prop where
  nonempty : listing.instructions ≠ []
  numbered : ∀ (codeOrder : Nat) (instruction : Instruction),
    listing.instructions[codeOrder]? = some instruction → instruction.codeOrder = codeOrder
  /-- There are as many instructions as lines that hold a statement. -/
  length : listing.instructions.length = (statementLines lines).length
  /-- Each instruction is the statement of its line and belongs to the section of the line. -/
  placed : ∀ codeOrder n : Nat, (statementLines lines)[codeOrder]? = some n →
    ∃ line statement instruction, lines[n]? = some line ∧ statement? (body line) = some statement ∧
      listing.instructions[codeOrder]? = some instruction ∧
      instruction.line = String.ofList (body line) ∧ instruction.mnemonic = statement.mnemonic ∧
      instruction.operation = statement.operation ∧
      codeOrder ∈ listing.members (sectionAt lines n)
  distinct : (listing.sections.map Section.name).Nodup
  /-- The table of the sections has exactly their names as keys. -/
  keys : ∀ name, listing.sectionTable.contains name = true ↔ name ∈ listing.sections.map Section.name
  lookup : ∀ part ∈ listing.sections, listing.members part.name = part.members ∧
    listing.sectionTable.find? part.name = some part.members
  increasing : ∀ part ∈ listing.sections, part.members.Pairwise (· < ·)
  /-- The sections together hold every code order once. -/
  complete :
    (listing.sections.flatMap Section.members).Perm (List.range listing.instructions.length)
  appears : ∀ name, name ∈ listing.sections.map Section.name ↔ ∃ n, Appears lines name n
  /-- A section stands before another if its name appears before the first appearance of the other. -/
  ordered : (listing.sections.map Section.name).Pairwise fun earlier later =>
    ∃ n, Appears lines earlier n ∧ ∀ m, Appears lines later m → n < m
  implicitFirst : (listing.sections.map Section.name).head? = some implicitSection ↔
    ∃ line, lines.head? = some line ∧ (label? line = none ∨ label? line = some implicitSection)
  /-- The last directive for a name counts. -/
  initialValues : ∀ name, listing.initialValues.find? name =
    ((directives.filter (·.1 == name)).getLast?).map Prod.snd

/-! ## Lists -/

section Lists

variable {α β : Type}

/-- A chosen list is read through the places that were chosen. -/
theorem getElem?_filterMap (f : α → Option β) (entries : List α) (k : Nat) :
    (entries.filterMap f)[k]? = (entries.filter fun x => (f x).isSome)[k]?.bind f := by
  induction entries generalizing k with
  | nil => rfl
  | cons x rest ih =>
      cases hx : f x with
      | none => simp [hx, ih]
      | some y => cases k <;> simp [hx, ih]

/-- Choosing from a list is choosing from its places. -/
theorem filterMap_range (f : α → Option β) (entries : List α) :
    (List.range entries.length).filterMap (fun n => entries[n]?.bind f) = entries.filterMap f := by
  have hplaces : (List.range entries.length).map (fun n => entries[n]?) = entries.map some := by
    refine List.ext_getElem? fun n => ?_
    rcases lt_or_ge n entries.length with hlt | hge
    · simp [hlt]
    · simp [hge]
  have hbind := congrArg (List.filterMap (·.bind f)) hplaces
  simpa [List.filterMap_map, Function.comp_def] using hbind

/-- Whether `x` stands in a list before the first `y`. -/
def StandsBefore (entries : List α) (x y : α) : Prop :=
  ∃ before after, entries = before ++ x :: after ∧ y ∉ x :: before

/-- Dropping repetitions leaves the order of first occurrences. -/
theorem pairwise_standsBefore_eraseDups [BEq α] [LawfulBEq α] (entries : List α) :
    entries.eraseDups.Pairwise (StandsBefore entries) := by
  induction hlength : entries.length using Nat.strong_induction_on generalizing entries with
  | _ length ih =>
      cases entries with
      | nil => simp
      | cons x rest =>
          rw [List.eraseDups_cons, List.pairwise_cons]
          have hshorter : (rest.filter fun y => !y == x).length < length := by
            rw [← hlength]
            exact Nat.lt_succ_of_le (List.length_filter_le _ _)
          refine ⟨fun y hy => ?_, ?_⟩
          · have hne : y ≠ x := by
              simpa using (List.mem_filter.mp (List.mem_eraseDups.mp hy)).2
            exact ⟨[], rest, rfl, by simpa using hne⟩
          · refine (ih _ hshorter _ rfl).imp_of_mem fun {y z} hy hz hbefore => ?_
            have hne : z ≠ x := by
              simpa using (List.mem_filter.mp (List.mem_eraseDups.mp hz)).2
            -- What was filtered out is `x` alone, so `z` is in front of `y` neither before nor after.
            obtain ⟨before, after, hsplit, hnone⟩ := hbefore
            obtain ⟨front, back, rfl, hfront, hback⟩ := List.filter_eq_append_iff.mp hsplit
            obtain ⟨gap, tail, rfl, hgap, -, -⟩ := List.filter_eq_cons_iff.mp hback
            refine ⟨x :: front ++ gap, tail, by simp, ?_⟩
            rw [List.mem_cons, not_or] at hnone ⊢
            refine ⟨hnone.1, ?_⟩
            simp only [List.cons_append, List.mem_cons, List.mem_append, not_or]
            refine ⟨hne, fun hmem => hnone.2 ?_, fun hmem => hgap z hmem (by simpa using hne)⟩
            rw [← hfront]
            exact List.mem_filter.mpr ⟨hmem, by simpa using hne⟩

theorem nodup_eraseDups [BEq α] [LawfulBEq α] (entries : List α) : entries.eraseDups.Nodup :=
  (pairwise_standsBefore_eraseDups entries).imp fun ⟨_, _, _, hnone⟩ hsame =>
    hnone (hsame ▸ List.mem_cons_self ..)

theorem OrderedMap.find?_foldl_insert {κ : Type} {cmp : κ → κ → Ordering} [Std.TransCmp cmp]
    [Std.LawfulEqCmp cmp] [BEq κ] [LawfulBEq κ] (entries : List (κ × β)) (map : OrderedMap κ β cmp)
    (key : κ) :
    (entries.foldl (fun map entry => map.insert entry.1 entry.2) map).find? key =
      (((entries.filter (·.1 == key)).getLast?).map Prod.snd).or (map.find? key) := by
  induction entries generalizing map with
  | nil => simp
  | cons entry rest ih =>
      rw [List.foldl_cons, ih, OrderedMap.find?_insert]
      by_cases hsame : entry.1 = key
      · subst hsame
        rw [if_pos Std.ReflCmp.compare_self, List.filter_cons_of_pos (by simp), List.getLast?_cons]
        cases (rest.filter (·.1 == entry.1)).getLast? <;> simp
      · rw [if_neg fun hequal => hsame (Std.LawfulEqCmp.eq_of_compare hequal).symm,
          List.filter_cons_of_neg (by simpa using hsame)]

/-- In a map that is made of a list the last entry for a key counts. -/
theorem OrderedMap.find?_ofList {κ : Type} {cmp : κ → κ → Ordering} [Std.TransCmp cmp]
    [Std.LawfulEqCmp cmp] [BEq κ] [LawfulBEq κ] (entries : List (κ × β)) (key : κ) :
    (ofList entries : OrderedMap κ β cmp).find? key =
      ((entries.filter (·.1 == key)).getLast?).map Prod.snd := by
  rw [ofList, find?_foldl_insert, find?_empty, Option.or_none]

end Lists

/-! ## Lines -/

namespace Assembly

variable (lines : List (List Char)) (n : Nat)

theorem lastLabel?_cons_zero (line : List Char) : lastLabel? (line :: lines) 0 = label? line := by
  cases hlabel : label? line <;> simp [lastLabel?, hlabel]

theorem lastLabel?_cons_succ (line : List Char) :
    lastLabel? (line :: lines) (n + 1) = (lastLabel? lines n).or (label? line) := by
  unfold lastLabel?
  rw [List.take_succ_cons, List.filterMap_cons]
  cases hlabel : label? line with
  | none => simp
  | some name =>
      rw [List.getLast?_cons]
      cases ((lines.take (n + 1)).filterMap label?).getLast? <;> rfl

/-- The running section is that of the last label, or the one that was running at first. -/
theorem getElem?_place (current : String) :
    (place current lines)[n]? =
      lines[n]?.map fun line => ⟨(lastLabel? lines n).getD current, body line⟩ := by
  induction lines generalizing current n with
  | nil => rfl
  | cons line rest ih =>
      cases n with
      | zero => rw [lastLabel?_cons_zero]; rfl
      | succ n =>
          rw [lastLabel?_cons_succ, List.getElem?_cons_succ, place]
          show (place ((label? line).getD current) rest)[n]? = _
          rw [ih]
          cases lastLabel? rest n <;> rfl

theorem length_place (current : String) : (place current lines).length = lines.length := by
  induction lines generalizing current with
  | nil => rfl
  | cons line rest ih => simp [place, ih]

/-- The lines under the sections that they belong to. -/
def placed : List Placed :=
  place implicitSection lines

theorem getElem?_placed :
    (placed lines)[n]? = lines[n]?.map fun line => ⟨sectionAt lines n, body line⟩ :=
  getElem?_place lines n implicitSection

theorem length_placed : (placed lines).length = lines.length :=
  length_place lines implicitSection

/-! ## Instructions -/

/-- The placed lines that hold a statement, each with its statement. -/
def statements (entries : List Placed) : List (Placed × Statement) :=
  entries.filterMap fun entry => (statement? entry.body).map (entry, ·)

/-- The instruction that a placed statement makes. -/
def instructionOf (codeOrder : Nat) (entry : Placed × Statement) : Instruction where
  line := String.ofList entry.1.body
  mnemonic := entry.2.mnemonic
  codeOrder
  operation := entry.2.operation

theorem number_eq_mapIdx (entries : List Placed) (first : Nat) :
    number first entries = (statements entries).mapIdx fun k entry =>
      (entry.1.sectionName, instructionOf (first + k) entry) := by
  induction entries generalizing first with
  | nil => rfl
  | cons entry rest ih =>
      unfold number
      cases hstatement : statement? entry.body with
      | none =>
          have hskip : statements (entry :: rest) = statements rest := by
            simp [statements, hstatement]
          simp only [hskip, ih]
      | some statement =>
          have hkeep : statements (entry :: rest) = (entry, statement) :: statements rest := by
            simp [statements, hstatement]
          simp only [hkeep, List.mapIdx_cons, ih, Nat.add_assoc, Nat.add_comm 1]
          rfl

/-- The instructions of the lines, each with the section that it belongs to. -/
def numbered : List (String × Instruction) :=
  number 0 (placed lines)

/-- The statement on a line, with the section and the body of the line. -/
def placedAt? : Option (Placed × Statement) :=
  (placed lines)[n]?.bind fun entry => (statement? entry.body).map (entry, ·)

theorem placedAt?_eq :
    placedAt? lines n = lines[n]?.bind fun line =>
      (statement? (body line)).map (⟨sectionAt lines n, body line⟩, ·) := by
  rw [placedAt?, getElem?_placed]
  cases lines[n]? <;> rfl

theorem isSome_placedAt? : (placedAt? lines n).isSome = (statementAt? lines n).isSome := by
  rw [placedAt?_eq, statementAt?]
  cases lines[n]? with
  | none => rfl
  | some line => simp

theorem statements_placed : statements (placed lines) =
    (List.range lines.length).filterMap (placedAt? lines) := by
  rw [← length_placed lines]
  exact (filterMap_range _ _).symm

theorem filter_isSome_placedAt? :
    (List.range lines.length).filter (fun n => (placedAt? lines n).isSome) = statementLines lines :=
  List.filter_congr fun n _ => isSome_placedAt? lines n

theorem length_numbered : (numbered lines).length = (statementLines lines).length := by
  rw [numbered, number_eq_mapIdx, List.length_mapIdx, statements_placed,
    List.length_filterMap_eq_countP, List.countP_eq_length_filter, filter_isSome_placedAt?]

/-- The instruction with a code order, read through the line that holds it. -/
theorem getElem?_numbered (codeOrder : Nat) :
    (numbered lines)[codeOrder]? = ((statementLines lines)[codeOrder]?.bind (placedAt? lines)).map
      fun entry => (entry.1.sectionName, instructionOf codeOrder entry) := by
  rw [numbered, number_eq_mapIdx, List.getElem?_mapIdx, statements_placed, getElem?_filterMap,
    filter_isSome_placedAt?, Nat.zero_add]

variable {lines} {codeOrder : Nat} {entry : String × Instruction}

theorem codeOrder_of_numbered (hentry : (numbered lines)[codeOrder]? = some entry) :
    entry.2.codeOrder = codeOrder := by
  rw [getElem?_numbered] at hentry
  obtain ⟨_, -, rfl⟩ := Option.map_eq_some_iff.mp hentry
  rfl

theorem exists_of_statementLines {n : Nat} (hline : (statementLines lines)[codeOrder]? = some n) :
    ∃ line statement, lines[n]? = some line ∧ statement? (body line) = some statement ∧
      (numbered lines)[codeOrder]? = some (sectionAt lines n,
        instructionOf codeOrder (⟨sectionAt lines n, body line⟩, statement)) := by
  have hsome := (List.mem_filter.mp (List.mem_of_getElem? hline)).2
  obtain ⟨statement, hstatement⟩ := Option.isSome_iff_exists.mp hsome
  obtain ⟨line, hthere, hbody⟩ := Option.bind_eq_some_iff.mp hstatement
  refine ⟨line, statement, hthere, hbody, ?_⟩
  rw [getElem?_numbered, hline, Option.bind_some, placedAt?_eq, hthere, Option.bind_some, hbody]
  rfl

/-! ## Sections -/

/-- The code orders of the instructions under a name. -/
def membersOf (lines : List (List Char)) (name : String) : List Nat :=
  ((numbered lines).filter (·.1 == name)).map (·.2.codeOrder)

theorem mem_membersOf_iff {name : String} :
    codeOrder ∈ membersOf lines name ↔
      ∃ instruction, (numbered lines)[codeOrder]? = some (name, instruction) := by
  unfold membersOf
  rw [List.mem_map]
  constructor
  · rintro ⟨entry, hentry, rfl⟩
    obtain ⟨hmem, hname⟩ := List.mem_filter.mp hentry
    obtain ⟨k, hk⟩ := List.mem_iff_getElem?.mp hmem
    refine ⟨entry.2, ?_⟩
    rw [codeOrder_of_numbered hk, hk, ← beq_iff_eq.mp hname]
  · rintro ⟨instruction, hentry⟩
    exact ⟨_, List.mem_filter.mpr ⟨List.mem_of_getElem? hentry, by simp⟩,
      codeOrder_of_numbered hentry⟩

theorem pairwise_membersOf (lines : List (List Char)) (name : String) :
    (membersOf lines name).Pairwise (· < ·) := by
  have hsorted : ((numbered lines).map (·.2.codeOrder)).Pairwise (· < ·) := by
    rw [numbered, codeOrders_number]
    exact List.pairwise_lt_range'
  exact hsorted.sublist (List.filter_sublist.map _)

/-- The names of sections, line by line. -/
def sectionNames (lines : List (List Char)) : List String :=
  (placed lines).map Placed.sectionName

theorem getElem?_sectionNames (lines : List (List Char)) (n : Nat) :
    (sectionNames lines)[n]? = if n < lines.length then some (sectionAt lines n) else none := by
  rw [sectionNames, List.getElem?_map, getElem?_placed]
  split
  case isTrue hlt => simp [hlt]
  case isFalse hge => simp [List.getElem?_eq_none (Nat.le_of_not_lt hge)]

theorem mem_sectionNames_of_numbered (hentry : (numbered lines)[codeOrder]? = some entry) :
    entry.1 ∈ sectionNames lines := by
  rw [getElem?_numbered] at hentry
  obtain ⟨placed, hplaced, rfl⟩ := Option.map_eq_some_iff.mp hentry
  obtain ⟨n, -, hthere⟩ := Option.bind_eq_some_iff.mp hplaced
  obtain ⟨found, hfound, hstatement⟩ := Option.bind_eq_some_iff.mp hthere
  obtain ⟨_, -, rfl⟩ := Option.map_eq_some_iff.mp hstatement
  exact List.mem_map_of_mem (List.mem_of_getElem? hfound)

/-- The members of all sections are all code orders, each once. -/
theorem perm_flatMap_membersOf (lines : List (List Char)) :
    ((sectionNames lines).eraseDups.flatMap (membersOf lines)).Perm
      (List.range (numbered lines).length) := by
  refine (List.perm_ext_iff_of_nodup (List.nodup_flatMap.mpr ⟨fun name _ => ?_, ?_⟩)
    List.nodup_range).mpr fun codeOrder => ?_
  · exact (pairwise_membersOf lines name).imp Nat.ne_of_lt
  -- An instruction belongs to one section only.
  · refine (nodup_eraseDups _).imp fun {name other} hne codeOrder hname hother => hne ?_
    obtain ⟨_, hentry⟩ := mem_membersOf_iff.mp hname
    obtain ⟨_, hentry'⟩ := mem_membersOf_iff.mp hother
    exact congrArg Prod.fst (Option.some.inj (hentry.symm.trans hentry'))
  · rw [List.mem_flatMap, List.mem_range]
    constructor
    · rintro ⟨name, -, hmember⟩
      obtain ⟨_, hentry⟩ := mem_membersOf_iff.mp hmember
      exact (List.getElem?_eq_some_iff.mp hentry).1
    · intro hlt
      have hentry := List.getElem?_eq_getElem hlt
      exact ⟨_, List.mem_eraseDups.mpr (mem_sectionNames_of_numbered hentry),
        mem_membersOf_iff.mpr ⟨_, hentry⟩⟩

/-! ## Appearances -/

theorem lastLabel?_eq {n : Nat} {line : List Char} (hline : lines[n]? = some line) :
    lastLabel? lines n = (label? line).or ((lines.take n).filterMap label?).getLast? := by
  rw [lastLabel?, List.take_add_one, hline, Option.toList_some, List.filterMap_append,
    List.getLast?_append]
  cases hlabel : label? line <;> simp [hlabel]

theorem sectionAt_of_appears {name : String} {n : Nat} (happears : Appears lines name n) :
    n < lines.length ∧ sectionAt lines n = name := by
  obtain ⟨line, hline, hname⟩ := happears
  refine ⟨(List.getElem?_eq_some_iff.mp hline).1, ?_⟩
  rw [sectionAt, lastLabel?_eq hline]
  rcases hname with hlabel | ⟨rfl, hlabel, rfl⟩
  · rw [hlabel, Option.some_or, Option.getD_some]
  · simp [hlabel]

/-- The name of a line's section has appeared by then. -/
theorem exists_appears {n : Nat} (hbound : n < lines.length) :
    ∃ m ≤ n, Appears lines (sectionAt lines n) m := by
  induction n with
  | zero =>
      have hline := List.getElem?_eq_getElem hbound
      refine ⟨0, le_rfl, _, hline, ?_⟩
      rw [sectionAt, lastLabel?_eq hline]
      cases hlabel : label? lines[0] with
      | none => exact .inr ⟨rfl, rfl, rfl⟩
      | some name => exact .inl rfl
  | succ n ih =>
      have hline := List.getElem?_eq_getElem hbound
      cases hlabel : label? lines[n + 1] with
      | none =>
          have hsame : sectionAt lines (n + 1) = sectionAt lines n := by
            rw [sectionAt, lastLabel?_eq hline, hlabel, Option.none_or]
            rfl
          obtain ⟨m, hle, happears⟩ := ih (by omega)
          exact ⟨m, by omega, hsame ▸ happears⟩
      | some name =>
          refine ⟨n + 1, le_rfl, _, hline, .inl ?_⟩
          rw [sectionAt, lastLabel?_eq hline, hlabel, Option.some_or, Option.getD_some]

theorem mem_sectionNames_iff {name : String} :
    name ∈ sectionNames lines ↔ ∃ n, Appears lines name n := by
  rw [List.mem_iff_getElem?]
  constructor
  · rintro ⟨n, hn⟩
    rw [getElem?_sectionNames] at hn
    obtain ⟨hbound, hname⟩ := Option.ite_none_right_eq_some.mp hn
    obtain ⟨m, -, happears⟩ := exists_appears hbound
    obtain rfl := Option.some.inj hname
    exact ⟨m, happears⟩
  · rintro ⟨n, happears⟩
    obtain ⟨hbound, hname⟩ := sectionAt_of_appears happears
    exact ⟨n, by rw [getElem?_sectionNames, if_pos hbound, hname]⟩

/-- The order of first occurrences is that of first appearances. -/
theorem appears_of_standsBefore {earlier later : String}
    (hbefore : StandsBefore (sectionNames lines) earlier later) :
    ∃ n, Appears lines earlier n ∧ ∀ m, Appears lines later m → n < m := by
  obtain ⟨before, after, hsplit, hnone⟩ := hbefore
  have hthere : (sectionNames lines)[before.length]? = some earlier := by
    rw [hsplit]
    simp
  rw [getElem?_sectionNames] at hthere
  obtain ⟨hbound, hname⟩ := Option.ite_none_right_eq_some.mp hthere
  obtain ⟨n, hle, happears⟩ := exists_appears hbound
  rw [Option.some.inj hname] at happears
  refine ⟨n, happears, fun m hlater => ?_⟩
  obtain ⟨hbound', hname'⟩ := sectionAt_of_appears hlater
  by_contra hge
  have hearly : (sectionNames lines)[m]? = some later := by
    rw [getElem?_sectionNames, if_pos hbound', hname']
  rw [hsplit, List.append_cons, List.getElem?_append_left (by simp; omega)] at hearly
  exact hnone (by simpa [or_comm] using List.mem_of_getElem? hearly)

theorem head?_eraseDups_sectionNames :
    (sectionNames lines).eraseDups.head? = some implicitSection ↔
      ∃ line, lines.head? = some line ∧ (label? line = none ∨ label? line = some implicitSection) := by
  have hhead : (sectionNames lines).eraseDups.head? = (sectionNames lines)[0]? := by
    cases sectionNames lines with
    | nil => rfl
    | cons name rest => rw [List.eraseDups_cons]; rfl
  rw [hhead, getElem?_sectionNames]
  cases lines with
  | nil => simp
  | cons line rest =>
      cases hlabel : label? line <;> simp [sectionAt, lastLabel?_cons_zero, hlabel]

end Assembly

/-! ## Lookups of sections -/

namespace Listing

variable {listing : Listing}

/-- Names tell sections apart. -/
theorem name_ne_of_split (hdistinct : (listing.sections.map Section.name).Nodup)
    {before after : List Section} {part other : Section}
    (hsplit : listing.sections = before ++ part :: after) (hother : other ∈ before ++ after) :
    other.name ≠ part.name := by
  rw [hsplit, List.map_append, List.map_cons, List.nodup_middle, List.nodup_cons] at hdistinct
  exact fun hsame => hdistinct.1 (hsame ▸ List.map_append ▸ List.mem_map_of_mem hother)

/-- Looking for the name of a section comes to that section only. -/
theorem filter_name_eq (hdistinct : (listing.sections.map Section.name).Nodup) {part : Section}
    (hpart : part ∈ listing.sections) : listing.sections.filter (·.name == part.name) = [part] := by
  obtain ⟨before, after, hsplit⟩ := List.append_of_mem hpart
  have hother {other : Section} (hmem : other ∈ before ++ after) : other.name ≠ part.name :=
    name_ne_of_split hdistinct hsplit hmem
  have hbefore : before.filter (·.name == part.name) = [] :=
    List.filter_eq_nil_iff.mpr fun other hmem => by simpa using hother (List.mem_append_left _ hmem)
  have hafter : after.filter (·.name == part.name) = [] :=
    List.filter_eq_nil_iff.mpr fun other hmem => by simpa using hother (List.mem_append_right _ hmem)
  rw [hsplit, List.filter_append, hbefore, List.filter_cons_of_pos (by simp), hafter, List.nil_append]

theorem members_eq (hdistinct : (listing.sections.map Section.name).Nodup) {part : Section}
    (hpart : part ∈ listing.sections) : listing.members part.name = part.members := by
  rw [members, ← List.head?_filter, filter_name_eq hdistinct hpart]
  rfl

theorem find?_sectionTable (name : String) : listing.sectionTable.find? name =
    ((listing.sections.filter (·.name == name)).getLast?).map Section.members := by
  rw [sectionTable, OrderedMap.find?_ofList, List.filter_map, List.getLast?_map, Option.map_map]
  rfl

theorem contains_sectionTable_iff (name : String) :
    listing.sectionTable.contains name = true ↔ name ∈ listing.sections.map Section.name := by
  rw [OrderedMap.contains_eq_isSome_find?, find?_sectionTable, Option.isSome_map,
    List.getLast?_isSome, Ne, List.filter_eq_nil_iff]
  simp

end Listing

/-! ## Main statement -/

/-- The listing of some lines of code and directives. -/
def Assembly.listingOf (lines : List (List Char)) (directives : List (String × Float)) : Listing where
  instructions := (numbered lines).map Prod.snd
  sections := sectionsOf (placed lines) (numbered lines)
  initialValues := .ofList directives

section Listing

variable (lines : List (List Char)) (directives : List (String × Float))

theorem map_name_listingOf :
    (listingOf lines directives).sections.map Section.name = (sectionNames lines).eraseDups := by
  rw [listingOf, sectionsOf, List.map_map]
  exact List.map_id _

theorem mem_sections_listingOf {part : Section} (hpart : part ∈ (listingOf lines directives).sections) :
    part.members = membersOf lines part.name := by
  obtain ⟨name, -, rfl⟩ := List.mem_map.mp hpart
  rfl

theorem represents_listingOf (hnonempty : numbered lines ≠ []) :
    (listingOf lines directives).Represents lines directives := by
  have hnames := map_name_listingOf lines directives
  have hdistinct : ((listingOf lines directives).sections.map Section.name).Nodup :=
    hnames ▸ nodup_eraseDups _
  have hinstruction (codeOrder : Nat) : (listingOf lines directives).instructions[codeOrder]? =
      (numbered lines)[codeOrder]?.map Prod.snd := List.getElem?_map
  exact
    { nonempty := by simpa [listingOf] using hnonempty
      numbered := fun codeOrder instruction hthere => by
        rw [hinstruction] at hthere
        obtain ⟨entry, hentry, rfl⟩ := Option.map_eq_some_iff.mp hthere
        exact codeOrder_of_numbered hentry
      length := by rw [listingOf, List.length_map, length_numbered]
      placed := fun codeOrder n hline => by
        obtain ⟨line, statement, hthere, hstatement, hentry⟩ := exists_of_statementLines hline
        have hname : sectionAt lines n ∈ (listingOf lines directives).sections.map Section.name := by
          rw [hnames, List.mem_eraseDups]
          exact mem_sectionNames_of_numbered hentry
        obtain ⟨part, hpart, hsame⟩ := List.mem_map.mp hname
        refine ⟨line, statement, _, hthere, hstatement, by rw [hinstruction, hentry]; rfl, rfl, rfl,
          rfl, ?_⟩
        rw [← hsame, Listing.members_eq hdistinct hpart, mem_sections_listingOf _ _ hpart, hsame]
        exact mem_membersOf_iff.mpr ⟨_, hentry⟩
      distinct := hdistinct
      keys := fun name => Listing.contains_sectionTable_iff name
      lookup := fun part hpart => by
        refine ⟨Listing.members_eq hdistinct hpart, ?_⟩
        rw [Listing.find?_sectionTable, Listing.filter_name_eq hdistinct hpart]
        rfl
      increasing := fun part hpart =>
        mem_sections_listingOf _ _ hpart ▸ pairwise_membersOf lines part.name
      complete := by
        have hflat : (listingOf lines directives).sections.flatMap Section.members =
            (sectionNames lines).eraseDups.flatMap (membersOf lines) := by
          rw [listingOf, sectionsOf, List.flatMap_map]
          rfl
        rw [hflat, listingOf, List.length_map]
        exact perm_flatMap_membersOf lines
      appears := fun name => by rw [hnames, List.mem_eraseDups, mem_sectionNames_iff]
      ordered := by
        rw [hnames]
        exact (pairwise_standsBefore_eraseDups _).imp appears_of_standsBefore
      implicitFirst := by rw [hnames, head?_eraseDups_sectionNames]
      initialValues := fun name => OrderedMap.find?_ofList directives name }

/-- A source without a line that holds a statement has no instructions. -/
theorem numbered_eq_nil_iff :
    numbered lines = [] ↔ ∀ line ∈ lines, statement? (body line) = none := by
  rw [← List.length_eq_zero_iff, length_numbered, List.length_eq_zero_iff, statementLines,
    List.filter_eq_nil_iff]
  simp only [List.mem_range, Bool.not_eq_true, Option.isSome_eq_false_iff, Option.isNone_iff_eq_none]
  constructor
  · intro hnone line hline
    obtain ⟨n, hn⟩ := List.mem_iff_getElem?.mp hline
    have hthere := hnone n (List.getElem?_eq_some_iff.mp hn).1
    rwa [statementAt?, hn, Option.bind_some] at hthere
  · intro hnone n hbound
    rw [statementAt?, List.getElem?_eq_getElem hbound, Option.bind_some]
    exact hnone _ (List.getElem_mem hbound)

end Listing

theorem ofSource?_eq (source : String) : Listing.ofSource? source =
    if numbered (codeLines source.toList) = [] then none
    else some (listingOf (codeLines source.toList) (directives source.toList)) := by
  rw [Listing.ofSource?]
  simp only [List.isEmpty_iff]
  rfl

theorem Listing.nodup_names_ofSource? {source : String} {listing : Listing}
    (hread : Listing.ofSource? source = some listing) : (listing.sections.map Section.name).Nodup := by
  rw [ofSource?_eq] at hread
  obtain ⟨-, hlisting⟩ := Option.ite_none_left_eq_some.mp hread
  obtain rfl := Option.some.inj hlisting
  exact map_name_listingOf _ _ ▸ nodup_eraseDups _

/-- Every source either holds no statement on any line of code, and then nothing is read, or reads as the
listing that its lines and directives represent. -/
theorem ofSource?_represents (source : String) :
    (Listing.ofSource? source = none ↔
      ∀ line ∈ codeLines source.toList, statement? (body line) = none) ∧
      ∀ listing, Listing.ofSource? source = some listing →
        listing.Represents (codeLines source.toList) (directives source.toList) := by
  rw [ofSource?_eq]
  refine ⟨?_, fun listing hread => ?_⟩
  · rw [← numbered_eq_nil_iff]
    simp
  · obtain ⟨hnonempty, hlisting⟩ := Option.ite_none_left_eq_some.mp hread
    obtain rfl := Option.some.inj hlisting
    exact represents_listingOf _ _ hnonempty

/-- A source whose first line holds no statement, and that comes back to its implicit section.  One label
shares its line with an instruction, the last section stays empty, and a register has two directives. -/
def Reopened.source : String :=
  "count to x2 # x1 = 1\nloop: addi x1, x1, 1\nmain:\nblt x1, x2, loop # x1 = 2\ndone:"

theorem ofSource?_represents_reopened :
    ∃ listing, Listing.ofSource? Reopened.source = some listing ∧
      listing.sections = [⟨"main", [1]⟩, ⟨"loop", [0]⟩, ⟨"done", []⟩] ∧
      listing.Represents (codeLines Reopened.source.toList) (directives Reopened.source.toList) := by
  have hsections : (Listing.ofSource? Reopened.source).map Listing.sections =
      some [⟨"main", [1]⟩, ⟨"loop", [0]⟩, ⟨"done", []⟩] := by
    rfl
  obtain ⟨listing, hread, hsame⟩ := Option.map_eq_some_iff.mp hsections
  exact ⟨listing, hread, hsame, (ofSource?_represents Reopened.source).2 listing hread⟩

end Tomasulo
