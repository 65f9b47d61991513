import Mathlib.Tactic
import Tomasulo.Cursor

/-!
# Positions in the order of fetching

Every fetched instruction has a position: how many instructions were fetched before it.  Code orders
repeat in loops, positions do not, so positions are what ages and dependencies are stated in.  This
module reads the instruction at a position off a cursor, and finds the last position before a given one
that satisfies a condition (`latest?`).  The register written last before a position
(`Cursor.lastWriter?`) is the case from which renaming and dataflow are defined.

Fetching only appends: nothing that was said about the positions below `fetched` changes when the
cursor advances (`Cursor.Extends`).
-/

namespace Tomasulo

/-- The last number below a bound that satisfies a condition. -/
def latest? (p : Nat → Prop) [DecidablePred p] : Nat → Option Nat
  | 0 => none
  | n + 1 => if p n then some n else latest? p n

section Latest

variable {p q : Nat → Prop} [DecidablePred p] [DecidablePred q]

theorem latest?_eq_some_iff {n m : Nat} :
    latest? p n = some m ↔ m < n ∧ p m ∧ ∀ k, m < k → k < n → ¬ p k := by
  induction n with
  | zero => simp [latest?]
  | succ n ih =>
      unfold latest?
      by_cases hn : p n
      · rw [if_pos hn, Option.some.injEq]
        constructor
        · rintro rfl
          exact ⟨by omega, hn, fun k hlow hhigh => by omega⟩
        · rintro ⟨hlt, -, hlast⟩
          -- Otherwise `n` itself would be a later one.
          by_contra hne
          exact hlast n (by omega) (by omega) hn
      · rw [if_neg hn, ih]
        constructor
        · rintro ⟨hlt, hm, hlast⟩
          refine ⟨by omega, hm, fun k hlow hhigh => ?_⟩
          rcases Nat.lt_succ_iff_lt_or_eq.mp hhigh with hk | rfl
          · exact hlast k hlow hk
          · exact hn
        · rintro ⟨hlt, hm, hlast⟩
          have hne : m ≠ n := fun heq => hn (heq ▸ hm)
          exact ⟨by omega, hm, fun k hlow hhigh => hlast k hlow (by omega)⟩

theorem latest?_eq_none_iff {n : Nat} : latest? p n = none ↔ ∀ k < n, ¬ p k := by
  induction n with
  | zero => simp [latest?]
  | succ n ih =>
      unfold latest?
      by_cases hn : p n
      · rw [if_pos hn]
        exact ⟨fun h => by simp at h, fun h => absurd hn (h n (by omega))⟩
      · rw [if_neg hn, ih]
        constructor
        · intro hall k hk
          rcases Nat.lt_succ_iff_lt_or_eq.mp hk with hk | rfl
          · exact hall k hk
          · exact hn
        · exact fun hall k hk => hall k (by omega)

theorem latest?_lt {n m : Nat} (h : latest? p n = some m) : m < n :=
  (latest?_eq_some_iff.mp h).1

/-- Only the condition below the bound matters. -/
theorem latest?_congr {n : Nat} (h : ∀ k < n, p k ↔ q k) : latest? p n = latest? q n := by
  induction n with
  | zero => rfl
  | succ n ih =>
      unfold latest?
      rw [ih fun k hk => h k (by omega)]
      by_cases hn : p n
      · rw [if_pos hn, if_pos ((h n (by omega)).mp hn)]
      · rw [if_neg hn, if_neg fun hq => hn ((h n (by omega)).mpr hq)]

end Latest

namespace Cursor

variable {listing : Listing} {cursor : Cursor}

/-- The instruction at a position of the order of fetching. -/
def instructionAt? (listing : Listing) (cursor : Cursor) (n : Nat) : Option Instruction :=
  cursor.executionOrder[n]?.bind listing.instruction?

/-- Whether the instruction at a position writes a register. -/
def Writes (listing : Listing) (cursor : Cursor) (name : String) (n : Nat) : Prop :=
  (cursor.instructionAt? listing n).bind (·.operation.dest?) = some name

instance (name : String) : DecidablePred (cursor.Writes listing name) :=
  fun n => inferInstanceAs (Decidable ((cursor.instructionAt? listing n).bind _ = some name))

/-- The last position before `n` whose instruction writes a register. -/
def lastWriter? (listing : Listing) (cursor : Cursor) (name : String) (n : Nat) : Option Nat :=
  latest? (cursor.Writes listing name) n

theorem instructionAt?_eq_none (hbound : cursor.fetched ≤ n) :
    cursor.instructionAt? listing n = none := by
  unfold instructionAt?
  rw [List.getElem?_eq_none hbound, Option.bind_none]

theorem lt_fetched {n : Nat} {instruction : Instruction}
    (hat : cursor.instructionAt? listing n = some instruction) : n < cursor.fetched := by
  by_contra hge
  rw [instructionAt?_eq_none (by omega)] at hat
  exact absurd hat (by simp)

/-! ## What advancing changes -/

@[simp]
theorem executionOrder_settle : (settle listing cursor).executionOrder = cursor.executionOrder := by
  unfold settle
  split <;> rfl

theorem executionOrder_advance {codeOrder : Nat} (hcurrent : cursor.current? listing = some codeOrder)
    (label : Option String) :
    (cursor.advance listing label).executionOrder = cursor.executionOrder ++ [codeOrder] := by
  unfold advance
  rw [hcurrent]
  cases label.bind listing.sectionIndex? <;> simp

@[simp]
theorem executionOrder_start : (start listing).executionOrder = [] := by
  simp [start]

@[simp]
theorem fetched_start : (start listing).fetched = 0 := by
  simp [fetched]

theorem exists_current_of_next? {instruction : Instruction}
    (hnext : cursor.next? listing = some instruction) :
    ∃ codeOrder, cursor.current? listing = some codeOrder ∧
      listing.instruction? codeOrder = some instruction := by
  unfold next? at hnext
  exact Option.bind_eq_some_iff.mp hnext

/-! ## Cursors that went on -/

/-- Whether a cursor has gone on from an earlier one. -/
def Extends (later earlier : Cursor) : Prop :=
  earlier.executionOrder <+: later.executionOrder

theorem Extends.refl (cursor : Cursor) : cursor.Extends cursor :=
  List.prefix_refl _

theorem Extends.trans {last later earlier : Cursor} (hlast : last.Extends later)
    (hlater : later.Extends earlier) : last.Extends earlier :=
  List.IsPrefix.trans hlater hlast

theorem extends_advance {instruction : Instruction} (hnext : cursor.next? listing = some instruction)
    (label : Option String) : (cursor.advance listing label).Extends cursor := by
  obtain ⟨codeOrder, hcurrent, -⟩ := exists_current_of_next? hnext
  unfold Extends
  rw [executionOrder_advance hcurrent]
  exact List.prefix_append ..

theorem Extends.fetched_le {later earlier : Cursor} (hlater : later.Extends earlier) :
    earlier.fetched ≤ later.fetched :=
  List.IsPrefix.length_le hlater

/-- What stands at a position does not change any more. -/
theorem Extends.instructionAt? {later earlier : Cursor} (hlater : later.Extends earlier) {n : Nat}
    (hbound : n < earlier.fetched) :
    later.instructionAt? listing n = earlier.instructionAt? listing n := by
  obtain ⟨rest, hrest⟩ := hlater
  unfold Cursor.instructionAt?
  rw [← hrest, List.getElem?_append_left hbound]

theorem Extends.lastWriter? {later earlier : Cursor} (hlater : later.Extends earlier) {name : String}
    {n : Nat} (hbound : n ≤ earlier.fetched) :
    later.lastWriter? listing name n = earlier.lastWriter? listing name n := by
  refine latest?_congr fun k hk => ?_
  unfold Writes
  rw [hlater.instructionAt? (by omega)]

section Advance

variable {instruction : Instruction} (hnext : cursor.next? listing = some instruction)
  (label : Option String)

include hnext

theorem fetched_advance : (cursor.advance listing label).fetched = cursor.fetched + 1 := by
  obtain ⟨codeOrder, hcurrent, -⟩ := exists_current_of_next? hnext
  simp [fetched, executionOrder_advance hcurrent]

/-- The fetched instruction stands at the position that was next; all earlier positions stay. -/
theorem instructionAt?_advance (n : Nat) :
    (cursor.advance listing label).instructionAt? listing n =
      if n = cursor.fetched then some instruction else cursor.instructionAt? listing n := by
  obtain ⟨codeOrder, hcurrent, hinstruction⟩ := exists_current_of_next? hnext
  unfold instructionAt?
  rw [executionOrder_advance hcurrent]
  rcases Nat.lt_trichotomy n cursor.fetched with hlt | rfl | hgt
  · rw [if_neg (by omega), List.getElem?_append_left hlt]
  · rw [if_pos rfl, fetched, List.getElem?_append_right le_rfl]
    simpa using hinstruction
  -- Behind the fetched instruction there is nothing, before and after.
  · rw [if_neg (by omega), List.getElem?_eq_none (by simp [fetched] at hgt ⊢; omega),
      List.getElem?_eq_none (by simp [fetched] at hgt; omega)]

/-- The fetched instruction becomes the last writer of the register that it writes. -/
theorem lastWriter?_advance_fetched (name : String) :
    (cursor.advance listing label).lastWriter? listing name (cursor.fetched + 1) =
      if instruction.operation.dest? = some name then some cursor.fetched
      else cursor.lastWriter? listing name cursor.fetched := by
  have hwrites : (cursor.advance listing label).Writes listing name cursor.fetched ↔
      instruction.operation.dest? = some name := by
    unfold Writes
    rw [instructionAt?_advance hnext, if_pos rfl, Option.bind_some]
  have hearlier : (cursor.advance listing label).lastWriter? listing name cursor.fetched =
      cursor.lastWriter? listing name cursor.fetched :=
    (extends_advance hnext label).lastWriter? le_rfl
  unfold lastWriter? at hearlier ⊢
  rw [latest?, hearlier]
  by_cases hdest : instruction.operation.dest? = some name
  · rw [if_pos (hwrites.mpr hdest), if_pos hdest]
  · rw [if_neg fun h => hdest (hwrites.mp h), if_neg hdest]

end Advance

theorem lastWriter?_lt {name : String} {n m : Nat}
    (hlast : cursor.lastWriter? listing name n = some m) : m < n :=
  latest?_lt hlast

theorem writes_of_lastWriter? {name : String} {n m : Nat}
    (hlast : cursor.lastWriter? listing name n = some m) : cursor.Writes listing name m :=
  (latest?_eq_some_iff.mp hlast).2.1

end Cursor

end Tomasulo
