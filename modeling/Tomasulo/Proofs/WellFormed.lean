import Mathlib.Tactic
import Tomasulo.Assembly.Source
import Tomasulo.Proofs.Position

/-!
# Well-formed listings

A listing numbers its instructions by code order, and its sections name instructions that it has.  The
type does not say so, but every listing that is read from a source is such
(`Listing.wellFormed_ofSource?`).  Runs rely on it in two places: fetching ends only behind the last
section, and a station shows the code order under which its instruction was fetched.
-/

namespace Tomasulo

/-- Whether the sections of a listing name only instructions that it has. -/
def Listing.Closed (listing : Listing) : Prop :=
  ∀ part ∈ listing.sections, ∀ codeOrder ∈ part.members, codeOrder < listing.instructions.length

/-- Whether a listing is closed and numbers its instructions by code order. -/
structure Listing.WellFormed (listing : Listing) : Prop where
  closed : listing.Closed
  numbered : listing.instructions.map Instruction.codeOrder = List.range listing.instructions.length

instance (listing : Listing) : Decidable listing.Closed :=
  inferInstanceAs (Decidable (∀ part ∈ listing.sections, ∀ codeOrder ∈ part.members, _))

instance (listing : Listing) : Decidable listing.WellFormed :=
  decidable_of_iff
    (listing.Closed ∧
      listing.instructions.map Instruction.codeOrder = List.range listing.instructions.length)
    ⟨fun ⟨hclosed, hnumbered⟩ => ⟨hclosed, hnumbered⟩, fun h => ⟨h.closed, h.numbered⟩⟩

/-! ## What is fetched -/

section Fetched

variable {listing : Listing} {cursor : Cursor} {n : Nat} {instruction : Instruction}

theorem Listing.WellFormed.codeOrder_eq (hwellFormed : listing.WellFormed)
    (hinstruction : listing.instruction? n = some instruction) : instruction.codeOrder = n := by
  unfold Listing.instruction? at hinstruction
  have hthere := congrArg (·[n]?) hwellFormed.numbered
  simp only [List.getElem?_map, hinstruction, Option.map_some] at hthere
  obtain ⟨hbound, hsame⟩ := List.getElem?_eq_some_iff.mp hthere.symm
  rw [← hsame, List.getElem_range hbound]

/-- The instruction at a position carries the code order under which it was fetched. -/
theorem Listing.WellFormed.executionOrder_eq (hwellFormed : listing.WellFormed)
    (hat : cursor.instructionAt? listing n = some instruction) :
    cursor.executionOrder[n]? = some instruction.codeOrder := by
  obtain ⟨codeOrder, hfetched, hinstruction⟩ := Option.bind_eq_some_iff.mp hat
  rw [hfetched, hwellFormed.codeOrder_eq hinstruction]

theorem Listing.Closed.exists_instruction (hclosed : listing.Closed) {codeOrder : Nat}
    (hcurrent : cursor.current? listing = some codeOrder) :
    ∃ instruction, listing.instruction? codeOrder = some instruction := by
  obtain ⟨part, hpart, hmember⟩ := Option.bind_eq_some_iff.mp hcurrent
  have hbound := hclosed part (List.mem_of_getElem? hpart) codeOrder (List.mem_of_getElem? hmember)
  exact ⟨_, List.getElem?_eq_getElem hbound⟩

/-- Nothing comes next only if fetching is exhausted. -/
theorem Listing.Closed.next?_eq_none_iff (hclosed : listing.Closed) :
    cursor.next? listing = none ↔ cursor.isExhausted listing = true := by
  unfold Cursor.next? Cursor.isExhausted
  cases hcurrent : cursor.current? listing with
  | none => simp
  | some codeOrder =>
      obtain ⟨instruction, hinstruction⟩ := hclosed.exists_instruction hcurrent
      simp [hinstruction]

end Fetched

/-! ## Listings that are read -/

namespace Assembly

theorem codeOrders_number (codeOrder : Nat) (placed : List Placed) :
    (number codeOrder placed).map (·.2.codeOrder) =
      List.range' codeOrder (number codeOrder placed).length := by
  induction placed generalizing codeOrder with
  | nil => rfl
  | cons first rest ih =>
      unfold number
      cases statement? first.body with
      | none => exact ih codeOrder
      | some statement => simp [ih, List.range'_succ]

end Assembly

/-- Every listing that is read from a source is well formed. -/
theorem Listing.wellFormed_ofSource? {source : String} {listing : Listing}
    (hread : Listing.ofSource? source = some listing) : listing.WellFormed := by
  unfold Listing.ofSource? at hread
  obtain ⟨-, hlisting⟩ := Option.ite_none_left_eq_some.mp hread
  obtain rfl := Option.some.inj hlisting
  have hcodeOrders := Assembly.codeOrders_number 0
    (Assembly.place Assembly.implicitSection (Assembly.codeLines source.toList))
  refine ⟨fun part hpart codeOrder hmember => ?_, ?_⟩
  · obtain ⟨name, -, rfl⟩ := List.mem_map.mp hpart
    obtain ⟨entry, hentry, rfl⟩ := List.mem_map.mp hmember
    have hrange := List.mem_map_of_mem (f := (·.2.codeOrder)) (List.mem_filter.mp hentry).1
    rw [hcodeOrders] at hrange
    simpa using hrange
  · rw [List.map_map, List.length_map, List.range_eq_range']
    exact hcodeOrders

end Tomasulo
