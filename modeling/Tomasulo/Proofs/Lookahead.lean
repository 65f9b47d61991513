import Tomasulo.Proofs.Fetching

/-!
# What the lookahead shows

The lookahead goes through the sections by itself, without moving the cursor.  This module shows that it
comes to the same instructions as fetching would if it went straight on until it is exhausted
(`Cursor.Future`), cut to the window, and that it splits them behind the first branch or jump: what it shows
as visible is the longest front in which only the last instruction may be one (`Lookahead.Shows`).

Main statement: `lookahead_shows_future`, for every cursor of a listing that was read and every window.
-/

namespace Tomasulo

/-- Whether the instruction with a code order is a branch or jump. -/
def Listing.Branches (listing : Listing) (codeOrder : Nat) : Prop :=
  ∃ instruction, listing.instruction? codeOrder = some instruction ∧ instruction.isControl = true

/-- Whether going straight on fetches these code orders, one after another, and nothing behind them. -/
structure Cursor.Future (listing : Listing) (cursor : Cursor) (ahead : List Nat) : Prop where
  fetches : ∀ count, ((advance listing none)^[count] cursor).executionOrder =
    cursor.executionOrder ++ ahead.take count
  ends : ((advance listing none)^[ahead.length] cursor).isExhausted listing = true

/-- Whether a lookahead shows these code orders, split behind the first branch or jump. -/
structure Lookahead.Shows (listing : Listing) (shown : List Nat) (lookahead : Lookahead) : Prop where
  whole : lookahead.visible ++ lookahead.remaining = shown
  /-- Every code order that is shown is that of an instruction. -/
  known : ∀ codeOrder ∈ shown, ∃ instruction, listing.instruction? codeOrder = some instruction
  /-- Only the last visible instruction may be a branch or jump. -/
  guarded : ∀ codeOrder ∈ lookahead.visible.dropLast, ¬ listing.Branches codeOrder
  longest : ∀ front, front <+: shown → (∀ codeOrder ∈ front.dropLast, ¬ listing.Branches codeOrder) →
    front <+: lookahead.visible
  /-- The first branch or jump is visible, and nothing behind it. -/
  divided : ∀ before codeOrder after, shown = before ++ codeOrder :: after →
    (∀ earlier ∈ before, ¬ listing.Branches earlier) → listing.Branches codeOrder →
      lookahead = ⟨before ++ [codeOrder], after⟩
  /-- Without a branch or jump everything is visible. -/
  undivided : (∀ codeOrder ∈ shown, ¬ listing.Branches codeOrder) → lookahead = ⟨shown, []⟩

/-! ## Going straight on -/

namespace Cursor

variable {listing : Listing} {cursor : Cursor}

theorem Settled.future (hsettled : cursor.Settled listing) :
    cursor.Future listing (cursor.upcoming listing) := by
  -- By induction on what lies ahead: going on takes its first away.
  induction hahead : cursor.upcoming listing generalizing cursor with
  | nil =>
      have hcurrent : cursor.current? listing = none := by
        cases hcurrent : cursor.current? listing with
        | none => rfl
        | some codeOrder => rw [upcoming_advance hcurrent] at hahead; cases hahead
      have hfixed (count : Nat) : (Cursor.advance listing none)^[count] cursor = cursor :=
        Function.iterate_fixed (advance_of_exhausted hcurrent) count
      refine ⟨fun count => ?_, ?_⟩
      · rw [hfixed, List.take_nil, List.append_nil]
      · rw [hfixed, isExhausted, hcurrent]
        rfl
  | cons codeOrder rest ih =>
      have hcurrent : cursor.current? listing = some codeOrder := by
        rw [hsettled.current?_eq, ← List.head?_drop, ← upcoming_eq_drop hsettled.within, hahead,
          List.head?_cons]
      have hrest : (cursor.advance listing none).upcoming listing = rest :=
        (List.cons.inj ((upcoming_advance hcurrent).symm.trans hahead)).2
      have hfuture := ih (hsettled.advance none) hrest
      refine ⟨fun count => ?_, hfuture.ends⟩
      cases count with
      | zero => simp
      | succ count =>
          rw [Function.iterate_succ_apply, hfuture.fetches, executionOrder_advance hcurrent,
            List.append_assoc, List.singleton_append, List.take_succ_cons]

/-- What lies ahead are members of sections. -/
theorem Settled.exists_instruction (hsettled : cursor.Settled listing) (hclosed : listing.Closed)
    {codeOrder : Nat} (hahead : codeOrder ∈ cursor.upcoming listing) :
    ∃ instruction, listing.instruction? codeOrder = some instruction := by
  rw [upcoming_eq_drop hsettled.within] at hahead
  obtain ⟨part, hpart, hmember⟩ := List.mem_flatMap.mp (List.mem_of_mem_drop hahead)
  exact ⟨_, List.getElem?_eq_getElem (hclosed part hpart codeOrder hmember)⟩

end Cursor

/-! ## Splitting -/

section Splitting

variable {listing : Listing}

theorem isControlAt_iff {codeOrder : Nat} :
    Cursor.isControlAt listing codeOrder = true ↔ listing.Branches codeOrder := by
  rw [Cursor.isControlAt, Option.any_eq_true]
  rfl

/-- The code orders split behind the first branch or jump, as the lookahead does it. -/
def Lookahead.of (listing : Listing) (shown : List Nat) : Lookahead :=
  let count := shown.findIdx (Cursor.isControlAt listing) + 1
  ⟨shown.take count, shown.drop count⟩

theorem findIdx_isControlAt {shown : List Nat}
    (hstraight : ∀ codeOrder ∈ shown, ¬ listing.Branches codeOrder) :
    shown.findIdx (Cursor.isControlAt listing) = shown.length :=
  List.findIdx_eq_length.mpr fun codeOrder hmember =>
    Bool.eq_false_iff.mpr fun hcontrol => hstraight codeOrder hmember (isControlAt_iff.mp hcontrol)

theorem Lookahead.of_undivided {shown : List Nat}
    (hstraight : ∀ codeOrder ∈ shown, ¬ listing.Branches codeOrder) :
    Lookahead.of listing shown = ⟨shown, []⟩ := by
  rw [Lookahead.of, findIdx_isControlAt hstraight]
  simp

theorem Lookahead.of_divided {before after : List Nat} {codeOrder : Nat}
    (hbefore : ∀ earlier ∈ before, ¬ listing.Branches earlier) (hbranches : listing.Branches codeOrder) :
    Lookahead.of listing (before ++ codeOrder :: after) = ⟨before ++ [codeOrder], after⟩ := by
  have hindex : (before ++ codeOrder :: after).findIdx (Cursor.isControlAt listing) =
      before.length := by
    rw [List.findIdx_append, findIdx_isControlAt hbefore, if_neg (Nat.lt_irrefl _), List.findIdx_cons,
      isControlAt_iff.mpr hbranches, cond_true, Nat.zero_add]
  have hlength : (before ++ [codeOrder]).length = before.length + 1 := List.length_append
  rw [Lookahead.of, hindex, List.append_cons, ← hlength, List.take_left, List.drop_left]

theorem undivided_or_divided (listing : Listing) (shown : List Nat) :
    (∀ codeOrder ∈ shown, ¬ listing.Branches codeOrder) ∨
      ∃ before codeOrder after, shown = before ++ codeOrder :: after ∧
        (∀ earlier ∈ before, ¬ listing.Branches earlier) ∧ listing.Branches codeOrder := by
  induction shown with
  | nil => exact .inl (by simp)
  | cons first rest ih =>
      by_cases hfirst : listing.Branches first
      · exact .inr ⟨[], first, rest, rfl, by simp, hfirst⟩
      · rcases ih with hstraight | ⟨before, codeOrder, after, rfl, hbefore, hbranches⟩
        · exact .inl (List.forall_mem_cons.mpr ⟨hfirst, hstraight⟩)
        · exact .inr ⟨first :: before, codeOrder, after, rfl,
            List.forall_mem_cons.mpr ⟨hfirst, hbefore⟩, hbranches⟩

theorem Lookahead.shows_of {shown : List Nat}
    (hknown : ∀ codeOrder ∈ shown, ∃ instruction, listing.instruction? codeOrder = some instruction) :
    (Lookahead.of listing shown).Shows listing shown where
  whole := List.take_append_drop ..
  known := hknown
  guarded := by
    rcases undivided_or_divided listing shown with
      hstraight | ⟨before, codeOrder, after, rfl, hbefore, hbranches⟩
    · rw [Lookahead.of_undivided hstraight]
      exact fun codeOrder hmember => hstraight codeOrder (List.mem_of_mem_dropLast hmember)
    · rw [Lookahead.of_divided hbefore hbranches, List.dropLast_concat]
      exact hbefore
  longest := by
    intro front hfront hguarded
    rcases undivided_or_divided listing shown with
      hstraight | ⟨before, codeOrder, after, rfl, hbefore, hbranches⟩
    · rwa [Lookahead.of_undivided hstraight]
    · rw [Lookahead.of_divided hbefore hbranches]
      rw [List.append_cons] at hfront
      rcases List.prefix_or_prefix_of_prefix hfront (List.prefix_append ..) with hshort | ⟨more, rfl⟩
      · exact hshort
      -- A longer front has the branch before its last instruction.
      · rcases List.eq_nil_or_concat more with rfl | ⟨others, last, rfl⟩
        · simp
        · refine absurd hbranches (hguarded codeOrder ?_)
          rw [List.concat_eq_append, ← List.append_assoc, List.dropLast_concat]
          simp
  divided := by
    rintro before codeOrder after rfl hbefore hbranches
    exact Lookahead.of_divided hbefore hbranches
  undivided := Lookahead.of_undivided

end Splitting

/-- Over a listing that was read, the lookahead of every cursor shows what going straight on would fetch,
as much of it as the window holds. -/
theorem lookahead_shows_future {source : String} {listing : Listing}
    (hread : Listing.ofSource? source = some listing) {cursor : Cursor}
    (hreachable : Cursor.Reachable listing cursor) (window : Option Nat) :
    ∃ ahead, cursor.Future listing ahead ∧
      (cursor.lookahead listing window).Shows listing
        (window.elim ahead fun count => ahead.take count) := by
  have hsettled := hreachable.settled
  refine ⟨cursor.upcoming listing, hsettled.future, ?_⟩
  have hlookahead : cursor.lookahead listing window =
      Lookahead.of listing (window.elim (cursor.upcoming listing) fun count =>
        (cursor.upcoming listing).take count) := by
    cases window <;> rfl
  rw [hlookahead]
  refine Lookahead.shows_of fun codeOrder hshown => ?_
  refine hsettled.exists_instruction (Listing.wellFormed_ofSource? hread).closed ?_
  cases window with
  | none => exact hshown
  | some count => exact List.mem_of_mem_take hshown

/-- From the start the window cuts off the last of four instructions, and the second one branches. -/
theorem lookahead_shows_future_gaps :
    ∃ ahead, (Cursor.start Gaps.listing).Future Gaps.listing ahead ∧
      ((Cursor.start Gaps.listing).lookahead Gaps.listing (some 3)).Shows Gaps.listing (ahead.take 3) ∧
      (Cursor.start Gaps.listing).lookahead Gaps.listing (some 3) = ⟨[0, 1], [3]⟩ := by
  obtain ⟨ahead, hfuture, hshows⟩ :=
    lookahead_shows_future Gaps.ofSource?_source .start (some 3)
  exact ⟨ahead, hfuture, hshows, rfl⟩

end Tomasulo
