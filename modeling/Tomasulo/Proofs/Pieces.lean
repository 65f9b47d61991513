import Mathlib.Data.List.TakeWhile
import Mathlib.Tactic
import Tomasulo.Text.Cut

/-!
# Pieces of a text

Pieces are the longest stretches of a text without a separator, in their order (`Text.Pieces`,
`Text.pieces_eq_iff`).  A separator in the middle of a text divides its pieces
(`Text.pieces_append_separator`), and how many separators stand there, or which, makes no difference
(`Text.pieces_append_run`).
-/

namespace Tomasulo.Text

/-- Whether a text consists of these pieces with separators around them.  Behind a piece the text ends or a
separator follows. -/
inductive Pieces (isSeparator : Char → Bool) : List Char → List (List Char) → Prop
  | nil : Pieces isSeparator [] []
  | skip {c : Char} {text : List Char} {words : List (List Char)} (hseparator : isSeparator c = true)
      (hrest : Pieces isSeparator text words) : Pieces isSeparator (c :: text) words
  | piece {word rest : List Char} {words : List (List Char)} (hword : word ≠ [])
      (hplain : ∀ c ∈ word, isSeparator c = false) (hend : ∀ c ∈ rest.head?, isSeparator c = true)
      (hrest : Pieces isSeparator rest words) : Pieces isSeparator (word ++ rest) (word :: words)

variable {isSeparator : Char → Bool} {c : Char} {text before after run word : List Char}

/-! ## Stretches -/

theorem cut_eq_splitOnP (isSeparator : Char → Bool) (text : List Char) :
    cut isSeparator text = text.splitOnP isSeparator := by
  induction text with
  | nil => rfl
  | cons c rest ih => rw [cut, List.splitOnP_cons_eq_if_modifyHead, ih]

/-- A separator divides the stretches before it from those behind it. -/
theorem cut_append_separator (hseparator : isSeparator c = true) (before after : List Char) :
    cut isSeparator (before ++ c :: after) = cut isSeparator before ++ cut isSeparator after := by
  simp only [cut_eq_splitOnP]
  exact List.splitOnP_append_cons before after hseparator

theorem cut_of_plain (hplain : ∀ c ∈ text, isSeparator c = false) : cut isSeparator text = [text] := by
  rw [cut_eq_splitOnP]
  exact List.splitOnP_eq_singleton hplain

/-- A text that goes on without a separator goes on with its last stretch. -/
theorem exists_cut_append (isSeparator : Char → Bool) (after : List Char)
    (hplain : ∀ c ∈ after, isSeparator c = false) (before : List Char) :
    ∃ stretches last, cut isSeparator before = stretches ++ [last] ∧
      cut isSeparator (before ++ after) = stretches ++ [last ++ after] := by
  induction before with
  | nil => exact ⟨[], [], rfl, cut_of_plain hplain⟩
  | cons c rest ih =>
      obtain ⟨stretches, last, hrest, hmore⟩ := ih
      rw [List.cons_append, cut, cut, hrest, hmore]
      by_cases hseparator : isSeparator c = true
      · exact ⟨[] :: stretches, last, by simp [hseparator], by simp [hseparator]⟩
      · rw [if_neg hseparator, if_neg hseparator]
        cases stretches with
        | nil => exact ⟨[], c :: last, rfl, rfl⟩
        | cons first others => exact ⟨(c :: first) :: others, last, rfl, rfl⟩

/-! ## Pieces -/

@[simp]
theorem pieces_nil : pieces isSeparator [] = [] :=
  rfl

theorem pieces_append_separator (hseparator : isSeparator c = true) (before after : List Char) :
    pieces isSeparator (before ++ c :: after) =
      pieces isSeparator before ++ pieces isSeparator after := by
  rw [pieces, cut_append_separator hseparator, List.filter_append]
  rfl

theorem pieces_cons_separator (hseparator : isSeparator c = true) (text : List Char) :
    pieces isSeparator (c :: text) = pieces isSeparator text :=
  pieces_append_separator hseparator [] text

theorem pieces_of_plain (hword : word ≠ []) (hplain : ∀ c ∈ word, isSeparator c = false) :
    pieces isSeparator word = [word] := by
  simp [pieces, cut_of_plain hplain, hword]

/-- Separators in front of a text belong to no piece. -/
theorem pieces_run_append (hrun : ∀ c ∈ run, isSeparator c = true) (text : List Char) :
    pieces isSeparator (run ++ text) = pieces isSeparator text := by
  induction run with
  | nil => rfl
  | cons c rest ih =>
      obtain ⟨hseparator, hrest⟩ := List.forall_mem_cons.mp hrun
      rw [List.cons_append, pieces_cons_separator hseparator, ih hrest]

/-- Whatever separators stand between two texts, they divide their pieces. -/
theorem pieces_append_run (hrun : ∀ c ∈ run, isSeparator c = true) (hnonempty : run ≠ [])
    (before after : List Char) :
    pieces isSeparator (before ++ run ++ after) =
      pieces isSeparator before ++ pieces isSeparator after := by
  obtain ⟨c, rest, rfl⟩ := List.exists_cons_of_ne_nil hnonempty
  obtain ⟨hseparator, hrest⟩ := List.forall_mem_cons.mp hrun
  rw [List.append_assoc, List.cons_append, pieces_append_separator hseparator,
    pieces_run_append hrest]

/-- Separators behind a text belong to no piece. -/
theorem pieces_append_of_separators (hrun : ∀ c ∈ run, isSeparator c = true) (text : List Char) :
    pieces isSeparator (text ++ run) = pieces isSeparator text := by
  rcases eq_or_ne run [] with rfl | hnonempty
  · rw [List.append_nil]
  · have hpieces := pieces_append_run hrun hnonempty text []
    rwa [pieces_nil, List.append_nil, List.append_nil] at hpieces

/-! ## What pieces are -/

/-- A stretch that ends with the text or before a separator is a piece of its own. -/
theorem pieces_append_of_end {rest : List Char} (hword : word ≠ [])
    (hplain : ∀ c ∈ word, isSeparator c = false) (hend : ∀ c ∈ rest.head?, isSeparator c = true) :
    pieces isSeparator (word ++ rest) = word :: pieces isSeparator rest := by
  cases rest with
  | nil => rw [List.append_nil, pieces_of_plain hword hplain, pieces_nil]
  | cons c rest =>
      have hseparator : isSeparator c = true := hend c rfl
      rw [pieces_append_separator hseparator, pieces_of_plain hword hplain,
        pieces_cons_separator hseparator, List.singleton_append]

theorem Pieces.pieces_eq {words : List (List Char)} (hpieces : Pieces isSeparator text words) :
    pieces isSeparator text = words := by
  induction hpieces with
  | nil => rfl
  | skip hseparator _ ih => rw [pieces_cons_separator hseparator, ih]
  | piece hword hplain hend _ ih => rw [pieces_append_of_end hword hplain hend, ih]

theorem pieces_pieces (isSeparator : Char → Bool) (text : List Char) :
    Pieces isSeparator text (pieces isSeparator text) := by
  -- By induction on the length, because a piece is taken off as a whole.
  induction hlength : text.length using Nat.strong_induction_on generalizing text with
  | _ length ih =>
      cases text with
      | nil => exact .nil
      | cons c rest =>
          by_cases hseparator : isSeparator c = true
          · rw [pieces_cons_separator hseparator]
            exact .skip hseparator (ih rest.length (by simp [← hlength]) rest rfl)
          · let word := (c :: rest).takeWhile fun d => !isSeparator d
            let tail := (c :: rest).dropWhile fun d => !isSeparator d
            have hsplit : word ++ tail = c :: rest := List.takeWhile_append_dropWhile
            have hword : word ≠ [] := by simp [word, hseparator]
            have hplain : ∀ d ∈ word, isSeparator d = false := fun d hd => by
              simpa using List.mem_takeWhile_imp hd
            have hend : ∀ d ∈ tail.head?, isSeparator d = true := fun d hd => by
              have hstop := List.head?_dropWhile_not (fun d => !isSeparator d) (c :: rest)
              rw [show ((c :: rest).dropWhile fun d => !isSeparator d).head? = some d from hd] at hstop
              simpa using hstop
            have hshorter : tail.length < length := by
              have hpositive := List.length_pos_of_ne_nil hword
              have hsum := congrArg List.length hsplit
              rw [List.length_append, hlength] at hsum
              omega
            rw [← hsplit, pieces_append_of_end hword hplain hend]
            exact .piece hword hplain hend (ih _ hshorter tail rfl)

theorem Pieces.eq_nil_iff {words : List (List Char)} (hpieces : Pieces isSeparator text words) :
    words = [] ↔ ∀ c ∈ text, isSeparator c = true := by
  induction hpieces with
  | nil => simp
  | skip hseparator _ ih => simp [ih, hseparator]
  | @piece word rest words hword hplain _ _ _ =>
      obtain ⟨c, hc⟩ := List.exists_mem_of_ne_nil word hword
      refine ⟨fun hnone => absurd hnone (by simp), fun hall => ?_⟩
      have hseparator := hall c (List.mem_append_left _ hc)
      simp [hplain c hc] at hseparator

theorem ne_nil_of_mem_pieces (hpiece : word ∈ pieces isSeparator text) : word ≠ [] := by
  simpa using (List.mem_filter.mp hpiece).2

theorem pieces_eq_iff {words : List (List Char)} :
    pieces isSeparator text = words ↔ Pieces isSeparator text words :=
  ⟨fun hpieces => hpieces ▸ pieces_pieces isSeparator text, Pieces.pieces_eq⟩

end Tomasulo.Text
