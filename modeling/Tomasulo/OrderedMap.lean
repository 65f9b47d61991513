/-!
# Maps kept in key order

A map is the list of its entries, ascending by key under a comparison that the type names.  Each key
occurs once, so two maps with the same content are the same list.  Lookups and insertions walk the
list; the maps of a machine have as many entries as a program has names.

A lookup after an insertion is given by `find?_insert`, and `eq_of_find?_eq` says that lookups
determine a map.
-/

namespace Tomasulo

/-- Finite maps whose entries stand in ascending key order. -/
structure OrderedMap (κ : Type) (β : Type) (cmp : κ → κ → Ordering) where
  entries : List (κ × β)
  ascending : entries.Pairwise fun a b => cmp a.1 b.1 = .lt

namespace OrderedMap

variable {κ β γ : Type} {cmp : κ → κ → Ordering}

/-- The map without entries. -/
def empty : OrderedMap κ β cmp :=
  ⟨[], .nil⟩

instance : Inhabited (OrderedMap κ β cmp) :=
  ⟨empty⟩

instance [BEq κ] [BEq β] : BEq (OrderedMap κ β cmp) :=
  ⟨fun a b => a.entries == b.entries⟩

/-- The value stored under a key. -/
def find? (map : OrderedMap κ β cmp) (key : κ) : Option β :=
  (map.entries.find? fun entry => cmp key entry.1 == .eq).map Prod.snd

/-- Whether a key has a value. -/
def contains (map : OrderedMap κ β cmp) (key : κ) : Bool :=
  map.entries.any fun entry => cmp key entry.1 == .eq

/-- The keys in ascending order. -/
def keys (map : OrderedMap κ β cmp) : List κ :=
  map.entries.map Prod.fst

/-- The number of entries. -/
def size (map : OrderedMap κ β cmp) : Nat :=
  map.entries.length

/-- Puts an entry in its place, over an entry with the same key if there is one. -/
def insertEntry (cmp : κ → κ → Ordering) (key : κ) (value : β) : List (κ × β) → List (κ × β)
  | [] => [(key, value)]
  | entry :: rest =>
      match cmp key entry.1 with
      | .lt => (key, value) :: entry :: rest
      | .eq => (key, value) :: rest
      | .gt => entry :: insertEntry cmp key value rest

theorem mem_insertEntry {key : κ} {value : β} {x : κ × β} {entries : List (κ × β)}
    (h : x ∈ insertEntry cmp key value entries) : x = (key, value) ∨ x ∈ entries := by
  induction entries with
  | nil => simpa [insertEntry] using h
  | cons entry rest ih =>
    rw [insertEntry] at h
    split at h
    · simpa using h
    · rcases List.mem_cons.1 h with h | h
      · exact .inl h
      · exact .inr (.tail _ h)
    · rcases List.mem_cons.1 h with h | h
      · exact .inr (h ▸ .head _)
      · exact (ih h).imp_right (.tail _)

theorem ascending_insertEntry [Std.TransCmp cmp] {key : κ} {value : β} {entries : List (κ × β)}
    (h : entries.Pairwise fun a b => cmp a.1 b.1 = .lt) :
    (insertEntry cmp key value entries).Pairwise fun a b => cmp a.1 b.1 = .lt := by
  induction entries with
  | nil => simp [insertEntry]
  | cons entry rest ih =>
    obtain ⟨above, ascending⟩ := List.pairwise_cons.1 h
    rw [insertEntry]
    split
    case h_1 below =>
      refine List.pairwise_cons.2 ⟨fun x hx => ?_, h⟩
      rcases List.mem_cons.1 hx with rfl | hx
      · exact below
      · exact Std.TransCmp.lt_trans below (above x hx)
    case h_2 same =>
      exact List.pairwise_cons.2
        ⟨fun x hx => Std.TransCmp.lt_of_eq_of_lt same (above x hx), ascending⟩
    case h_3 beyond =>
      refine List.pairwise_cons.2 ⟨fun x hx => ?_, ih ascending⟩
      rcases mem_insertEntry hx with rfl | hx
      · exact Std.OrientedCmp.lt_of_gt beyond
      · exact above x hx

/-- Stores a value under a key, in place of any value the key had. -/
def insert [Std.TransCmp cmp] (map : OrderedMap κ β cmp) (key : κ) (value : β) :
    OrderedMap κ β cmp :=
  ⟨insertEntry cmp key value map.entries, ascending_insertEntry map.ascending⟩

/-- Applies a function to every value. -/
def mapValues (f : β → γ) (map : OrderedMap κ β cmp) : OrderedMap κ γ cmp :=
  ⟨map.entries.map fun entry => (entry.1, f entry.2), map.ascending.map _ fun _ _ h => h⟩

/-- Stores the entries of a list one after the other. -/
def ofList [Std.TransCmp cmp] (entries : List (κ × β)) : OrderedMap κ β cmp :=
  entries.foldl (fun map entry => map.insert entry.1 entry.2) empty

/-! ### Lookups -/

@[ext] theorem ext {a b : OrderedMap κ β cmp} (h : a.entries = b.entries) : a = b := by
  cases a
  cases b
  simpa using h

@[simp] theorem find?_empty (key : κ) : (empty : OrderedMap κ β cmp).find? key = none :=
  rfl

theorem find?_insertEntry [Std.TransCmp cmp] {key : κ} {value : β} (other : κ)
    (entries : List (κ × β)) :
    (insertEntry cmp key value entries).find? (fun entry => cmp other entry.1 == .eq) =
      if cmp other key = .eq then some (key, value)
      else entries.find? (fun entry => cmp other entry.1 == .eq) := by
  induction entries with
  | nil => by_cases same : cmp other key = .eq <;> simp [insertEntry, same]
  | cons entry rest ih =>
    rw [insertEntry]
    by_cases same : cmp other key = .eq
    · have swap : cmp other entry.1 = cmp key entry.1 := Std.TransCmp.congr_left same
      cases order : cmp key entry.1 <;> simp [same, swap, order, ih]
    · cases order : cmp key entry.1 with
      | lt => simp [same]
      | gt => simp [same, ih, List.find?_cons]
      | eq =>
        have swap : cmp other key = cmp other entry.1 := Std.TransCmp.congr_right order
        have apart : cmp other entry.1 ≠ .eq := swap ▸ same
        simp [same, apart]

/-- Only the stored key reads differently after a value is stored. -/
theorem find?_insert [Std.TransCmp cmp] (map : OrderedMap κ β cmp) (key other : κ) (value : β) :
    (map.insert key value).find? other =
      if cmp other key = .eq then some value else map.find? other := by
  simp only [find?, insert, find?_insertEntry]
  split <;> rfl

theorem find?_mapValues (f : β → γ) (map : OrderedMap κ β cmp) (key : κ) :
    (map.mapValues f).find? key = (map.find? key).map f := by
  simp [find?, mapValues, List.find?_map, Function.comp_def]

theorem contains_eq_isSome_find? (map : OrderedMap κ β cmp) (key : κ) :
    map.contains key = (map.find? key).isSome := by
  rw [Bool.eq_iff_iff]
  simp [contains, find?]

theorem find?_eq_some_iff [Std.TransCmp cmp] [Std.LawfulEqCmp cmp] (map : OrderedMap κ β cmp)
    (key : κ) (value : β) : map.find? key = some value ↔ (key, value) ∈ map.entries := by
  obtain ⟨entries, ascending⟩ := map
  simp only [find?]
  induction entries with
  | nil => simp
  | cons entry rest ih =>
    obtain ⟨above, ascending⟩ := List.pairwise_cons.1 ascending
    rw [List.find?_cons]
    by_cases same : cmp key entry.1 = .eq
    · obtain rfl := Std.LawfulEqCmp.eq_of_compare same
      have absent : (entry.1, value) ∉ rest := fun member => by
        simpa [Std.ReflCmp.compare_self] using above _ member
      simp [same, absent, Prod.ext_iff, eq_comm]
    · have apart : key ≠ entry.1 := fun equal => same (equal ▸ Std.ReflCmp.compare_self)
      rw [beq_eq_false_iff_ne.2 same]
      simpa [Prod.ext_iff, apart] using ih ascending

/-- Two ascending lists of the same entries are the same list. -/
theorem eq_of_mem_iff [Std.TransCmp cmp] {a b : List (κ × β)}
    (ha : a.Pairwise fun x y => cmp x.1 y.1 = .lt) (hb : b.Pairwise fun x y => cmp x.1 y.1 = .lt)
    (h : ∀ entry, entry ∈ a ↔ entry ∈ b) : a = b := by
  induction a generalizing b with
  | nil =>
    refine (List.eq_nil_iff_forall_not_mem.2 fun entry member => ?_).symm
    simpa using (h entry).2 member
  | cons first rest ih =>
    cases b with
    | nil => simpa using (h first).1 (.head _)
    | cons other others =>
      obtain ⟨aboveA, ascendingA⟩ := List.pairwise_cons.1 ha
      obtain ⟨aboveB, ascendingB⟩ := List.pairwise_cons.1 hb
      have irrefl (x : κ × β) : cmp x.1 x.1 ≠ .lt := by simp [Std.ReflCmp.compare_self]
      have same : first = other := by
        rcases List.mem_cons.1 ((h first).1 (.head _)) with equal | below
        · exact equal
        · rcases List.mem_cons.1 ((h other).2 (.head _)) with equal | beyond
          · exact equal.symm
          · exact absurd (Std.TransCmp.lt_trans (aboveA _ beyond) (aboveB _ below)) (irrefl first)
      subst same
      refine congrArg (first :: ·) (ih ascendingA ascendingB fun entry => ⟨?_, ?_⟩) <;>
        intro member
      · rcases List.mem_cons.1 ((h entry).1 (.tail _ member)) with rfl | found
        · exact absurd (aboveA _ member) (irrefl _)
        · exact found
      · rcases List.mem_cons.1 ((h entry).2 (.tail _ member)) with rfl | found
        · exact absurd (aboveB _ member) (irrefl _)
        · exact found

/-- Two maps with the same content are the same map. -/
theorem eq_of_find?_eq [Std.TransCmp cmp] [Std.LawfulEqCmp cmp] {a b : OrderedMap κ β cmp}
    (h : ∀ key, a.find? key = b.find? key) : a = b :=
  ext <| eq_of_mem_iff a.ascending b.ascending fun entry => by
    rw [← find?_eq_some_iff a, ← find?_eq_some_iff b, h]

end OrderedMap

end Tomasulo
