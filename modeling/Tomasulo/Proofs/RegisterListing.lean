import Mathlib.Data.List.Sort
import Mathlib.Data.String.Basic
import Mathlib.Tactic
import Tomasulo.Proofs.Storage

/-!
# The order of register listings

`displayOrder` compares names by a key from which the places of the digits cannot be told, and then by the whole
names.  So it is a total order in which only equal names are equal, whatever their digits look like
(`displayOrder_lt_iff` says when one name stands before another).

A file has been made by a history of changes.  What it holds under a name is told by the changes alone
(`contentAfter`), and the listing is the one list of these contents in display order: it can also be had from a
table in the order of the strings, by sorting when it is listed.  The same is true of the names that a station
gives a value to.

Main statement: `register_listing`.
-/

namespace Tomasulo

/-! ## Display order -/

/-- A comparison of names is a total order in which only equal names are equal. -/
structure OrdersNames (order : String → String → Ordering) : Prop where
  eq_iff : ∀ a b, order a b = .eq ↔ a = b
  swap : ∀ a b, order b a = (order a b).swap
  trans : ∀ a b c, order a b = .lt → order b c = .lt → order a c = .lt

theorem displayOrder_eq_iff (a b : String) : displayOrder a b = .eq ↔ a = b :=
  Std.LawfulEqCmp.compare_eq_iff_eq

/-- Names stand in the order of their letters, then of their numbers, then of their characters. -/
theorem displayOrder_lt_iff (a b : String) : displayOrder a b = .lt ↔
    nameLetters a < nameLetters b ∨ nameLetters a = nameLetters b ∧
      (nameNumber a < nameNumber b ∨ nameNumber a = nameNumber b ∧ a < b) := by
  simp only [displayOrder, compareLex, compareOn, Ordering.then_eq_lt, compare_lt_iff_lt, compare_eq_iff_eq]

theorem ordersNames_displayOrder : OrdersNames displayOrder where
  eq_iff := displayOrder_eq_iff
  swap _ _ := Std.OrientedCmp.eq_swap
  trans _ _ _ := Std.TransCmp.lt_trans

/-- Whether a name may stand before another one in a listing. -/
def listedBefore (a b : String) : Bool :=
  (displayOrder a b).isLE

theorem listedBefore_total (a b : String) : (listedBefore a b || listedBefore b a) = true := by
  rw [listedBefore, listedBefore, ordersNames_displayOrder.swap a b]
  cases displayOrder a b <;> rfl

section Sorting

variable {α : Type} (key : α → String) {collected sorted : List α}

theorem nodup_of_ascending (hsorted : sorted.Pairwise fun a b => displayOrder (key a) (key b) = .lt) :
    (sorted.map key).Nodup := by
  refine List.pairwise_map.mpr (hsorted.imp fun hlt hsame => ?_)
  rw [(displayOrder_eq_iff ..).mpr hsame] at hlt
  cases hlt

/-- Sorting things by their names gives the one list of them in which the names ascend. -/
theorem mergeSort_eq_of_perm (hperm : collected.Perm sorted)
    (hsorted : sorted.Pairwise fun a b => displayOrder (key a) (key b) = .lt) :
    (collected.mergeSort fun a b => listedBefore (key a) (key b)) = sorted := by
  have hpairwise : (collected.mergeSort fun a b => listedBefore (key a) (key b)).Pairwise
      fun a b => listedBefore (key a) (key b) = true :=
    List.pairwise_mergeSort (fun _ _ _ => Std.TransCmp.isLE_trans)
      (fun a b => listedBefore_total (key a) (key b)) collected
  have hall := (collected.mergeSort_perm fun a b => listedBefore (key a) (key b)).trans hperm
  refine hall.eq_of_pairwise (fun a b hmember hother hle hge => ?_) hpairwise
    (hsorted.imp fun hlt => by rw [listedBefore, hlt]; rfl)
  have hsame : key a = key b := (displayOrder_eq_iff ..).mp (Std.OrientedCmp.isLE_antisymm hle hge)
  exact List.inj_on_of_nodup_map (nodup_of_ascending key hsorted) (hall.mem_iff.mp hmember) hother hsame

end Sorting

/-! ## Histories -/

namespace OrderedMap

variable {κ β : Type} {cmp cmp' : κ → κ → Ordering} [Std.TransCmp cmp] [Std.LawfulEqCmp cmp]
  [Std.TransCmp cmp'] [Std.LawfulEqCmp cmp']

omit [Std.LawfulEqCmp cmp] in
theorem nodup_entries (map : OrderedMap κ β cmp) : map.entries.Nodup := by
  refine map.ascending.imp fun {first second} hlt hsame => ?_
  have hself : cmp second.1 second.1 = .eq := Std.ReflCmp.compare_self
  rw [hsame, hself] at hlt
  cases hlt

/-- The same content in another order is a permutation. -/
theorem perm_of_find?_eq {map : OrderedMap κ β cmp} {map' : OrderedMap κ β cmp'}
    (hfind : ∀ key, map.find? key = map'.find? key) : map.entries.Perm map'.entries := by
  refine (List.perm_ext_iff_of_nodup map.nodup_entries map'.nodup_entries).mpr fun ⟨key, value⟩ => ?_
  rw [← find?_eq_some_iff, ← find?_eq_some_iff, hfind]

end OrderedMap

namespace RegisterFile

/-- A change of a register file. -/
inductive Change where
  | insert (name : String) (register : Register)
  | write (name : String) (value : Float)
  | await (name : String) (station : Nat)
  | receive (station : Nat) (value : Float)

namespace Change

/-- Carries a change out. -/
def apply (file : RegisterFile) : Change → RegisterFile
  | insert name register => OrderedMap.insert file name register
  | write name value => file.write name value
  | await name station => file.await name station
  | receive station value => file.receive station value

/-- Carries a change out in a table that is kept in the order of the strings. -/
def record (table : OrderedMap String Register compare) : Change → OrderedMap String Register compare
  | insert name register => table.insert name register
  | write name value => table.insert name (.ready value)
  | await name station => table.insert name (.pending station)
  | receive station value => table.mapValues (Register.receive station value)

/-- What becomes of the content of a name; there is none as long as the name has not been used. -/
def on (name : String) (content : Option Register) : Change → Option Register
  | insert other register => if name = other then some register else content
  | write other value => if name = other then some (.ready value) else content
  | await other station => if name = other then some (.pending station) else content
  | receive station value => content.map (Register.receive station value)

variable (name : String) (change : Change)

theorem find?_apply (file : RegisterFile) :
    (change.apply file).find? name = change.on name (file.find? name) := by
  cases change with
  | insert other register => exact file.find?_insert_eq_ite ..
  | write other value => exact file.find?_insert_eq_ite ..
  | await other station => exact file.find?_insert_eq_ite ..
  | receive station value => exact file.find?_mapValues ..

theorem find?_record (table : OrderedMap String Register compare) :
    (change.record table).find? name = change.on name (table.find? name) := by
  cases change with
  | insert other register => exact table.find?_insert_eq_ite ..
  | write other value => exact table.find?_insert_eq_ite ..
  | await other station => exact table.find?_insert_eq_ite ..
  | receive station value => exact table.find?_mapValues ..

end Change

/-- The file that a history of changes makes from an empty one. -/
def replay (history : List Change) : RegisterFile :=
  history.foldl Change.apply .empty

/-- The table that a history of changes makes from an empty one. -/
def table (history : List Change) : OrderedMap String Register compare :=
  history.foldl Change.record .empty

/-- What a name holds after a history of changes. -/
def contentAfter (history : List Change) (name : String) : Option Register :=
  history.foldl (Change.on name) none

section Replaying

variable (history : List Change) (name : String)

theorem find?_replay : (replay history).find? name = contentAfter history name :=
  (List.foldl_hom (fun file : RegisterFile => file.find? name)
    fun file change => (change.find?_apply name file).symm).symm

theorem find?_table : (table history).find? name = contentAfter history name :=
  (List.foldl_hom (fun table : OrderedMap String Register compare => table.find? name)
    fun table change => (change.find?_record name table).symm).symm

theorem perm_table_replay : (table history).entries.Perm (replay history).entries :=
  OrderedMap.perm_of_find?_eq fun name => by rw [find?_table, find?_replay]

end Replaying

/-! ## Listings -/

/-- A list has the content of every name in use, once, and the names ascend. -/
structure Enumerates (content : String → Option Register) (entries : List (String × Register)) : Prop where
  mem_iff : ∀ name register, (name, register) ∈ entries ↔ content name = some register
  once : (entries.map Prod.fst).Nodup
  ascending : entries.Pairwise fun a b => displayOrder a.1 b.1 = .lt

/-- Between two files the registers in a list of names were given a value that they waited for, and no other one
changed. -/
structure Resolves (before after : RegisterFile) (station : Nat) (value : Float) (updated : List String) :
    Prop where
  mem_iff : ∀ name, name ∈ updated ↔ before.find? name = some (.pending station)
  once : updated.Nodup
  ascending : updated.Pairwise fun a b => displayOrder a b = .lt
  given : ∀ name ∈ updated, after.find? name = some (.ready value)
  kept : ∀ name ∉ updated, after.find? name = before.find? name

theorem enumerates_entries (file : RegisterFile) : Enumerates file.find? file.entries where
  mem_iff name register := (file.find?_eq_some_iff name register).symm
  once := nodup_of_ascending Prod.fst file.ascending
  ascending := file.ascending

section Resolving

variable (file : RegisterFile) (station : Nat) (value : Float) (name : String)

/-- The names that wait for a station, in the order of a list of registers. -/
def waiting (station : Nat) (entries : List (String × Register)) : List String :=
  (entries.filter fun entry => entry.2.producer? == some station).map Prod.fst

theorem producer?_eq_some_iff {register : Register} :
    register.producer? = some station ↔ register = .pending station := by
  cases register <;> simp [Register.producer?]

theorem mem_awaiting_iff : name ∈ file.awaiting station ↔ file.find? name = some (.pending station) := by
  simp only [awaiting, List.mem_map, List.mem_filter, beq_iff_eq, producer?_eq_some_iff, Prod.exists,
    exists_and_right, exists_eq_right, OrderedMap.find?_eq_some_iff]

theorem ascending_awaiting : (file.awaiting station).Pairwise fun a b => displayOrder a b = .lt :=
  List.pairwise_map.mpr (file.ascending.filter _)

theorem resolves_receive :
    Resolves file (file.receive station value) station value (file.awaiting station) where
  mem_iff := file.mem_awaiting_iff station
  once := by simpa using nodup_of_ascending id (file.ascending_awaiting station)
  ascending := file.ascending_awaiting station
  given name hname := by
    rw [receive, file.find?_mapValues, (file.mem_awaiting_iff station name).mp hname, Option.map_some,
      Register.receive_pending, if_pos rfl]
  kept name hname := by
    rw [mem_awaiting_iff] at hname
    rw [receive, file.find?_mapValues]
    cases hfound : file.find? name with
    | none => rfl
    | some register =>
        cases register with
        | empty => rfl
        | ready held => rfl
        | pending other =>
            have hother : other ≠ station := by
              rintro rfl
              exact hname hfound
            rw [Option.map_some, Register.receive_pending, if_neg hother]

end Resolving

end RegisterFile

/-! ## Main statement -/

/-- Display order is a total order in which only equal names are equal.  After any history of changes, a listing
of the registers has every name in use once, with its content, in that order; it is what sorting a table of the
registers gives, and it is the same for all histories with the same contents.  A published value is received by
the registers that wait for its station and by no others, and their names ascend, as sorted from the table. -/
theorem register_listing (history : List RegisterFile.Change) :
    OrdersNames displayOrder ∧
      RegisterFile.Enumerates (RegisterFile.contentAfter history) (RegisterFile.replay history).entries ∧
      ((RegisterFile.table history).entries.mergeSort fun a b => listedBefore a.1 b.1) =
        (RegisterFile.replay history).entries ∧
      (∀ other, RegisterFile.contentAfter other = RegisterFile.contentAfter history →
        RegisterFile.replay other = RegisterFile.replay history) ∧
      ∀ station value,
        RegisterFile.Resolves (RegisterFile.replay history)
          ((RegisterFile.replay history).receive station value) station value
          ((RegisterFile.replay history).awaiting station) ∧
        ((RegisterFile.waiting station (RegisterFile.table history).entries).mergeSort listedBefore) =
          (RegisterFile.replay history).awaiting station := by
  have hcontent : (RegisterFile.replay history).find? = RegisterFile.contentAfter history :=
    funext (RegisterFile.find?_replay history)
  have hperm := RegisterFile.perm_table_replay history
  refine ⟨ordersNames_displayOrder, hcontent ▸ RegisterFile.enumerates_entries _,
    mergeSort_eq_of_perm Prod.fst hperm (RegisterFile.replay history).ascending, fun other hsame => ?_,
    fun station value => ⟨RegisterFile.resolves_receive .., ?_⟩⟩
  · refine OrderedMap.eq_of_find?_eq fun name => ?_
    rw [RegisterFile.find?_replay, RegisterFile.find?_replay, hsame]
  · exact mergeSort_eq_of_perm id ((hperm.filter _).map _)
      (RegisterFile.ascending_awaiting _ station)

namespace Swapped

/-- A name whose number is smaller comes later. -/
def history : List RegisterFile.Change :=
  [.await "f10" 1, .insert "f2" .empty, .write "f2" 4]

def other : List RegisterFile.Change :=
  [.write "f2" 4, .await "f10" 1]

theorem contentAfter_other : RegisterFile.contentAfter other = RegisterFile.contentAfter history := by
  funext name
  simp only [RegisterFile.contentAfter, other, history, List.foldl_cons, List.foldl_nil,
    RegisterFile.Change.on]
  by_cases hname : name = "f2"
  · subst hname
    rfl
  · simp only [if_neg hname]

end Swapped

/-- Both histories lead to one listing, and a result of the station goes to the register behind. -/
theorem register_listing_swapped :
    RegisterFile.contentAfter Swapped.other = RegisterFile.contentAfter Swapped.history ∧
      RegisterFile.replay Swapped.other = RegisterFile.replay Swapped.history ∧
      (RegisterFile.replay Swapped.history).keys = ["f2", "f10"] ∧
      (RegisterFile.table Swapped.history).keys = ["f10", "f2"] ∧
      (RegisterFile.replay Swapped.history).awaiting 1 = ["f10"] := by
  obtain ⟨-, -, -, hsame, -⟩ := register_listing Swapped.history
  exact ⟨Swapped.contentAfter_other, hsame _ Swapped.contentAfter_other, by decide +kernel,
    by decide +kernel, by decide +kernel⟩

end Tomasulo
