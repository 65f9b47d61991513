import Mathlib.Tactic
import Tomasulo.Memory
import Tomasulo.Register

/-!
# Lookups in registers and memory

Register files and memories are maps in key order.  The machine reads them by name and by address only,
so each update is given here by what later lookups find.  A register that a file does not know reads as
one without a value, and a cell that memory lists without a value reads like one it does not list.
-/

namespace Tomasulo

namespace OrderedMap

variable {κ β : Type} {cmp : κ → κ → Ordering} [Std.TransCmp cmp] [Std.LawfulEqCmp cmp]

theorem find?_insert_self (map : OrderedMap κ β cmp) (key : κ) (value : β) :
    (map.insert key value).find? key = some value := by
  rw [find?_insert, if_pos Std.ReflCmp.compare_self]

theorem find?_insert_of_ne (map : OrderedMap κ β cmp) {key other : κ} (value : β)
    (hother : other ≠ key) : (map.insert key value).find? other = map.find? other := by
  rw [find?_insert, if_neg fun hsame => hother (Std.LawfulEqCmp.eq_of_compare hsame)]

theorem find?_insert_eq_ite [DecidableEq κ] (map : OrderedMap κ β cmp) (key other : κ) (value : β) :
    (map.insert key value).find? other = if other = key then some value else map.find? other := by
  by_cases hsame : other = key
  · rw [if_pos hsame, hsame, find?_insert_self]
  · rw [if_neg hsame, find?_insert_of_ne map value hsame]

end OrderedMap

namespace RegisterFile

variable (file : RegisterFile) (name other : String)

theorem get_insert (register : Register) :
    get (file.insert name register) other = if other = name then register else file.get other := by
  unfold get
  rw [OrderedMap.find?_insert_eq_ite]
  split <;> rfl

@[simp]
theorem get_write (value : Float) :
    (file.write name value).get other = if other = name then .ready value else file.get other :=
  file.get_insert name other (.ready value)

@[simp]
theorem get_await (station : Nat) :
    (file.await name station).get other = if other = name then .pending station else file.get other :=
  file.get_insert name other (.pending station)

@[simp]
theorem get_receive (producer : Nat) (value : Float) :
    (file.receive producer value).get name = (file.get name).receive producer value := by
  unfold get receive
  rw [OrderedMap.find?_mapValues]
  cases file.find? name <;> rfl

end RegisterFile

namespace Memory

variable (memory : Memory) (address other : Int)

@[simp]
theorem read_write (value : Float) :
    (memory.write address value).read other =
      if other = address then some value else memory.read other := by
  unfold read write
  rw [OrderedMap.find?_insert_eq_ite]
  split <;> rfl

@[simp]
theorem read_fill (value : Float) :
    (memory.fill address value).read other =
      if other = address then some (memory.readOr address value) else memory.read other := by
  unfold fill readOr
  cases hcell : memory.read address with
  | none => rw [Option.isSome_none, if_neg Bool.false_ne_true, read_write, Option.getD_none]
  | some held =>
      rw [Option.isSome_some, if_pos rfl, Option.getD_some]
      by_cases hsame : other = address
      · rw [if_pos hsame, hsame, hcell]
      · rw [if_neg hsame]

/-- Making an address known is invisible to reading. -/
@[simp]
theorem read_touch : (memory.touch address).read other = memory.read other := by
  unfold touch
  split
  case isTrue => rfl
  case isFalse habsent =>
    rw [OrderedMap.contains_eq_isSome_find?, Bool.not_eq_true, Option.isSome_eq_false_iff,
      Option.isNone_iff_eq_none] at habsent
    unfold read
    by_cases hsame : other = address
    · rw [hsame, OrderedMap.find?_insert_self, habsent]
      rfl
    · rw [OrderedMap.find?_insert_of_ne _ _ hsame]

end Memory

namespace Register

@[simp]
theorem receive_ready (producer : Nat) (value held : Float) :
    (ready held).receive producer value = ready held :=
  rfl

@[simp]
theorem receive_empty (producer : Nat) (value : Float) :
    (empty : Register).receive producer value = empty :=
  rfl

theorem receive_pending (producer station : Nat) (value : Float) :
    (pending station).receive producer value =
      if station = producer then ready value else pending station :=
  rfl

end Register

end Tomasulo
