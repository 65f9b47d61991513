import Tomasulo.Configuration
import Tomasulo.Json.Reader
import Tomasulo.Text.Numeral

/-!
# Configuration documents

A configuration is read from a JSON document of three sections.  Everything may be left out but the
two members of a class of stations that is present.  Members with other names are passed over, a
known name must not occur twice, and an object may also be written as the array of its members in
their order.
-/

namespace Tomasulo

namespace Configuration

/-- The member of a name, absent if there is none and refused if there are several. -/
def member? (members : List (String × Json)) (name : String) : Option (Option Json) :=
  match members.filter (·.1 == name) with
  | [] => some none
  | [(_, value)] => some (some value)
  | _ => none

/-- The members of the given names, each absent or present, from an object or an array. -/
def fields? (names : List String) : Json → Option (List (Option Json))
  | .object members => do
      let members ← members.mapM fun entry => return (← Json.unescape? entry.1, entry.2)
      names.mapM (member? members)
  | .array items =>
      if items.length ≤ names.length then
        some (items.map some ++ List.replicate (names.length - items.length) none)
      else none
  | _ => none

/-- A natural number below a bound, written with digits alone. -/
def natural? (bound : Nat) : Json → Option Nat
  | .number literal =>
      let digits := literal.toList
      if Text.isDecimal digits then
        let n := Text.decimalValue digits
        if n < bound then some n else none
      else none
  | _ => none

/-- The value of a member, or a default for one that is absent. -/
def withDefault {α : Type} (default : α) (read : Json → Option α) : Option Json → Option α
  | none => some default
  | some value => read value

/-- Reads the stations of one class. -/
def bank? (value : Json) : Option Bank := do
  match ← fields? ["count", "delay"] value with
  | [some count, some delay] => return ⟨← natural? Word.limit count, ← natural? Word.halfLimit delay⟩
  | _ => none

/-- Reads the stations of all classes. -/
def banks? (value : Json) : Option Banks := do
  let default : Banks := {}
  match ← fields? ["load", "add", "mul"] value with
  | [load, add, mul] =>
      return { load := ← withDefault default.load bank? load
               add := ← withDefault default.add bank? add
               mul := ← withDefault default.mul bank? mul }
  | _ => none

/-- Reads the section that holds the cap on cycles. -/
def maxCycles? (value : Json) : Option Nat := do
  match ← fields? ["max_cycles"] value with
  | [maxCycles] =>
      withDefault ({} : Configuration).maxCycles (natural? Word.limit) maxCycles
  | _ => none

/-- Reads a window, which may also be null. -/
def window? : Json → Option (Option Nat)
  | .null => some none
  | value => (natural? Word.limit value).map some

/-- Reads the section that holds the length of the lookahead. -/
def queueWindow? (value : Json) : Option (Option Nat) := do
  match ← fields? ["queue_window"] value with
  | [window] => withDefault none window? window
  | _ => none

/-- Reads a configuration without asking whether it is sound. -/
def ofJson? (value : Json) : Option Configuration := do
  let default : Configuration := {}
  match ← fields? ["general", "program", "stations"] value with
  | [general, program, stations] =>
      return { maxCycles := ← withDefault default.maxCycles maxCycles? general
               queueWindow := ← withDefault default.queueWindow queueWindow? program
               stations := ← withDefault default.stations banks? stations }
  | _ => none

/-- Reads a sound configuration from a document. -/
def ofDocument (document : String) : Except ConfigurationError Configuration :=
  match (Json.read? document).bind ofJson? with
  | none => .error .malformed
  | some configuration =>
      match configuration.error? with
      | some error => .error error
      | none => .ok configuration

end Configuration

/-- The object of a class of stations. -/
def Bank.document (bank : Bank) : Json :=
  .ofFields [("count", .ofNat bank.count), ("delay", .ofNat bank.delay)]

/-- The document of a configuration with every member present. -/
def Configuration.document (configuration : Configuration) : Json :=
  .ofFields
    [("general", .ofFields [("max_cycles", .ofNat configuration.maxCycles)]),
      ("program", .ofFields [("queue_window", .ofOption .ofNat configuration.queueWindow)]),
      ("stations",
        .ofFields
          [("load", configuration.stations.load.document),
            ("add", configuration.stations.add.document),
            ("mul", configuration.stations.mul.document)])]

end Tomasulo
