import Tomasulo.Decimal.Layout

/-!
# JSON values

A JSON value keeps its numbers and strings as they are spelled: a number by its literal, a string by
what stands between its quotes.  Objects keep their members in order, repeated names included.  What
a spelling denotes is decided where it is needed.
-/

namespace Tomasulo

/-- A JSON value with spelled scalars. -/
inductive Json where
  | null
  | bool (value : Bool)
  | number (literal : String)
  | string (literal : String)
  | array (items : List Json)
  | object (members : List (String × Json))

namespace Json

/-- Decimal doubles stand positionally, with a point, while the leading digit is at a power of ten
from -5 to 15; a half goes to the even digit, and there is no literal for other values. -/
def numberLayout : Decimal.Layout where
  tie := .toEven
  positionalFrom := some (-5)
  positionalTo := some 15
  pointZero := true
  notANumber := "null"
  infinity := "null"
  negativeInfinity := "null"

/-- An integer. -/
def ofInt (n : Int) : Json :=
  .number (toString n)

/-- A natural number. -/
def ofNat (n : Nat) : Json :=
  .number (toString n)

/-- A double; not-a-number and the infinities become null. -/
def ofFloat (x : Float) : Json :=
  if x.isNaN || x.isInf then .null else .number (numberLayout.render x)

/-- A value that may be absent. -/
def ofOption {α : Type} (f : α → Json) : Option α → Json
  | none => .null
  | some a => f a

/-- A list of values. -/
def ofList {α : Type} (f : α → Json) (items : List α) : Json :=
  .array (items.map f)

end Json

end Tomasulo
