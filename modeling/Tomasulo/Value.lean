import Tomasulo.Decimal.Layout

/-!
# Displayed values

Every simulated quantity is a double.  Two texts of a value are in use: the full one, with the
fewest digits that read back and no power of ten, and the short one of narration and dumps, which
keeps one digit after the point unless the value is integral.
-/

namespace Tomasulo.Value

/-- Full texts never use a power of ten, and a half goes to the larger decimal. -/
def fullLayout : Decimal.Layout where
  tie := .up
  positionalFrom := none
  positionalTo := none
  pointZero := false
  notANumber := "NaN"
  infinity := "inf"
  negativeInfinity := "-inf"

/-- The text of a value that reads back to it. -/
def full (x : Float) : String :=
  fullLayout.render x

/-- The text of a value in narration: integral and non-finite values in full, all others rounded
to one digit after the point. -/
def short (x : Float) : String :=
  if x.isNaN || x.isInf || (Decimal.Magnitude.ofFloat x).isIntegral then full x
  else Decimal.fixed 1 x

/-- The text of a value that may be absent. -/
def shortOrDash : Option Float → String
  | none => "-"
  | some x => short x

end Tomasulo.Value
