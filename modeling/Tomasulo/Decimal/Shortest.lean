import Tomasulo.Decimal.Magnitude

/-!
# The fewest digits that read back

The reals that round to a finite double form an interval around it, ends included exactly when the
mantissa is even.  For one digit, two digits and so on, the two neighbours of the value on that
decimal grid are tested against the interval; the first grid with a hit decides, the nearer of two
hits wins, and a caller-supplied rule settles an exact tie.
-/

namespace Tomasulo.Decimal

/-- Which of two equally near candidates is taken. -/
inductive Tie where
  | toEven
  | up
deriving DecidableEq

/-- A decimal number `digits * 10 ^ exponent`. -/
structure Scaled where
  digits : Nat
  exponent : Int
deriving DecidableEq

/-- Compares `a * 10 ^ i` with `b * 2 ^ j`. -/
def compareScaled (a : Nat) (i : Int) (b : Nat) (j : Int) : Ordering :=
  compare (a * power 10 i * power 2 (-j)) (b * power 2 j * power 10 (-i))

/-- Whether a decimal rounds to the given magnitude, halves going to the even mantissa. -/
def Magnitude.readsBack (m : Magnitude) (d : Scaled) : Bool :=
  let low := if m.narrowBelow then 4 * m.mantissa - 1 else 4 * m.mantissa - 2
  let high := 4 * m.mantissa + 2
  let closed := m.mantissa % 2 == 0
  let above := compareScaled d.digits d.exponent low (m.exponent - 2)
  let below := compareScaled d.digits d.exponent high (m.exponent - 2)
  (above == .gt || (closed && above == .eq)) && (below == .lt || (closed && below == .eq))

/-- Counts the decimal digits of a natural below `10 ^ fuel`, and none for zero. -/
def digitCount : Nat → Nat → Nat
  | 0, _ => 0
  | fuel + 1, n => if n = 0 then 0 else digitCount fuel (n / 10) + 1

/-- Counts how often `num` has to be multiplied by ten to reach `den`, up to `fuel` times. -/
def leadingZeros : Nat → Nat → Nat → Nat
  | 0, _, _ => 0
  | fuel + 1, num, den => if den ≤ num then 0 else leadingZeros fuel (10 * num) den + 1

/-- The least `k` with the magnitude below `10 ^ k`, for a magnitude that is not zero. -/
def Magnitude.scale (m : Magnitude) : Int :=
  let whole := m.numerator / m.denominator
  if whole = 0 then 1 - leadingZeros 400 m.numerator m.denominator
  else digitCount 400 whole

/-- The nearest neighbour on the grid `10 ^ exponent` that reads back, if one of the two does. -/
def Magnitude.onGrid? (m : Magnitude) (tie : Tie) (exponent : Int) : Option Scaled :=
  let lower := m.numerator * power 10 (-exponent) / (m.denominator * power 10 exponent)
  let below : Scaled := ⟨lower, exponent⟩
  let above : Scaled := ⟨lower + 1, exponent⟩
  match m.readsBack below, m.readsBack above with
  | false, false => none
  | true, false => some below
  | false, true => some above
  | true, true =>
      match compareScaled (2 * lower + 1) exponent (2 * m.mantissa) m.exponent with
      | .lt => some above
      | .gt => some below
      | .eq =>
          match tie with
          | .up => some above
          | .toEven => if lower % 2 = 0 then some below else some above

/-- The exact decimal value of a magnitude. -/
def Magnitude.exact (m : Magnitude) : Scaled :=
  if 0 ≤ m.exponent then ⟨m.numerator, 0⟩
  else ⟨m.mantissa * power 5 (-m.exponent), m.exponent⟩

/-- Moves trailing zeros of the digits into the exponent, up to `fuel` of them. -/
def Scaled.strip : Nat → Scaled → Scaled
  | 0, d => d
  | fuel + 1, d =>
      if d.digits ≠ 0 ∧ d.digits % 10 = 0 then strip fuel ⟨d.digits / 10, d.exponent + 1⟩
      else d

/-- The shortest decimal that reads back as the given magnitude. -/
def Magnitude.shortest (m : Magnitude) (tie : Tie) : Scaled :=
  if m.mantissa = 0 then ⟨0, 0⟩
  else
    let scale := m.scale
    let grids := (List.range 17).map fun n => scale - (n + 1 : Nat)
    ((grids.findSome? (m.onGrid? tie)).getD m.exact).strip 400

end Tomasulo.Decimal
