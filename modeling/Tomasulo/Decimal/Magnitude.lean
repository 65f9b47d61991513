import Tomasulo.Text.Numeral

/-!
# Finite doubles as exact numbers

A finite binary64 value is a sign and a natural multiple of a power of two.  This module reads both
from the bits, so that every printed digit and every truncation is decided by exact arithmetic on
naturals.  Not-a-number and the infinities have no magnitude; callers test for them first.
-/

namespace Tomasulo.Decimal

/-- The absolute value of a finite double, `mantissa * 2 ^ exponent`. -/
structure Magnitude where
  mantissa : Nat
  exponent : Int
  /-- Whether the neighbour below is only half as far away as the neighbour above. -/
  narrowBelow : Bool
deriving DecidableEq

/-- A power of a natural; one if the exponent is negative. -/
def power (base : Nat) (exponent : Int) : Nat :=
  Nat.pow base exponent.toNat

/-- Reads a magnitude from the exponent and fraction fields of the bits. -/
def Magnitude.ofBits (bits : UInt64) : Magnitude :=
  let field := ((bits >>> 52) &&& 0x7FF).toNat
  let fraction := (bits &&& 0xFFFFFFFFFFFFF).toNat
  if field = 0 then
    { mantissa := fraction, exponent := -1074, narrowBelow := false }
  else
    { mantissa := 0x10000000000000 + fraction
      exponent := (field : Int) - 1075
      narrowBelow := fraction == 0 && field != 1 }

/-- The magnitude of a finite double. -/
def Magnitude.ofFloat (x : Float) : Magnitude :=
  .ofBits x.toBits

/-- A magnitude is the quotient `numerator / denominator` of two naturals. -/
def Magnitude.numerator (m : Magnitude) : Nat :=
  m.mantissa * power 2 m.exponent

/-- The power of two that a magnitude is divided by. -/
def Magnitude.denominator (m : Magnitude) : Nat :=
  power 2 (-m.exponent)

/-- Whether a magnitude has no fractional part. -/
def Magnitude.isIntegral (m : Magnitude) : Bool :=
  m.numerator % m.denominator == 0

theorem Magnitude.denominator_pos (m : Magnitude) : 0 < m.denominator :=
  Nat.pow_pos (by decide)

/-- Whether the sign bit is set; it is for `-0` too. -/
def isNegative (x : Float) : Bool :=
  x.toBits >>> 63 == 1

/-- The integer part of a double as a signed 64-bit word: fractions are cut toward zero, values
beyond a word stop at the nearest word, and not-a-number counts as zero. -/
def truncate (x : Float) : Int :=
  if x.isNaN then 0
  else if x.isInf then if isNegative x then Word.least else Word.greatest
  else
    let m := Magnitude.ofFloat x
    let whole : Int := m.numerator / m.denominator
    if isNegative x then max Word.least (-whole) else min Word.greatest whole

/-- A quotient rounded to an integer, an exact half going to the even neighbour. -/
def roundDiv (num den : Nat) : Nat :=
  let quotient := num / den
  match compare (2 * (num % den)) den with
  | .lt => quotient
  | .gt => quotient + 1
  | .eq => if quotient % 2 = 0 then quotient else quotient + 1

/-- A rounded quotient is at most half a unit away from the exact one. -/
theorem roundDiv_near (num : Nat) {den : Nat} (h : 0 < den) :
    2 * num ≤ den * (2 * roundDiv num den + 1) ∧ den * (2 * roundDiv num den) ≤ 2 * num + den := by
  have whole := Nat.div_add_mod num den
  have small := Nat.mod_lt num h
  rw [roundDiv, Nat.mul_add, Nat.mul_left_comm, Nat.mul_one]
  split
  case h_1 below =>
    have below := Nat.compare_eq_lt.1 below
    omega
  case h_2 above =>
    have above := Nat.compare_eq_gt.1 above
    rw [Nat.mul_add, Nat.mul_one]
    omega
  case h_3 half =>
    have half := Nat.compare_eq_eq.1 half
    split
    · omega
    · rw [Nat.mul_add, Nat.mul_one]
      omega

/-- An exact half goes to an even number. -/
theorem roundDiv_half {num den : Nat} (h : 2 * (num % den) = den) : roundDiv num den % 2 = 0 := by
  rw [roundDiv, h, Nat.compare_eq_eq.2 rfl]
  dsimp only
  split <;> omega

end Tomasulo.Decimal
