import Mathlib.Data.Rat.Floor

/-!
# Single-Precision Numbers

IEEE 754 numbers of 32 bits by their bits, and what of their arithmetic is exact: every finite one
stands for a rational number, comparing and clamping them is comparing and clamping these, and
rounding to an integer is exact as long as the integer is small.

## Main results

* `le_round`, `round_le`: rounding to the nearest integer does not leave a range of integers.
-/

/-- A number of 32 bits: the sign, eight bits of exponent, 23 bits of fraction. -/
structure Binary32 where
  bits : BitVec 32
  deriving DecidableEq, Repr

namespace Binary32

variable (x : Binary32)

/-- The sign bit. -/
def negative : Bool := x.bits.msb

/-- The eight bits of the exponent. -/
def exponent : Nat := x.bits.toNat / 2 ^ 23 % 2 ^ 8

/-- The 23 bits of the fraction. -/
def fraction : Nat := x.bits.toNat % 2 ^ 23

/-- Neither infinite nor undefined. -/
def isFinite : Bool := x.exponent != 255

/-- The value of a finite number. -/
def value : ℚ :=
  let magnitude : ℚ :=
    if x.exponent = 0 then x.fraction / 2 ^ 149
    else (2 ^ 23 + x.fraction) * 2 ^ x.exponent / 2 ^ 150
  if x.negative then -magnitude else magnitude

example : value ⟨0x40a00000⟩ = 5 := by decide +kernel

/-- To the nearest integer, halves away from zero. -/
def round (q : ℚ) : ℤ := if 0 ≤ q then ⌊q + 1 / 2⌋ else -⌊-q + 1 / 2⌋

/-- Rounding does not go below a natural number. -/
theorem le_round {m : ℕ} {q : ℚ} (h : (m : ℚ) ≤ q) : (m : ℤ) ≤ round q := by
  have hq : 0 ≤ q := le_trans (Nat.cast_nonneg m) h
  rw [round, if_pos hq, Int.le_floor]
  push_cast
  linarith

/-- Rounding does not go above a natural number. -/
theorem round_le {m : ℕ} {q : ℚ} (hq : 0 ≤ q) (h : q ≤ m) : round q ≤ m := by
  rw [round, if_pos hq, ← Int.lt_add_one_iff, Int.floor_lt]
  push_cast
  linarith

end Binary32
