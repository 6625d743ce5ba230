import Mathlib.Data.Rat.Floor
import Mathlib.Algebra.Order.Field.Power

set_option autoImplicit false

/-!
# Numpy scalar arithmetic the writers depend on

Two numpy behaviours matter to `arraywriters.py` beyond exact arithmetic.

* Assigning to `slope` or `inter` stores `scaler_dtype.type(val)`: the value rounded to the
  scaler's binary format, to nearest with ties to even (`roundToFloat`).  Below the least normal
  value the format's spacing stops shrinking (subnormals), so the smallest values round to `0`.
  Overflow to `inf` has no rational value: it is reported separately (`Numerics.isFinite`).
  `roundToSignificand` is the same rounding without a least exponent.
* `abs(mn)` on a numpy integer scalar is `w`-bit two's complement, where the most negative
  value is its own absolute value (`twosAbs`).

Everything here is computable by structural recursion, so concrete cases evaluate.
`Numpy.Rounding` says what the rounding computes.
-/

namespace Nibabel.Numpy

/-- The number of binary digits of `m` (`0` for `0`), given `fuel ≥ m` steps. -/
def bitLengthAux : Nat → Nat → Nat
  | 0, _ => 0
  | fuel + 1, m => if m = 0 then 0 else bitLengthAux fuel (m / 2) + 1

/-- The number of binary digits of `n` (`0` for `0`). -/
def bitLength (n : Nat) : Nat := bitLengthAux n n

/-- `⌊log₂ x⌋` for `0 < x`: with `x = a / b`, it is `len a - len b` or one less. -/
def log2Floor (x : ℚ) : ℤ :=
  let e : ℤ := (bitLength x.num.natAbs : ℤ) - bitLength x.den
  if (2 : ℚ) ^ e ≤ x then e else e - 1

/-- The integer nearest to `x`, ties to even. -/
def roundHalfEven (x : ℚ) : ℤ :=
  let f := ⌊x⌋
  if 2 * (x - f) < 1 then f
  else if 1 < 2 * (x - f) then f + 1
  else if f % 2 = 0 then f else f + 1

/-- `x` rounded to the nearest value whose significand has `p` bits, ties to even: `x` is
scaled into `[2^(p-1), 2^p)`, rounded to an integer there, and scaled back. -/
def roundToSignificand (p : Nat) (x : ℚ) : ℚ :=
  if x = 0 then 0
  else
    let e := log2Floor |x| + 1 - p
    roundHalfEven (x / 2 ^ e) * 2 ^ e

@[simp] theorem roundToSignificand_zero (p : Nat) : roundToSignificand p 0 = 0 := by
  simp [roundToSignificand]

/-- `x` rounded to nearest, ties to even, in the binary format with a `p`-bit significand whose
least normal exponent is `emin`.  At or above `2 ^ emin` this is `roundToSignificand`; below it
the grid is the subnormal one, of spacing `2 ^ (emin + 1 - p)`, down to `0`. -/
def roundToFloat (p : Nat) (emin : ℤ) (x : ℚ) : ℚ :=
  if |x| < 2 ^ emin then roundHalfEven (x / 2 ^ (emin + 1 - p)) * 2 ^ (emin + 1 - p)
  else roundToSignificand p x

@[simp] theorem roundToFloat_zero (p : Nat) (emin : ℤ) : roundToFloat p emin 0 = 0 := by
  simp [roundToFloat, roundHalfEven]

/-! ## Two's-complement `abs` -/

/-- Numpy's `abs` on a `w`-bit signed integer scalar: two's complement negation of a negative
value, so that `abs(-2^(w-1)) = -2^(w-1)`. -/
def twosAbs (w : Nat) (n : ℤ) : ℤ := (BitVec.ofInt w n).abs.toInt

theorem two_pow_eq_two_mul {w : Nat} (hw : 0 < w) : ((2 ^ w : ℕ) : ℤ) = 2 * 2 ^ (w - 1) := by
  push_cast
  rw [← pow_succ']
  congr 1
  omega

/-- A value of `[-2^(w-1), 2^(w-1))` is its own `w`-bit signed residue. -/
theorem bmod_two_pow_self {w : Nat} {x : ℤ} (hw : 0 < w) (h₁ : -2 ^ (w - 1) ≤ x)
    (h₂ : x < 2 ^ (w - 1)) : x.bmod (2 ^ w) = x := by
  have hm := two_pow_eq_two_mul hw
  rw [Int.bmod_def]
  rcases le_or_lt 0 x with hx | hx
  · rw [Int.emod_eq_of_lt hx (by omega), if_pos (by omega)]
  · have he : x % ((2 ^ w : ℕ) : ℤ) = x + (2 ^ w : ℕ) := by
      rw [← Int.add_emod_self, Int.emod_eq_of_lt (by omega) (by omega)]
    rw [he, if_neg (by omega)]
    omega

/-- `abs` of a non-positive `w`-bit value above the minimum is its negation. -/
theorem twosAbs_of_neg {w : Nat} {n : ℤ} (hw : 0 < w) (hlo : -2 ^ (w - 1) < n) (hn : n ≤ 0) :
    twosAbs w n = -n := by
  have hpos := pow_pos (two_pos (α := ℤ)) (w - 1)
  have hx : (BitVec.ofInt w n).toInt = n := by
    rw [BitVec.toInt_ofInt]
    exact bmod_two_pow_self hw hlo.le (by omega)
  unfold twosAbs
  rw [BitVec.abs_eq]
  rcases hn.lt_or_eq with hneg | rfl
  · have hmsb : (BitVec.ofInt w n).msb = true := by simp [BitVec.msb_eq_toInt, hx, hneg]
    rw [if_pos hmsb, BitVec.toInt_neg, hx]
    exact bmod_two_pow_self hw (by omega) (by omega)
  · simpa using hx

/-- `abs` of the most negative `w`-bit value is that value. -/
theorem twosAbs_min {w : Nat} (hw : 0 < w) : twosAbs w (-2 ^ (w - 1)) = -2 ^ (w - 1) := by
  have hpos := pow_pos (two_pos (α := ℤ)) (w - 1)
  have hm := two_pow_eq_two_mul hw
  have hx : (BitVec.ofInt w (-2 ^ (w - 1))).toInt = -2 ^ (w - 1) := by
    rw [BitVec.toInt_ofInt]
    exact bmod_two_pow_self hw le_rfl (by omega)
  unfold twosAbs
  rw [BitVec.abs_eq, if_pos (by simp [BitVec.msb_eq_toInt, hx, hpos]), BitVec.toInt_neg, hx,
    neg_neg, Int.bmod_def, Int.emod_eq_of_lt hpos.le (by omega), if_neg (by omega)]
  omega

end Nibabel.Numpy
