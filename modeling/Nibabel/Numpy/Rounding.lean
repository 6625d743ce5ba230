import Nibabel.Numpy.Scalar
import Mathlib.Data.Int.Log

set_option autoImplicit false

/-!
# What `scaler_dtype.type(x)` rounds to

`roundToSignificand p x` computes numpy's conversion of `x` to a binary format with a `p`-bit
significand, by way of `bitLength` and `log2Floor`.  This module says what each computation
means, so that the concrete values the writers' proofs evaluate rest on a specification:

* `bitLength_eq_log` and `log2Floor_eq_log`: the computed exponents are `Nat.log 2` and
  `Int.log 2`, and `log2Floor_spec` brackets `x` between consecutive powers of two;
* `roundToSignificand_nearest`: no value with a `p`-bit significand is nearer to `x`, which is
  IEEE 754's round to nearest (the tie to even is `roundHalfEven`'s last branch);
* `roundToSignificand_sub_le`: the error is at most `|x| / 2 ^ p`, the unit roundoff;
* `roundToSignificand_intCast`: an integer of fewer than `p` bits comes back unchanged.

`roundToFloat` adds the least exponent of a real format.  `Representable` is that format, and the
same properties hold there: `roundToFloat_representable` and `roundToFloat_nearest` (round to
nearest within the format, subnormals included), `roundToFloat_mono`, and `roundToFloat_sub_le`,
where the error below the normal range is half the subnormal spacing instead.
`roundToFloat_of_le` says the two roundings agree in the normal range.  Overflow is left to
`Numerics.isFinite`.
-/

namespace Nibabel.Numpy

/-! ## The exponent -/

@[simp] theorem bitLengthAux_zero (fuel : Nat) : bitLengthAux fuel 0 = 0 := by
  cases fuel <;> rfl

/-- With enough fuel, `bitLengthAux` is one more than `⌊log₂ m⌋`. -/
theorem bitLengthAux_eq_log : ∀ {fuel m : Nat}, m ≤ fuel → 0 < m →
    bitLengthAux fuel m = Nat.log 2 m + 1
  | 0, _, h, hm => absurd (hm.trans_le h) (lt_irrefl 0)
  | fuel + 1, m, h, hm => by
    rw [bitLengthAux, if_neg hm.ne']
    rcases Nat.lt_or_ge m 2 with h2 | h2
    · obtain rfl : m = 1 := by omega
      simp
    · rw [bitLengthAux_eq_log (by omega) (by omega), Nat.log_div_base]
      have := Nat.log_pos one_lt_two h2
      omega

theorem bitLength_eq_log {n : Nat} (hn : 0 < n) : bitLength n = Nat.log 2 n + 1 :=
  bitLengthAux_eq_log le_rfl hn

theorem two_zpow_log_le {n : Nat} (hn : 0 < n) : (2 : ℚ) ^ (Nat.log 2 n : ℤ) ≤ n := by
  rw [zpow_natCast]
  exact_mod_cast Nat.pow_log_le_self 2 hn.ne'

theorem lt_two_zpow_log_succ (n : Nat) : (n : ℚ) < 2 ^ ((Nat.log 2 n : ℤ) + 1) := by
  rw [← Nat.cast_succ, zpow_natCast]
  exact_mod_cast Nat.lt_pow_succ_log_self one_lt_two n

/-- `log2Floor` brackets a positive `x` between consecutive powers of two. -/
theorem log2Floor_spec {x : ℚ} (hx : 0 < x) :
    (2 : ℚ) ^ log2Floor x ≤ x ∧ x < 2 ^ (log2Floor x + 1) := by
  set a := x.num.natAbs
  set A : ℤ := (Nat.log 2 a : ℤ)
  set B : ℤ := (Nat.log 2 x.den : ℤ)
  have ha : 0 < a := Int.natAbs_pos.2 (Rat.num_pos.2 hx).ne'
  have hb : (0 : ℚ) < x.den := by exact_mod_cast x.den_pos
  have hxe : x = (a : ℚ) / x.den := by
    rw [Nat.cast_natAbs, Int.cast_abs, abs_of_pos (by exact_mod_cast Rat.num_pos.2 hx),
      Rat.num_div_den]
  have hlo : (2 : ℚ) ^ (A - B - 1) < x := by
    rw [hxe, lt_div_iff₀ hb]
    calc (2 : ℚ) ^ (A - B - 1) * x.den < 2 ^ (A - B - 1) * 2 ^ (B + 1) :=
          mul_lt_mul_of_pos_left (lt_two_zpow_log_succ _) (zpow_pos two_pos _)
      _ = 2 ^ A := by rw [← zpow_add₀ two_ne_zero]; congr 1; ring
      _ ≤ a := two_zpow_log_le ha
  have hhi : x < 2 ^ (A - B + 1) := by
    rw [hxe, div_lt_iff₀ hb]
    calc (a : ℚ) < 2 ^ (A + 1) := lt_two_zpow_log_succ _
      _ = 2 ^ (A - B + 1) * 2 ^ B := by rw [← zpow_add₀ two_ne_zero]; congr 1; ring
      _ ≤ 2 ^ (A - B + 1) * x.den :=
          mul_le_mul_of_nonneg_left (two_zpow_log_le x.den_pos) (zpow_nonneg zero_le_two _)
  have he : log2Floor x = if (2 : ℚ) ^ (A - B) ≤ x then A - B else A - B - 1 := by
    simp only [log2Floor, bitLength_eq_log ha, bitLength_eq_log x.den_pos]
    push_cast
    simp only [add_sub_add_right_eq_sub]
  rw [he]
  split_ifs with h
  · exact ⟨h, hhi⟩
  · exact ⟨hlo.le, by simpa using not_le.1 h⟩

/-- `log2Floor` is `⌊log₂ x⌋`. -/
theorem log2Floor_eq_log {x : ℚ} (hx : 0 < x) : log2Floor x = Int.log 2 x := by
  obtain ⟨h₁, h₂⟩ := log2Floor_spec hx
  have hle := (Int.zpow_le_iff_le_log one_lt_two hx).1 (by exact_mod_cast h₁)
  have hlt := (Int.lt_zpow_iff_log_lt one_lt_two hx).1 (by exact_mod_cast h₂)
  omega

/-- `log2Floor` is the exponent of the binade a positive value lies in. -/
theorem log2Floor_eq_of_le_of_lt {x : ℚ} {k : ℤ} (h₁ : (2 : ℚ) ^ k ≤ x) (h₂ : x < 2 ^ (k + 1)) :
    log2Floor x = k := by
  have hx : 0 < x := lt_of_lt_of_le (zpow_pos two_pos k) h₁
  rw [log2Floor_eq_log hx]
  have hle := (Int.zpow_le_iff_le_log one_lt_two hx).1 (by exact_mod_cast h₁)
  have hlt := (Int.lt_zpow_iff_log_lt one_lt_two hx).1 (by exact_mod_cast h₂)
  omega

/-! ## The integer rounding underneath -/

@[simp] theorem roundHalfEven_intCast (m : ℤ) : roundHalfEven m = m := by
  simp [roundHalfEven]

/-- `roundHalfEven` is `⌊x⌋` or `⌊x⌋ + 1`, whichever is nearer to `x`: no integer is nearer. -/
theorem roundHalfEven_nearest (x : ℚ) (n : ℤ) : |(roundHalfEven x : ℚ) - x| ≤ |n - x| := by
  have h₁ : (⌊x⌋ : ℚ) ≤ x := Int.floor_le x
  have h₂ : x < ⌊x⌋ + 1 := Int.lt_floor_add_one x
  -- an integer lies at or below `⌊x⌋`, or at or above `⌊x⌋ + 1`
  have hfar : x - ⌊x⌋ ≤ |n - x| ∨ ⌊x⌋ + 1 - x ≤ |n - x| := by
    rcases le_or_lt n ⌊x⌋ with h | h
    · have hn : (n : ℚ) ≤ ⌊x⌋ := by exact_mod_cast h
      exact .inl ((by linarith : x - ⌊x⌋ ≤ x - n).trans (abs_sub_comm (n : ℚ) x ▸ le_abs_self _))
    · have hn : (⌊x⌋ : ℚ) + 1 ≤ n := by exact_mod_cast h
      exact .inr ((by linarith : ⌊x⌋ + 1 - x ≤ n - x).trans (le_abs_self _))
  have hlow : 2 * (x - ⌊x⌋) ≤ 1 → |(⌊x⌋ : ℚ) - x| ≤ |n - x| := fun h => by
    rw [abs_sub_comm, abs_of_nonneg (by linarith)]
    rcases hfar with hf | hf <;> linarith
  have hhigh : 1 ≤ 2 * (x - ⌊x⌋) → |(⌊x⌋ : ℚ) + 1 - x| ≤ |n - x| := fun h => by
    rw [abs_of_nonneg (by linarith)]
    rcases hfar with hf | hf <;> linarith
  simp only [roundHalfEven]
  split_ifs with ha hb
  · exact hlow ha.le
  · push_cast; exact hhigh hb.le
  · exact hlow (not_lt.1 hb)
  · push_cast; exact hhigh (not_lt.1 ha)

/-- `roundHalfEven` is within `1/2` of its argument. -/
theorem abs_roundHalfEven_sub_le_half (x : ℚ) : |(roundHalfEven x : ℚ) - x| ≤ 1 / 2 :=
  (roundHalfEven_nearest x (round x)).trans (by rw [abs_sub_comm]; exact abs_sub_round x)

/-- A value inside integer bounds rounds, half to even, to a value inside them: each bound is an
integer no nearer to the value than its rounding. -/
theorem roundHalfEven_mem {lo hi : ℤ} {x : ℚ} (h₁ : (lo : ℚ) ≤ x) (h₂ : x ≤ hi) :
    lo ≤ roundHalfEven x ∧ roundHalfEven x ≤ hi := by
  have hlo := roundHalfEven_nearest x lo
  have hhi := roundHalfEven_nearest x hi
  rw [abs_sub_comm (lo : ℚ), abs_of_nonneg (sub_nonneg.2 h₁)] at hlo
  rw [abs_of_nonneg (sub_nonneg.2 h₂)] at hhi
  have a := (abs_le.1 hlo).1
  have b := (abs_le.1 hhi).2
  constructor
  · exact_mod_cast (by linarith : (lo : ℚ) ≤ roundHalfEven x)
  · exact_mod_cast (by linarith : (roundHalfEven x : ℚ) ≤ hi)

/-! ## Round to nearest -/

/-- The exponent `roundToSignificand p x` rounds at: for `x ≠ 0`, the result is a multiple of
`2 ^ ulpExp p x`. -/
def ulpExp (p : Nat) (x : ℚ) : ℤ := log2Floor |x| + 1 - p

theorem roundToSignificand_of_ne_zero {p : Nat} {x : ℚ} (hx : x ≠ 0) :
    roundToSignificand p x = roundHalfEven (x / 2 ^ ulpExp p x) * 2 ^ ulpExp p x := by
  simp [roundToSignificand, hx, ulpExp]

theorem abs_sub_div_mul (a x : ℚ) (e : ℤ) : |a - x / 2 ^ e| * 2 ^ e = |a * 2 ^ e - x| := by
  have he : (0 : ℚ) < 2 ^ e := zpow_pos two_pos e
  rw [show a * 2 ^ e - x = (a - x / 2 ^ e) * 2 ^ e by rw [sub_mul, div_mul_cancel₀ x he.ne'],
    abs_mul, abs_of_pos he]

/-- No multiple of `2 ^ e` is nearer to `x` than `x` rounded to a multiple of `2 ^ e`. -/
theorem roundHalfEven_mul_nearest (x : ℚ) (e n : ℤ) :
    |roundHalfEven (x / 2 ^ e) * 2 ^ e - x| ≤ |n * 2 ^ e - x| := by
  rw [← abs_sub_div_mul, ← abs_sub_div_mul]
  exact mul_le_mul_of_nonneg_right (roundHalfEven_nearest _ n) (zpow_pos two_pos e).le

/-- Rounding to a multiple of `2 ^ e` moves `x` by at most half of `2 ^ e`. -/
theorem abs_roundHalfEven_mul_sub_le (x : ℚ) (e : ℤ) :
    |roundHalfEven (x / 2 ^ e) * 2 ^ e - x| ≤ 2 ^ e / 2 := by
  have hr : |(round (x / 2 ^ e) : ℚ) - x / 2 ^ e| ≤ 1 / 2 := by
    rw [abs_sub_comm]; exact abs_sub_round _
  calc _ ≤ |(round (x / 2 ^ e) : ℚ) * 2 ^ e - x| := roundHalfEven_mul_nearest x e _
    _ = |(round (x / 2 ^ e) : ℚ) - x / 2 ^ e| * 2 ^ e := (abs_sub_div_mul _ _ _).symm
    _ ≤ 1 / 2 * 2 ^ e := mul_le_mul_of_nonneg_right hr (zpow_pos two_pos e).le
    _ = 2 ^ e / 2 := by ring

/-- No multiple of `2 ^ ulpExp p x` is nearer to `x` than its rounding. -/
theorem roundToSignificand_nearest_grid {p : Nat} {x : ℚ} (hx : x ≠ 0) (n : ℤ) :
    |roundToSignificand p x - x| ≤ |n * 2 ^ ulpExp p x - x| := by
  rw [roundToSignificand_of_ne_zero hx]
  exact roundHalfEven_mul_nearest x _ n

/-- `x` lies in the binade `[2 ^ (ulpExp p x + p - 1), 2 ^ (ulpExp p x + p))`. -/
theorem binade_ulpExp {p : Nat} {x : ℚ} (hx : x ≠ 0) :
    (2 : ℚ) ^ (ulpExp p x + p - 1) ≤ |x| ∧ |x| < 2 ^ (ulpExp p x + p) := by
  have h := log2Floor_spec (abs_pos.2 hx)
  have e₁ : ulpExp p x + p - 1 = log2Floor |x| := by simp only [ulpExp]; ring
  have e₂ : ulpExp p x + p = log2Floor |x| + 1 := by simp only [ulpExp]; ring
  rw [e₁, e₂]
  exact h

/-- `y` has a significand of at most `p` bits: `y = m * 2 ^ k` with `|m| < 2 ^ p`. -/
def HasSignificand (p : Nat) (y : ℚ) : Prop := ∃ m k : ℤ, |m| < 2 ^ p ∧ y = m * 2 ^ k

theorem two_pow_mul_zpow (p : Nat) (k : ℤ) : (2 : ℚ) ^ p * 2 ^ k = 2 ^ (k + p) := by
  rw [← zpow_natCast, ← zpow_add₀ two_ne_zero, add_comm]

/-- **Round to nearest.**  No value with a `p`-bit significand is nearer to `x` than
`roundToSignificand p x`. -/
theorem roundToSignificand_nearest {p : Nat} (hp : 0 < p) (x : ℚ) {y : ℚ}
    (hy : HasSignificand p y) : |roundToSignificand p x - x| ≤ |y - x| := by
  rcases eq_or_ne x 0 with rfl | hx
  · simp
  obtain ⟨m, k, hm, rfl⟩ := hy
  set e := ulpExp p x
  rcases le_or_lt e k with hk | hk
  · -- `y` is a multiple of `2 ^ e`
    obtain ⟨j, hj⟩ : ∃ j : ℕ, k = e + j := ⟨(k - e).toNat, by omega⟩
    have hy : ((m * 2 ^ j : ℤ) : ℚ) * 2 ^ e = m * 2 ^ k := by
      rw [hj, ← two_pow_mul_zpow]; push_cast; ring
    rw [← hy]
    exact roundToSignificand_nearest_grid hx _
  · -- `y` lies below the binade of `x`, whose edge `±2 ^ (e + p - 1)` is a nearer multiple
    have hb : (2 : ℚ) ^ (e + p - 1) ≤ |x| := (binade_ulpExp hx).1
    have hedge : (2 : ℚ) ^ (p - 1) * 2 ^ e = 2 ^ (e + p - 1) := by
      rw [two_pow_mul_zpow, Nat.cast_pred hp, ← add_sub_assoc]
    have hyb : |(m : ℚ) * 2 ^ k| ≤ 2 ^ (e + p - 1) := by
      have hk' : (2 : ℚ) ^ k ≤ 2 ^ (e - 1) := zpow_le_zpow_right₀ one_le_two (by omega)
      have hm' : |(m : ℚ)| ≤ 2 ^ p := by rw [← Int.cast_abs]; exact_mod_cast hm.le
      rw [abs_mul, abs_of_pos (zpow_pos (two_pos (α := ℚ)) k)]
      calc |(m : ℚ)| * 2 ^ k ≤ 2 ^ p * 2 ^ (e - 1) :=
            mul_le_mul hm' hk' (zpow_pos two_pos k).le (by positivity)
        _ = 2 ^ (e + p - 1) := by rw [two_pow_mul_zpow, sub_add_eq_add_sub]
    have hr : |roundToSignificand p x - x| ≤ |x| - 2 ^ (e + p - 1) := by
      rcases hx.lt_or_lt with hneg | hpos
      · rw [abs_of_neg hneg] at hb ⊢
        refine (roundToSignificand_nearest_grid hx (-2 ^ (p - 1))).trans_eq ?_
        push_cast
        rw [neg_mul, hedge, abs_of_nonneg (by linarith)]
        ring
      · rw [abs_of_pos hpos] at hb ⊢
        refine (roundToSignificand_nearest_grid hx (2 ^ (p - 1))).trans_eq ?_
        push_cast
        rw [hedge, abs_of_nonpos (by linarith)]
        ring
    calc |roundToSignificand p x - x| ≤ |x| - 2 ^ (e + p - 1) := hr
      _ ≤ |x| - |(m : ℚ) * 2 ^ k| := by linarith
      _ ≤ |(m : ℚ) * 2 ^ k - x| := by rw [abs_sub_comm]; exact abs_sub_abs_le_abs_sub _ _

/-- **Unit roundoff.**  Rounding to a `p`-bit significand moves `x` by at most `|x| / 2 ^ p`. -/
theorem roundToSignificand_sub_le (p : Nat) (x : ℚ) :
    |roundToSignificand p x - x| ≤ |x| / 2 ^ p := by
  rcases eq_or_ne x 0 with rfl | hx
  · simp
  set e := ulpExp p x
  have hb : (2 : ℚ) ^ (e + p - 1) ≤ |x| := (binade_ulpExp hx).1
  rw [roundToSignificand_of_ne_zero hx]
  calc _ ≤ 2 ^ e / 2 := abs_roundHalfEven_mul_sub_le x e
    _ = 2 ^ (e + p - 1) / 2 ^ p := by
        rw [eq_div_iff (by positivity), div_mul_eq_mul_div, mul_comm, two_pow_mul_zpow,
          zpow_sub_one₀ two_ne_zero, div_eq_mul_inv]
    _ ≤ |x| / 2 ^ p := div_le_div_of_nonneg_right hb (by positivity)

/-! ## Values that are already `p`-bit -/

/-- A value with a `p`-bit significand is its own rounding. -/
theorem roundToSignificand_of_hasSignificand {p : Nat} (hp : 0 < p) {y : ℚ}
    (hy : HasSignificand p y) : roundToSignificand p y = y := by
  have h := roundToSignificand_nearest hp y hy
  rw [sub_self, abs_zero] at h
  exact sub_eq_zero.1 (abs_nonpos_iff.1 h)

/-- An integer of fewer than `p` bits is its own rounding to a `p`-bit significand. -/
theorem roundToSignificand_intCast {p : Nat} {n : ℤ} (hn : |n| < 2 ^ p) :
    roundToSignificand p n = n := by
  rcases Nat.eq_zero_or_pos p with rfl | hp
  · obtain rfl : n = 0 := abs_nonpos_iff.1 (by simpa using hn)
    simp
  · exact roundToSignificand_of_hasSignificand hp ⟨n, 0, hn, by simp⟩

theorem roundToSignificand_one {p : Nat} (hp : 0 < p) : roundToSignificand p 1 = 1 := by
  have h1 : |(1 : ℤ)| < 2 ^ p := by
    rw [abs_one]
    exact_mod_cast Nat.one_lt_two_pow hp.ne'
  simpa using roundToSignificand_intCast h1

/-! ## The exponent range -/

/-- `y` is a value of the binary format with a `p`-bit significand and least normal exponent
`emin`: `m * 2 ^ k` with `|m| < 2 ^ p`, and `k` no lower than the subnormal exponent
`emin + 1 - p`. -/
def Representable (p : Nat) (emin : ℤ) (y : ℚ) : Prop :=
  ∃ m k : ℤ, |m| < 2 ^ p ∧ emin + 1 - p ≤ k ∧ y = m * 2 ^ k

/-- `roundHalfEven` keeps an integer bound of its argument. -/
theorem abs_roundHalfEven_le {y : ℚ} {n : ℤ} (h : |y| ≤ n) : |roundHalfEven y| ≤ n := by
  have h₁ := roundHalfEven_nearest y n
  have h₂ := roundHalfEven_nearest y (-n)
  push_cast at h₂
  rw [abs_le] at h
  rw [abs_of_nonneg (by linarith : (0 : ℚ) ≤ n - y)] at h₁
  rw [abs_of_nonpos (by linarith : -(n : ℚ) - y ≤ 0)] at h₂
  have h₃ := le_abs_self ((roundHalfEven y : ℚ) - y)
  have h₄ := neg_abs_le ((roundHalfEven y : ℚ) - y)
  have : |(roundHalfEven y : ℚ)| ≤ n := abs_le.2 ⟨by linarith, by linarith⟩
  exact_mod_cast this

/-- `m * 2 ^ k` with `|m| ≤ 2 ^ p`, at or above the subnormal exponent, is representable: at
`|m| = 2 ^ p` it is `(m / 2) * 2 ^ (k + 1)`. -/
theorem representable_of_abs_le {p : Nat} {emin : ℤ} (hp : 0 < p) {m : ℤ} (hm : |m| ≤ 2 ^ p)
    {k : ℤ} (hk : emin + 1 - p ≤ k) : Representable p emin (m * 2 ^ k) := by
  rcases hm.lt_or_eq with h | h
  · exact ⟨m, k, h, hk, rfl⟩
  have hdvd : (2 : ℤ) ∣ m := by
    rw [← dvd_abs, h]
    exact dvd_pow_self 2 hp.ne'
  obtain ⟨m', rfl⟩ := hdvd
  have hpos : (0 : ℤ) < 2 ^ p := by positivity
  refine ⟨m', k + 1, ?_, by omega, ?_⟩
  · rw [abs_mul, abs_two] at h
    linarith
  · push_cast
    rw [zpow_add_one₀ two_ne_zero]
    ring

/-- Rounding `x` to a multiple of `2 ^ e`, where `|x| ≤ 2 ^ (e + p)`, gives a representable
value when `e` is at least the subnormal exponent. -/
theorem representable_round {p : Nat} {emin : ℤ} (hp : 0 < p) {x : ℚ} {e : ℤ}
    (hx : |x| ≤ 2 ^ (e + p)) (he : emin + 1 - p ≤ e) :
    Representable p emin (roundHalfEven (x / 2 ^ e) * 2 ^ e) := by
  refine representable_of_abs_le hp (abs_roundHalfEven_le ?_) he
  have hpos : (0 : ℚ) < 2 ^ e := zpow_pos two_pos e
  rw [abs_div, abs_of_pos hpos, div_le_iff₀ hpos]
  push_cast
  rwa [two_pow_mul_zpow]

/-- In the normal range the least exponent plays no part. -/
theorem roundToFloat_of_le {p : Nat} {emin : ℤ} {x : ℚ} (h : 2 ^ emin ≤ |x|) :
    roundToFloat p emin x = roundToSignificand p x :=
  if_neg (not_lt.2 h)

/-- **The result is a value of the format.** -/
theorem roundToFloat_representable {p : Nat} (hp : 0 < p) (emin : ℤ) (x : ℚ) :
    Representable p emin (roundToFloat p emin x) := by
  unfold roundToFloat
  split_ifs with h
  · refine representable_round hp ?_ le_rfl
    calc |x| ≤ 2 ^ emin := h.le
      _ ≤ 2 ^ (emin + 1 - p + p) := zpow_le_zpow_right₀ one_le_two (by omega)
  · have hx : x ≠ 0 := fun h0 => h (by rw [h0, abs_zero]; exact zpow_pos two_pos emin)
    have hb := binade_ulpExp (p := p) hx
    rw [roundToSignificand_of_ne_zero hx]
    refine representable_round hp hb.2.le ?_
    -- `2 ^ emin ≤ |x| < 2 ^ (ulpExp p x + p)`
    have := (zpow_lt_zpow_iff_right₀ one_lt_two).1 ((not_lt.1 h).trans_lt hb.2)
    omega

/-- **Round to nearest within the format.**  No representable value is nearer to `x`. -/
theorem roundToFloat_nearest {p : Nat} (hp : 0 < p) {emin : ℤ} (x : ℚ) {y : ℚ}
    (hy : Representable p emin y) : |roundToFloat p emin x - x| ≤ |y - x| := by
  obtain ⟨m, k, hm, hk, rfl⟩ := hy
  unfold roundToFloat
  split_ifs
  · -- `y` is a multiple of the subnormal spacing
    obtain ⟨j, hj⟩ : ∃ j : ℕ, k = emin + 1 - p + j := ⟨(k - (emin + 1 - p)).toNat, by omega⟩
    have hy : ((m * 2 ^ j : ℤ) : ℚ) * 2 ^ (emin + 1 - p) = m * 2 ^ k := by
      rw [hj, ← two_pow_mul_zpow]; push_cast; ring
    rw [← hy]
    exact roundHalfEven_mul_nearest x _ _
  · exact roundToSignificand_nearest hp x ⟨m, k, hm, rfl⟩

/-- A value of the format is its own rounding. -/
theorem roundToFloat_of_representable {p : Nat} (hp : 0 < p) {emin : ℤ} {y : ℚ}
    (hy : Representable p emin y) : roundToFloat p emin y = y := by
  have h := roundToFloat_nearest hp y hy
  rw [sub_self, abs_zero] at h
  exact sub_eq_zero.1 (abs_nonpos_iff.1 h)

/-- An integer of fewer than `p` bits is its own rounding, in a format whose subnormal spacing
is at most `1`. -/
theorem roundToFloat_intCast {p : Nat} {emin : ℤ} (hp : 0 < p) (he : emin + 1 ≤ p) {n : ℤ}
    (hn : |n| < 2 ^ p) : roundToFloat p emin n = n :=
  roundToFloat_of_representable hp ⟨n, 0, hn, by omega, by simp⟩

/-- **Rounding is monotone.**  Each argument rounds to a nearest value of the format, so two
results in the wrong order would put the smaller argument above their midpoint and the larger
below it. -/
theorem roundToFloat_mono {p : Nat} (hp : 0 < p) (emin : ℤ) : Monotone (roundToFloat p emin) := by
  intro x y hxy
  by_contra hlt
  rw [not_le] at hlt
  rcases hxy.eq_or_lt with rfl | hxy
  · exact lt_irrefl _ hlt
  have h₁ := sq_le_sq.2 (roundToFloat_nearest hp x (roundToFloat_representable hp emin y))
  have h₂ := sq_le_sq.2 (roundToFloat_nearest hp y (roundToFloat_representable hp emin x))
  nlinarith [mul_pos (sub_pos.2 hlt) (sub_pos.2 hxy)]

/-- **Unit roundoff with an exponent range.**  The error is at most `|x| / 2 ^ p` in the normal
range and half the subnormal spacing, `2 ^ emin / 2 ^ p`, below it. -/
theorem roundToFloat_sub_le (p : Nat) (emin : ℤ) (x : ℚ) :
    |roundToFloat p emin x - x| ≤ max |x| (2 ^ emin) / 2 ^ p := by
  unfold roundToFloat
  split_ifs
  · calc _ ≤ 2 ^ (emin + 1 - p) / 2 := abs_roundHalfEven_mul_sub_le x _
      _ = 2 ^ emin / 2 ^ p := by
          rw [zpow_sub₀ two_ne_zero, zpow_add_one₀ two_ne_zero, zpow_natCast]
          ring
      _ ≤ max |x| (2 ^ emin) / 2 ^ p :=
          div_le_div_of_nonneg_right (le_max_right _ _) (by positivity)
  · exact (roundToSignificand_sub_le p x).trans
      (div_le_div_of_nonneg_right (le_max_left _ _) (by positivity))

/-- The error bound in the form an error analysis chains: within `M / 2 ^ p` for any `M` at least
`|x|` and the least normal value. -/
theorem roundToFloat_sub_le_of_le {p : Nat} {emin : ℤ} {x M : ℚ} (hx : |x| ≤ M)
    (hM : 2 ^ emin ≤ M) : |roundToFloat p emin x - x| ≤ M / 2 ^ p :=
  (roundToFloat_sub_le p emin x).trans
    (div_le_div_of_nonneg_right (max_le hx hM) (by positivity))

/-- Rounding twice is rounding once. -/
theorem roundToFloat_idem {p : Nat} (hp : 0 < p) (emin : ℤ) (x : ℚ) :
    roundToFloat p emin (roundToFloat p emin x) = roundToFloat p emin x :=
  roundToFloat_of_representable hp (roundToFloat_representable hp emin x)

/-- A power of two of the format bounds the rounding of every value it bounds: the rounding
never carries past it. -/
theorem abs_roundToFloat_le {p : Nat} (hp : 0 < p) {emin e : ℤ} (he : emin + 1 - p ≤ e) {x : ℚ}
    (hx : |x| ≤ 2 ^ e) : |roundToFloat p emin x| ≤ 2 ^ e := by
  have h1 : |(1 : ℤ)| < 2 ^ p := by
    rw [abs_one]
    exact_mod_cast Nat.one_lt_two_pow hp.ne'
  have hpos : roundToFloat p emin (2 ^ e) = 2 ^ e := by
    simpa using roundToFloat_of_representable hp ⟨1, e, h1, he, by simp⟩
  have hneg : roundToFloat p emin (-2 ^ e) = -2 ^ e := by
    simpa using roundToFloat_of_representable hp ⟨-1, e, by rwa [abs_neg], he, by simp⟩
  rw [abs_le] at hx ⊢
  exact ⟨hneg ▸ roundToFloat_mono hp emin hx.1, hpos ▸ roundToFloat_mono hp emin hx.2⟩

end Nibabel.Numpy
