import Nibabel.ArrayWriters.Simulation

set_option autoImplicit false

/-!
# The range law under numpy's rounding

`RangeLaw` states the range law over exact arithmetic.  numpy's writers store `slope` and
`inter` rounded to the scaler type, and `SlopeInterArrayWriter._range_scale` computes them in
`np.longdouble` first.  `Simulation` relates the writer numpy builds to the exact one; this module
bounds how far that moves the image `(v - inter) / slope` of each value.

Every bound asks for the exact slope in the scaler's normal range (`Normal`).  Below it numpy
stores the slope with the subnormal spacing, and the error is no longer relative: `float64` data
on `[0, 2**-140]` written as `uint8` has the exact slope `2**-140 / 255`, which `float32` stores
as `2**-148`, so the largest value maps to `256`.  Far above it numpy stores `inf`, which has no
rational value; `Normal` keeps the slope below half the overflow threshold, and the theorems
conclude that what numpy stores is finite.

* `abs_transform_sub_le`: moving the slope by `a` times itself and the intercept by `b` slopes
  moves the image `y` of each value by at most `(a |y| + b) / (1 - a)`.
* `SlopeRounds.abs_sub_le`, `SlopeInterArrayWriter.abs_rangeSlope_sub_le`,
  `SlopeInterArrayWriter.abs_rangeInter_sub_le`: the error of each `np.longdouble` step of
  `_range_scale` and of the setter's rounding, chained.  The slope ends within two units in the
  scaler's last place.  The intercept ends within two units of its own size and of the slope's,
  plus what `np.longdouble` loses on `shared_min * slope`.
* `SlopeArrayWriter.init_numpy_relative`: numpy's image of every value is within
  `2 |y| / (2^p - 2)` of the exact image `y`.
* `SlopeInterArrayWriter.init_numpy_offset_error`: the error also grows with the exact
  intercept counted in exact slopes, the offset of the data, whatever their span.
* `roundTrips_of_near`: a transform that moves no image of a well-mapped range by `1/2` stores and
  decodes the range as faithfully.  `SlopeArrayWriter.init_numpy_roundTrips` and
  `SlopeInterArrayWriter.init_numpy_roundTrips_of_offset` apply it: numpy's writers keep the
  range law when the target, and for an intercept the offset, is small beside the scaler's
  significand.
-/

namespace Nibabel.ArrayWriters

open Nibabel.Numpy

variable {sr : DType → DType → ℚ × ℚ}

/-! ## Perturbed transforms -/

/-- A value within `a * |s|` of `s` keeps at least `1 - a` of its size. -/
theorem abs_ge_of_abs_sub_le {s s' a : ℚ} (hs' : |s' - s| ≤ a * |s|) : (1 - a) * |s| ≤ |s'| := by
  have := abs_sub_abs_le_abs_sub s s'
  rw [abs_sub_comm] at this
  linarith

/-- **A perturbed transform.**  Moving the slope `s` of `v ↦ (v - i) / s` by at most `a |s|`,
with `a < 1`, and the intercept by at most `b |s|`, moves the image `y` of `v` by at most
`(a |y| + b) / (1 - a)`. -/
theorem abs_transform_sub_le {s s' i i' v a b : ℚ} (hs : s ≠ 0) (ha : a < 1)
    (hs' : |s' - s| ≤ a * |s|) (hi : |i' - i| ≤ b * |s|) :
    |(v - i') / s' - (v - i) / s| ≤ (a * |(v - i) / s| + b) / (1 - a) := by
  have hS : 0 < |s| := abs_pos.2 hs
  have hpos : 0 < (1 - a) * |s| := mul_pos (by linarith) hS
  have hs'0 : s' ≠ 0 := abs_pos.1 (hpos.trans_le (abs_ge_of_abs_sub_le hs'))
  set y := (v - i) / s
  have hys : y * s = v - i := div_mul_cancel₀ _ hs
  have key : (v - i') / s' - y = (y * (s - s') + (i - i')) / s' := by
    rw [eq_div_iff hs'0, sub_mul, div_mul_cancel₀ _ hs'0, mul_sub, hys]
    ring
  have hnum : |y * (s - s') + (i - i')| ≤ (a * |y| + b) * |s| :=
    calc |y * (s - s') + (i - i')| ≤ |y * (s - s')| + |i - i'| := abs_add _ _
      _ = |y| * |s' - s| + |i' - i| := by rw [abs_mul, abs_sub_comm s, abs_sub_comm i]
      _ ≤ |y| * (a * |s|) + b * |s| := add_le_add (mul_le_mul_of_nonneg_left hs' (abs_nonneg y)) hi
      _ = (a * |y| + b) * |s| := by ring
  rw [key, abs_div]
  calc |y * (s - s') + (i - i')| / |s'|
      ≤ (a * |y| + b) * |s| / ((1 - a) * |s|) :=
        div_le_div₀ ((abs_nonneg _).trans hnum) hnum hpos (abs_ge_of_abs_sub_le hs')
    _ = (a * |y| + b) / (1 - a) := mul_div_mul_right _ _ hS.ne'

/-- A value within `1/2` of a value of `[lo, hi]` rounds into `[lo, hi]`. -/
theorem round_mem_of_abs_sub_lt {lo hi : ℤ} {y y' : ℚ} (h₁ : (lo : ℚ) ≤ y) (h₂ : y ≤ hi)
    (h : |y' - y| < 1 / 2) : lo ≤ round y' ∧ round y' ≤ hi := by
  have := abs_lt.1 h
  rw [round_eq]
  exact ⟨Int.le_floor.2 (by linarith), Int.floor_le_iff.2 (by linarith)⟩

/-- **A transform near a good one round-trips.**  If `(s₀, i₀)` maps `[mn, mx]` into integer
bounds and `(s, i)` moves no image by `1/2` or more, then `(s, i)` stores every value of the
range inside the bounds and decodes it to within half its slope. -/
theorem roundTrips_of_near {lo hi : ℤ} {mn mx s i s₀ i₀ : ℚ} (hmap : MapsInto lo hi mn mx s₀ i₀)
    (hs : s ≠ 0) (hnear : ∀ v, mn ≤ v → v ≤ mx → |(v - i) / s - (v - i₀) / s₀| < 1 / 2) :
    RoundTrips lo hi mn mx s i := fun v h₁ h₂ =>
  have hr := round_mem_of_abs_sub_lt (hmap v h₁ h₂).1 (hmap v h₁ h₂).2 (hnear v h₁ h₂)
  ⟨hr.1, hr.2, abs_decode_sub_le hs⟩

/-- An image in `[out.min, out.max]` has magnitude at most `out.max - out.min`. -/
theorem abs_le_span_of_mem {out : DType} {y : ℚ} (h₁ : (out.min : ℚ) ≤ y) (h₂ : y ≤ out.max) :
    |y| ≤ (out.max : ℚ) - out.min := by
  have hmin : (out.min : ℚ) ≤ 0 := by exact_mod_cast out.min_nonpos
  have hmax : (0 : ℚ) ≤ out.max := by exact_mod_cast out.max_nonneg
  exact abs_le.2 ⟨by linarith, by linarith⟩

/-! ## Rounding steps -/

/-- The quotient of two values, each within `u ≤ 1/3` times its own size, is within `3 u` times
the quotient's size. -/
theorem abs_div_sub_le {d D e S u : ℚ} (hS : 0 < S) (hu : u ≤ 1 / 3)
    (hd : |d - D| ≤ u * |D|) (he : |e - S| ≤ u * S) : |d / e - D / S| ≤ 3 * u * |D / S| := by
  have hu0 : 0 ≤ u := nonneg_of_mul_nonneg_left ((abs_nonneg _).trans he) hS
  have he' : 2 / 3 * S ≤ e := by linarith [(abs_le.1 he).1, mul_le_mul_of_nonneg_right hu hS.le]
  have he0 : 0 < e := by linarith
  have key : d / e - D / S = ((d - D) * S - D * (e - S)) / (e * S) := by
    field_simp
    ring
  rw [key, abs_div, abs_of_pos (mul_pos he0 hS), div_le_iff₀ (mul_pos he0 hS), abs_div,
    abs_of_pos hS]
  calc |(d - D) * S - D * (e - S)| ≤ |d - D| * S + |D| * |e - S| := by
        simpa only [abs_mul, abs_of_pos hS] using abs_sub ((d - D) * S) (D * (e - S))
    _ ≤ u * |D| * S + |D| * (u * S) :=
        add_le_add (mul_le_mul_of_nonneg_right hd hS.le) (mul_le_mul_of_nonneg_left he (abs_nonneg D))
    _ ≤ 3 * u * (|D| / S) * (e * S) := by
        rw [show 3 * u * (|D| / S) * (e * S) = 3 * u * |D| * e by field_simp; ring]
        linarith [mul_nonneg (mul_nonneg hu0 (abs_nonneg D)) (by linarith : 0 ≤ 3 * e - 2 * S)]

/-- `np.longdouble`'s rounding error, in the form the chains below use. -/
theorem abs_longdouble_sub_le {x M : ℚ} (hx : |x| ≤ M) (hM : 2 ^ (-16382 : ℤ) ≤ M) :
    |roundToFloat 64 (-16382) x - x| ≤ 1 / 2 ^ 64 * M := by
  rw [one_div_mul_eq_div]
  exact roundToFloat_sub_le_of_le hx hM

/-- The scaler's rounding error, in the same form. -/
theorem abs_toScaler_sub_le {t : DType} {x M : ℚ} (hx : |x| ≤ M) (hM : 2 ^ minExponent t ≤ M) :
    |roundToFloat (significandBits t) (minExponent t) x - x| ≤ 1 / 2 ^ significandBits t * M := by
  rw [one_div_mul_eq_div]
  exact roundToFloat_sub_le_of_le hx hM

/-- Every scaler type has at least two significand bits. -/
theorem four_le_two_pow_significandBits (t : DType) : (4 : ℚ) ≤ 2 ^ significandBits t :=
  calc (4 : ℚ) = 2 ^ 2 := by norm_num
    _ ≤ 2 ^ significandBits t := pow_le_pow_right₀ one_le_two (two_le_significandBits t)

/-- The unit roundoffs: a scaler of at most `53` bits (`float16`, `float32`, `float64`) has one of
at most `1/4`, and at least `2^11` times `np.longdouble`'s `2^-64`. -/
theorem unitRoundoff_le {t : DType} (hp : significandBits t ≤ 53) :
    (1 : ℚ) / 2 ^ significandBits t ≤ 1 / 4 ∧
      2 ^ 11 * (1 / 2 ^ 64 : ℚ) ≤ 1 / 2 ^ significandBits t := by
  constructor
  · exact one_div_le_one_div_of_le (by norm_num) (four_le_two_pow_significandBits t)
  · rw [mul_one_div, div_le_div_iff₀ (by positivity) (by positivity), one_mul]
    calc (2 : ℚ) ^ 11 * 2 ^ significandBits t = 2 ^ (11 + significandBits t) :=
          (pow_add _ _ _).symm
      _ ≤ 2 ^ 64 := pow_le_pow_right₀ one_le_two (by omega)

/-! ## The scaler's range -/

/-- `x` lies in the normal range of the scaler type `t`, below half its overflow threshold:
numpy rounds it, and every `np.longdouble` value near it, to a finite normal number. -/
def Normal (t : DType) (x : ℚ) : Prop := 2 ^ minExponent t ≤ |x| ∧ |x| < 2 ^ maxExponent t

theorem Normal.ne_zero {t : DType} {x : ℚ} (h : Normal t x) : x ≠ 0 :=
  abs_pos.1 ((zpow_pos two_pos _).trans_le h.1)

/-- numpy's `isfinite` of a stored value is that of the value it was rounded from. -/
theorem isFinite_toScaler (t : DType) (x : ℚ) :
    (Numerics.numpy sr).isFinite t (roundToFloat (significandBits t) (minExponent t) x) =
      (Numerics.numpy sr).isFinite t x := by
  simp only [Numerics.numpy_isFinite, roundToFloat_idem (one_le_significandBits t)]

/-- A value at most `2 ^ maxExponent t` rounds to a finite value of `t`. -/
theorem isFinite_of_abs_le {t : DType} {x : ℚ} (hx : |x| ≤ 2 ^ maxExponent t) :
    (Numerics.numpy sr).isFinite t x = true := by
  have hle : |roundToFloat (significandBits t) (minExponent t) x| ≤ 2 ^ (maxExponent t : ℤ) :=
    abs_roundToFloat_le (one_le_significandBits t)
      (by have := minExponent_add_one_le t; omega) (by exact_mod_cast hx)
  rw [Numerics.numpy_isFinite, decide_eq_true_eq]
  calc _ ≤ (2 : ℚ) ^ maxExponent t := by exact_mod_cast hle
    _ < 2 ^ (maxExponent t + 1) := pow_lt_pow_right₀ one_lt_two (Nat.lt_succ_self _)

/-- `np.longdouble` never carries a value past a power of two of the scaler's range. -/
theorem abs_longdouble_le {t : DType} {x : ℚ} (hx : |x| ≤ 2 ^ maxExponent t) :
    |roundToFloat 64 (-16382) x| ≤ 2 ^ maxExponent t := by
  exact_mod_cast @abs_roundToFloat_le 64 (by norm_num) (-16382) (maxExponent t) (by omega) x
    (by exact_mod_cast hx)

/-- `np.longdouble` holds every integer of fewer than `64` bits. -/
theorem longdouble_intCast {n : ℤ} (hn : |n| < 2 ^ 64) : roundToFloat 64 (-16382) n = n :=
  roundToFloat_intCast (by norm_num) (by norm_num) hn

/-! ## `SlopeArrayWriter` -/

/-- **The stored slope.**  For a scaler of at most `53` bits and an exact slope in its normal
range, numpy's slope, rounded once or through `np.longdouble` first, is within two units in the
scaler's last place of the exact slope. -/
theorem SlopeRounds.abs_sub_le_of_normal {t : DType} {s s₀ : ℚ} (hp : significandBits t ≤ 53)
    (hn : 2 ^ minExponent t ≤ |s₀|) (h : SlopeRounds t s s₀) :
    |s - s₀| ≤ 2 / 2 ^ significandBits t * |s₀| := by
  obtain ⟨-, hu⟩ := unitRoundoff_le hp
  set ε : ℚ := 1 / 2 ^ significandBits t
  rw [show (2 : ℚ) / 2 ^ significandBits t = 2 * ε by ring]
  have hs₀ := abs_nonneg s₀
  have hεs := mul_nonneg (le_trans (by norm_num) hu) hs₀
  rcases h with rfl | rfl
  · -- rounded once
    exact (abs_toScaler_sub_le le_rfl hn).trans (by linarith)
  · -- rounded in `np.longdouble`, then to the scaler
    set l := roundToFloat 64 (-16382) s₀
    have e₁ : |l - s₀| ≤ 1 / 2 ^ 64 * |s₀| :=
      abs_longdouble_sub_le le_rfl ((zpow_le_zpow_right₀ one_le_two
        (longdouble_minExponent_le t)).trans hn)
    have hl : |l| ≤ |s₀| + 1 / 2 ^ 64 * |s₀| := by
      have := abs_sub_abs_le_abs_sub l s₀
      linarith
    have e₂ := abs_toScaler_sub_le (t := t) hl
      (hn.trans (le_add_of_nonneg_right (mul_nonneg (by norm_num) hs₀)))
    calc |roundToFloat _ _ l - s₀| ≤ |roundToFloat _ _ l - l| + |l - s₀| := abs_sub_le _ _ _
      _ ≤ ε * (|s₀| + 1 / 2 ^ 64 * |s₀|) + 1 / 2 ^ 64 * |s₀| := add_le_add e₂ e₁
      _ ≤ 2 * ε * |s₀| := by linarith [mul_le_mul_of_nonneg_right hu hs₀]

/-- numpy's slope from an exact slope in the normal range is finite. -/
theorem SlopeRounds.isFinite {t : DType} {s s₀ : ℚ} (hn : Normal t s₀) (h : SlopeRounds t s s₀) :
    (Numerics.numpy sr).isFinite t s = true := by
  rcases h with rfl | rfl <;> rw [isFinite_toScaler]
  · exact isFinite_of_abs_le hn.2.le
  · exact isFinite_of_abs_le (abs_longdouble_le hn.2.le)

/-- A value within two units in the scaler's last place of a nonzero value is nonzero. -/
theorem ne_zero_of_abs_sub_le {t : DType} {s s' : ℚ} (hs : s ≠ 0)
    (h : |s' - s| ≤ 2 / 2 ^ significandBits t * |s|) : s' ≠ 0 := by
  have ha : 2 / 2 ^ significandBits t < (1 : ℚ) := by
    rw [div_lt_one (by positivity)]
    linarith [four_le_two_pow_significandBits t]
  have h₂ : 0 < (1 - 2 / 2 ^ significandBits t) * |s| := mul_pos (by linarith) (abs_pos.2 hs)
  exact abs_pos.1 (h₂.trans_le (abs_ge_of_abs_sub_le h))

/-- A slope that rounds as numpy's does, from an exact slope in the normal range, is nonzero. -/
theorem SlopeRounds.ne_zero {t : DType} {s s₀ : ℚ} (hp : significandBits t ≤ 53)
    (hn : Normal t s₀) (h : SlopeRounds t s s₀) : s ≠ 0 :=
  ne_zero_of_abs_sub_le hn.ne_zero (h.abs_sub_le_of_normal hp hn.1)

/-- numpy's image `v / s` of a value next to the exact image `y = v / s₀`, for a slope that
rounds as numpy's does from an exact slope in the normal range. -/
theorem SlopeRounds.abs_image_sub_le {t : DType} {s s₀ : ℚ} (hp : significandBits t ≤ 53)
    (hn : Normal t s₀) (h : SlopeRounds t s s₀) (v : ℚ) :
    |v / s - v / s₀| ≤ 2 * |v / s₀| / (2 ^ significandBits t - 2) := by
  have hP := four_le_two_pow_significandBits t
  have hv := @abs_transform_sub_le s₀ s 0 0 v (2 / 2 ^ significandBits t) 0 hn.ne_zero
    (by rw [div_lt_one (by positivity)]; linarith) (h.abs_sub_le_of_normal hp hn.1) (by simp)
  simp only [sub_zero, add_zero] at hv
  refine hv.trans (le_of_eq ?_)
  have : (2 : ℚ) ^ significandBits t - 2 ≠ 0 := by linarith
  field_simp

namespace SlopeArrayWriter

/-- The constructor keeps the target and the scaler type it is given. -/
theorem init_dtypes {N : Numerics} {array : SourceArray} {out scaler : DType} {c : Bool}
    {w : SlopeArrayWriter} (h : init N array (some out) c scaler = .ok w) :
    w.outDtype = out ∧ w.scalerDtype = scaler := by
  cases hsn : scalingNeeded array out with
  | error e => simp [init, hsn] at h
  | ok b =>
    simp only [init, hsn, Option.getD_some] at h
    cases c
    · simp only [Bool.false_eq_true, ↓reduceIte, Except.ok.injEq] at h
      subst h
      exact ⟨rfl, rfl⟩
    · simp only [if_true] at h
      obtain ⟨s, c, hc⟩ := calcScale_frame N ⟨⟨array, out⟩, b, scaler, N.toScaler scaler 1, false⟩
        false
      rw [Outcome.eq_of_obj_eq_ok h] at hc
      subst hc
      exact ⟨rfl, rfl⟩

/-- numpy's constructor next to an exact one: numpy's slope is the exact one, rounded. -/
theorem init_numpy_rounds {array : SourceArray} {o : Option DType} {c : Bool} {scaler : DType}
    (hab : array.AbsExact sr) {w w₀ : SlopeArrayWriter}
    (hw : init (.numpy sr) array o c scaler = .ok w)
    (hw₀ : init (.exact sr) array o c scaler = .ok w₀) :
    SlopeRounds w₀.scalerDtype w.slope w₀.slope := by
  obtain ⟨w₁, hw₁, -, hr⟩ := init_rounds hab hw
  rw [hw₀, Except.ok.injEq] at hw₁
  exact hw₁ ▸ hr

/-- **`SlopeArrayWriter` under numpy's rounding.**  Take a source where numpy's `abs` is exact,
a scaler of at most `53` bits, and the writers numpy and exact arithmetic build, with the exact
slope in the scaler's normal range.  numpy's slope is finite, and numpy's image `v / slope` of
every value is within `2 |y| / (2^p - 2)` of the exact image `y`, `p` the scaler's significand
width. -/
theorem init_numpy_relative {array : SourceArray} {out scaler : DType} (hab : array.AbsExact sr)
    (hp : significandBits scaler ≤ 53) {w w₀ : SlopeArrayWriter}
    (hw : init (.numpy sr) array (some out) true scaler = .ok w)
    (hw₀ : init (.exact sr) array (some out) true scaler = .ok w₀)
    (hn : Normal scaler w₀.slope) :
    (Numerics.numpy sr).isFinite scaler w.slope = true ∧
      ∀ v, |v / w.slope - v / w₀.slope| ≤
        2 * |v / w₀.slope| / (2 ^ significandBits scaler - 2) := by
  have hr := init_numpy_rounds hab hw hw₀
  rw [(init_dtypes hw₀).2] at hr
  exact ⟨hr.isFinite hn, hr.abs_image_sub_le hp hn⟩

/-- `np.array([0., 510.])`: a `float64` range whose slope onto `uint8` is `2`. -/
def float510 : SourceArray := .ofFloats 0 510 (by norm_num)

/-- The writer of `float510` as `uint8` with a `float32` scaler. -/
def float510Writer : SlopeArrayWriter := ⟨⟨float510, .uint 8⟩, true, .float 32, 2, true⟩

/-- Either arithmetic builds `float510Writer`: the slope `510 / 255` is `2`, which
`np.longdouble` and `float32` hold exactly. -/
theorem init_float510 (N : Numerics) (hsr : N.sharedRange = wholeRange)
    (h2 : N.toScaler (.float 32) (N.longdouble 2) = 2) :
    init N float510 (some (.uint 8)) true (.float 32) = .ok float510Writer := by
  rw [@init_float_unchecked N float510 (.uint 8) (.float 32) 0 510 rfl rfl (by decide) rfl
    (by norm_num)]
  norm_num [hsr, wholeRange, DType.max, DType.kind, h2, float510Writer]

theorem init_float510_numpy :
    init (.numpy wholeRange) float510 (some (.uint 8)) true (.float 32) = .ok float510Writer :=
  init_float510 _ rfl (by
    rw [Numerics.numpy_toScaler, Numerics.numpy_longdouble]
    exact_mod_cast (congrArg _ (longdouble_intCast (n := 2) (by norm_num))).trans
      (roundToFloat_scaler_intCast (.float 32) (n := 2) (by norm_num [significandBits])))

theorem init_numpy_relative_float510 :
    float510.AbsExact wholeRange ∧ significandBits (.float 32) ≤ 53 ∧
    init (.numpy wholeRange) float510 (some (.uint 8)) true (.float 32) = .ok float510Writer ∧
    init (.exact wholeRange) float510 (some (.uint 8)) true (.float 32) = .ok float510Writer ∧
    Normal (.float 32) float510Writer.slope ∧
    (Numerics.numpy wholeRange).isFinite (.float 32) float510Writer.slope = true ∧
      ∀ v, |v / float510Writer.slope - v / float510Writer.slope| ≤
        2 * |v / float510Writer.slope| / (2 ^ significandBits (.float 32) - 2) := by
  have hab : float510.AbsExact wholeRange := SourceArray.absExact_of_kind_f rfl
  have hw := init_float510_numpy
  have hw₀ := init_float510 (.exact wholeRange) rfl rfl
  have hn : Normal (.float 32) float510Writer.slope := by
    norm_num [Normal, float510Writer, minExponent, maxExponent]
  exact ⟨hab, by decide, hw, hw₀, hn, init_numpy_relative hab (by decide) hw hw₀ hn⟩

/-- **`SlopeArrayWriter` round-trips under numpy's rounding.**  For a real source where numpy's
`abs` is exact, a scaler of at most `53` bits and an integer target narrow beside it
(`4 (max - min) + 2 < 2^p`, as for 8- and 16-bit targets and a `float32` scaler), with the exact
slope in the scaler's normal range: the writer numpy builds stores every finite value as an
integer of the target and decodes it to within half its slope.  The range law holds as under
exact arithmetic. -/
theorem init_numpy_roundTrips {array : SourceArray} {out scaler : DType}
    (hs : array.dtype.isInteger = true ∨ array.dtype.kind = 'f') (hab : array.AbsExact sr)
    (ho : out.isInt = true) (hsr : SharedRangeOk sr scaler out) (hp : significandBits scaler ≤ 53)
    (hspan : 4 * ((out.max : ℚ) - out.min) + 2 < 2 ^ significandBits scaler)
    {w w₀ : SlopeArrayWriter}
    (hw : init (.numpy sr) array (some out) true scaler = .ok w)
    (hw₀ : init (.exact sr) array (some out) true scaler = .ok w₀)
    (hn : Normal scaler w₀.slope) :
    ∀ mn mx, array.finiteRange = .range mn mx → RoundTrips out.min out.max mn mx w.slope 0 := by
  have hr := init_numpy_rounds hab hw hw₀
  rw [(init_dtypes hw₀).2] at hr
  rcases init_exact hs ho hsr with ⟨w₁, hw₁, -, hmap⟩ | ⟨he, -⟩
  · rw [hw₀, Except.ok.injEq] at hw₁
    subst hw₁
    intro mn mx hfr
    refine roundTrips_of_near (hmap mn mx hfr).1 (hr.ne_zero hp hn) fun v h₁ h₂ => ?_
    have hy := (hmap mn mx hfr).1 v h₁ h₂
    simp only [sub_zero] at hy ⊢
    calc _ ≤ 2 * |v / w₀.slope| / (2 ^ significandBits scaler - 2) := hr.abs_image_sub_le hp hn v
      _ < 1 / 2 := by
          rw [div_lt_iff₀ (by linarith)]
          linarith [abs_le_span_of_mem hy.1 hy.2]
  · rw [hw₀] at he
    cases he

theorem init_numpy_roundTrips_float510 :
    (float510.dtype.isInteger = true ∨ float510.dtype.kind = 'f') ∧
    float510.AbsExact wholeRange ∧ (DType.uint 8).isInt = true ∧
    SharedRangeOk wholeRange (.float 32) (.uint 8) ∧ significandBits (.float 32) ≤ 53 ∧
    4 * (((DType.uint 8).max : ℚ) - (DType.uint 8).min) + 2 < 2 ^ significandBits (.float 32) ∧
    init (.numpy wholeRange) float510 (some (.uint 8)) true (.float 32) = .ok float510Writer ∧
    init (.exact wholeRange) float510 (some (.uint 8)) true (.float 32) = .ok float510Writer ∧
    Normal (.float 32) float510Writer.slope ∧
    ∀ mn mx, float510.finiteRange = .range mn mx →
      RoundTrips (DType.uint 8).min (DType.uint 8).max mn mx float510Writer.slope 0 := by
  have hab : float510.AbsExact wholeRange := SourceArray.absExact_of_kind_f rfl
  have hsr : SharedRangeOk wholeRange (.float 32) (.uint 8) := wholeRange_ok (by decide)
  have hspan : 4 * (((DType.uint 8).max : ℚ) - (DType.uint 8).min) + 2 <
      2 ^ significandBits (.float 32) := by norm_num [DType.max, DType.min, significandBits]
  have hw := init_float510_numpy
  have hw₀ := init_float510 (.exact wholeRange) rfl rfl
  have hn : Normal (.float 32) float510Writer.slope := by
    norm_num [Normal, float510Writer, minExponent, maxExponent]
  exact ⟨.inr rfl, hab, rfl, hsr, by decide, hspan, hw, hw₀, hn,
    @init_numpy_roundTrips wholeRange float510 (.uint 8) (.float 32) (.inr rfl) hab rfl hsr
      (by decide) hspan _ _ hw hw₀ hn⟩

end SlopeArrayWriter

/-! ## `SlopeInterArrayWriter` -/

namespace SlopeInterArrayWriter

/-- `_range_scale`'s slope in `np.longdouble`, `L(L(mx - mn) / L(shared_max - shared_min))`, is
within `5` units of `np.longdouble`'s last place of the exact slope, for a shared range at least
`1` wide. -/
theorem abs_rangeSlope_sub_le {t o : DType} {mn mx : ℚ} (hS : 1 ≤ (sr t o).2 - (sr t o).1)
    (hs : 2 ^ (-16382 : ℤ) ≤ |rangeSlope (.exact sr) t o mn mx|) :
    |rangeSlope (.numpy sr) t o mn mx - rangeSlope (.exact sr) t o mn mx| ≤
      5 / 2 ^ 64 * |rangeSlope (.exact sr) t o mn mx| := by
  rw [rangeSlope_exact] at hs ⊢
  simp only [rangeSlope, Numerics.numpy_longdouble, Numerics.numpy_sharedRange]
  set S := (sr t o).2 - (sr t o).1
  set D := mx - mn
  have hS0 : 0 < S := by linarith
  have hD : |D / S| ≤ |D| := by
    rw [abs_div, abs_of_pos hS0]
    exact div_le_self (abs_nonneg _) hS
  -- the span, the shared span, and their quotient
  have eD := abs_longdouble_sub_le le_rfl (hs.trans hD)
  have eS := abs_longdouble_sub_le (abs_of_pos hS0).le
    ((zpow_le_one_of_nonpos₀ one_le_two (by norm_num)).trans hS)
  have eq := abs_div_sub_le hS0 (by norm_num) eD eS
  set q := roundToFloat 64 (-16382) D / roundToFloat 64 (-16382) S
  have hq : |q| ≤ |D / S| + 3 * (1 / 2 ^ 64) * |D / S| := by
    have := abs_sub_abs_le_abs_sub q (D / S)
    linarith
  have e₃ := abs_longdouble_sub_le hq (hs.trans (le_add_of_nonneg_right (by positivity)))
  calc |roundToFloat 64 (-16382) q - D / S|
      ≤ |roundToFloat 64 (-16382) q - q| + |q - D / S| := abs_sub_le _ _ _
    _ ≤ 1 / 2 ^ 64 * (|D / S| + 3 * (1 / 2 ^ 64) * |D / S|) + 3 * (1 / 2 ^ 64) * |D / S| :=
        add_le_add e₃ eq
    _ ≤ 5 / 2 ^ 64 * |D / S| := by linarith [abs_nonneg (D / S)]

/-- `_range_scale`'s intercept in `np.longdouble`, `L(mn - L(shared_min * slope))` with the
`np.longdouble` slope, is within `(|inter| + (8 |shared_min| + 3) |slope|) / 2^64` of the exact
intercept `mn - shared_min * slope`. -/
theorem abs_rangeInter_sub_le {t o : DType} {mn mx : ℚ} (hS : 1 ≤ (sr t o).2 - (sr t o).1)
    (hs : 2 ^ (-16382 : ℤ) ≤ |rangeSlope (.exact sr) t o mn mx|) :
    |rangeInter (.numpy sr) t o mn mx - rangeInter (.exact sr) t o mn mx| ≤
      1 / 2 ^ 64 * (|rangeInter (.exact sr) t o mn mx| +
        (8 * |(sr t o).1| + 3) * |rangeSlope (.exact sr) t o mn mx|) := by
  have e₁ := abs_rangeSlope_sub_le hS hs
  set s₀ := rangeSlope (.exact sr) t o mn mx
  set s₁ := rangeSlope (.numpy sr) t o mn mx
  set m := (sr t o).1
  have hi₀ : rangeInter (.exact sr) t o mn mx = mn - m * s₀ := rfl
  have hi₁ : rangeInter (.numpy sr) t o mn mx =
      roundToFloat 64 (-16382) (mn - roundToFloat 64 (-16382) (m * s₁)) := rfl
  rw [hi₀, hi₁]
  have hm := abs_nonneg m
  have hs₀ := abs_nonneg s₀
  have hms := mul_nonneg hm hs₀
  have hs₁ : |s₁| ≤ |s₀| + 5 / 2 ^ 64 * |s₀| := by
    have := abs_sub_abs_le_abs_sub s₁ s₀
    linarith
  -- the product `shared_min * slope`
  have e₂ := abs_longdouble_sub_le (x := m * s₁) (M := |m| * (|s₀| + 5 / 2 ^ 64 * |s₀|) + |s₀|)
    (by rw [abs_mul]; linarith [mul_le_mul_of_nonneg_left hs₁ hm]) (hs.trans (le_add_of_nonneg_left
      (mul_nonneg hm (by linarith))))
  -- the difference `mn - shared_min * slope`
  set i' := mn - roundToFloat 64 (-16382) (m * s₁)
  have e₃ : |i' - (mn - m * s₀)| ≤ 1 / 2 ^ 64 * ((7 * |m| + 1) * |s₀|) :=
    calc |i' - (mn - m * s₀)| = |m * (s₀ - s₁) + (m * s₁ - roundToFloat 64 (-16382) (m * s₁))| := by
          congr 1
          ring
      _ ≤ |m| * |s₁ - s₀| + |roundToFloat 64 (-16382) (m * s₁) - m * s₁| := by
          refine (abs_add _ _).trans (le_of_eq ?_)
          rw [abs_mul, abs_sub_comm s₀, abs_sub_comm (m * s₁)]
      _ ≤ |m| * (5 / 2 ^ 64 * |s₀|) + 1 / 2 ^ 64 * (|m| * (|s₀| + 5 / 2 ^ 64 * |s₀|) + |s₀|) :=
          add_le_add (mul_le_mul_of_nonneg_left e₁ hm) e₂
      _ ≤ 1 / 2 ^ 64 * ((7 * |m| + 1) * |s₀|) := by linarith
  -- the last rounding in `np.longdouble`
  have hi' : |i'| ≤ |mn - m * s₀| + 1 / 2 ^ 64 * ((7 * |m| + 1) * |s₀|) + |s₀| := by
    have := abs_sub_abs_le_abs_sub i' (mn - m * s₀)
    linarith
  have e₄ := abs_longdouble_sub_le hi' (hs.trans (le_add_of_nonneg_left
    (add_nonneg (abs_nonneg _) (mul_nonneg (by norm_num) (mul_nonneg (by linarith) hs₀)))))
  calc |roundToFloat 64 (-16382) i' - (mn - m * s₀)|
      ≤ |roundToFloat 64 (-16382) i' - i'| + |i' - (mn - m * s₀)| := abs_sub_le _ _ _
    _ ≤ 1 / 2 ^ 64 * (|mn - m * s₀| + 1 / 2 ^ 64 * ((7 * |m| + 1) * |s₀|) + |s₀|) +
          1 / 2 ^ 64 * ((7 * |m| + 1) * |s₀|) := add_le_add e₄ e₃
    _ ≤ 1 / 2 ^ 64 * (|mn - m * s₀| + (8 * |m| + 3) * |s₀|) := by linarith

/-- **The stored slope and intercept.**  Take a scaler of at most `53` bits, a shared range at
least `1` wide and an exact slope in the scaler's normal range.  numpy's slope is within two
units in the scaler's last place of the exact slope.  numpy's intercept is within two units of
the exact intercept's and slope's sizes together, plus `16 |shared_min|` units of
`np.longdouble`'s last place of the slope, which `shared_min * slope` loses. -/
theorem Rounds.abs_sub_le_of_normal {w w₀ : SlopeInterArrayWriter} (h : Rounds sr w w₀)
    (hp : significandBits w₀.scalerDtype ≤ 53)
    (hS : 1 ≤ (sr w₀.scalerDtype w₀.outDtype).2 - (sr w₀.scalerDtype w₀.outDtype).1)
    (hn : 2 ^ minExponent w₀.scalerDtype ≤ |w₀.slope|) :
    |w.slope - w₀.slope| ≤ 2 / 2 ^ significandBits w₀.scalerDtype * |w₀.slope| ∧
      |w.inter - w₀.inter| ≤ 2 / 2 ^ significandBits w₀.scalerDtype * (|w₀.inter| + |w₀.slope|) +
        16 / 2 ^ 64 * (|(sr w₀.scalerDtype w₀.outDtype).1| * |w₀.slope|) := by
  obtain ⟨hε, hu⟩ := unitRoundoff_le hp
  set ε : ℚ := 1 / 2 ^ significandBits w₀.scalerDtype
  have h2ε : (2 : ℚ) / 2 ^ significandBits w₀.scalerDtype = 2 * ε := by ring
  rw [h2ε]
  have hε0 : 0 < ε := by positivity
  have hs₀ := abs_nonneg w₀.slope
  have hi₀ := abs_nonneg w₀.inter
  have hms := mul_nonneg (abs_nonneg (sr w₀.scalerDtype w₀.outDtype).1) hs₀
  rcases h with rfl | ⟨mn, mx, hs, hi, -, -, rfl⟩
  · -- the setters rounded the exact values
    have e₁ := abs_toScaler_sub_le (t := w₀.scalerDtype) le_rfl hn
    have e₂ := abs_toScaler_sub_le (t := w₀.scalerDtype) (le_add_of_nonneg_right hs₀)
      (hn.trans (le_add_of_nonneg_left hi₀))
    exact ⟨e₁.trans (by linarith [mul_nonneg hε0.le hs₀]),
      e₂.trans (by linarith [mul_nonneg hε0.le (add_nonneg hi₀ hs₀)])⟩
  · -- `_range_scale` computed them in `np.longdouble`
    have hL := (zpow_le_zpow_right₀ one_le_two (longdouble_minExponent_le w₀.scalerDtype)).trans hn
    rw [hs] at hL hn ⊢
    rw [hi]
    have e₁ := abs_rangeSlope_sub_le hS hL
    have e₂ := abs_rangeInter_sub_le hS hL
    set s₀ := rangeSlope (.exact sr) w₀.scalerDtype w₀.outDtype mn mx
    set i₀ := rangeInter (.exact sr) w₀.scalerDtype w₀.outDtype mn mx
    set s₁ := rangeSlope (.numpy sr) w₀.scalerDtype w₀.outDtype mn mx
    set i₁ := rangeInter (.numpy sr) w₀.scalerDtype w₀.outDtype mn mx
    set m := (sr w₀.scalerDtype w₀.outDtype).1
    have hs₀ := abs_nonneg s₀
    have hi₀ := abs_nonneg i₀
    have hms := mul_nonneg (abs_nonneg m) hs₀
    simp only [rounded]
    constructor
    · -- the slope: `np.longdouble`'s five units, then the scaler's rounding
      have hs₁ : |s₁| ≤ |s₀| + 5 / 2 ^ 64 * |s₀| := by
        have := abs_sub_abs_le_abs_sub s₁ s₀
        linarith
      have e₃ := abs_toScaler_sub_le (t := w₀.scalerDtype) hs₁
        (hn.trans (le_add_of_nonneg_right (mul_nonneg (by norm_num) hs₀)))
      calc _ ≤ |roundToFloat _ _ s₁ - s₁| + |s₁ - s₀| := abs_sub_le _ _ _
        _ ≤ ε * (|s₀| + 5 / 2 ^ 64 * |s₀|) + 5 / 2 ^ 64 * |s₀| := add_le_add e₃ e₁
        _ ≤ 2 * ε * |s₀| := by
            linarith [mul_le_mul_of_nonneg_right hu hs₀, mul_nonneg hε0.le hs₀]
    · -- the intercept: `np.longdouble`'s error `δ`, then the scaler's rounding
      set δ := 1 / 2 ^ 64 * (|i₀| + (8 * |m| + 3) * |s₀|) with hδ_def
      have hδ : 0 ≤ δ :=
        mul_nonneg (by norm_num) (add_nonneg hi₀ (mul_nonneg (by linarith [abs_nonneg m]) hs₀))
      have hi₁ : |i₁| ≤ |i₀| + δ + |s₀| := by
        have := abs_sub_abs_le_abs_sub i₁ i₀
        linarith
      have e₃ := abs_toScaler_sub_le (t := w₀.scalerDtype) hi₁
        (hn.trans (le_add_of_nonneg_left (add_nonneg hi₀ hδ)))
      calc _ ≤ |roundToFloat _ _ i₁ - i₁| + |i₁ - i₀| := abs_sub_le _ _ _
        _ ≤ ε * (|i₀| + δ + |s₀|) + δ := add_le_add e₃ e₂
        _ ≤ 2 * ε * (|i₀| + |s₀|) + 16 / 2 ^ 64 * (|m| * |s₀|) := by
            linarith [mul_le_mul_of_nonneg_right hε hδ, mul_le_mul_of_nonneg_right hu hi₀,
              mul_le_mul_of_nonneg_right hu hs₀, hδ_def, mul_nonneg hε0.le hi₀, hms]

/-- numpy's slope and intercept are finite: `_range_scale` checked what it stored, and the
setters round an exact slope in the normal range and an intercept below `2 ^ maxExponent` to
finite values. -/
theorem Rounds.isFinite {w w₀ : SlopeInterArrayWriter} (h : Rounds sr w w₀)
    (hn : Normal w₀.scalerDtype w₀.slope) (hi : |w₀.inter| < 2 ^ maxExponent w₀.scalerDtype) :
    (Numerics.numpy sr).isFinite w₀.scalerDtype w.slope = true ∧
      (Numerics.numpy sr).isFinite w₀.scalerDtype w.inter = true := by
  rcases h with rfl | ⟨mn, mx, -, -, hf₁, hf₂, rfl⟩ <;>
    simp only [rounded, isFinite_toScaler]
  · exact ⟨isFinite_of_abs_le hn.2.le, isFinite_of_abs_le hi.le⟩
  · exact ⟨hf₁, hf₂⟩

/-- The constructor keeps the target and the scaler type it is given. -/
theorem init_dtypes {N : Numerics} {array : SourceArray} {out scaler : DType} {c : Bool}
    {w : SlopeInterArrayWriter} (h : init N array (some out) c scaler = .ok w) :
    w.outDtype = out ∧ w.scalerDtype = scaler := by
  cases hsn : scalingNeeded array out with
  | error e => simp [init, SlopeArrayWriter.init, hsn] at h
  | ok b =>
    simp only [init, SlopeArrayWriter.init, hsn, Option.getD_some, Bool.false_eq_true,
      ↓reduceIte] at h
    cases c
    · simp only [Bool.false_eq_true, ↓reduceIte, Except.ok.injEq] at h
      subst h
      exact ⟨rfl, rfl⟩
    · simp only [if_true] at h
      obtain ⟨s, i, c, hc⟩ := calcScale_frame N
        ⟨⟨⟨array, out⟩, b, scaler, N.toScaler scaler 1, false⟩, N.toScaler scaler 0⟩ false
      rw [Outcome.eq_of_obj_eq_ok h] at hc
      subst hc
      exact ⟨rfl, rfl⟩

/-- numpy's constructor next to an exact one over a source where numpy's `abs` is exact. -/
theorem init_numpy_rounds {array : SourceArray} {o : Option DType} {c : Bool} {scaler : DType}
    (hab : array.AbsExact sr) {w w₀ : SlopeInterArrayWriter}
    (hw : init (.numpy sr) array o c scaler = .ok w)
    (hw₀ : init (.exact sr) array o c scaler = .ok w₀) : Rounds sr w w₀ := by
  obtain ⟨w₁, hw₁, hr⟩ := init_rounds hab hw
  rw [hw₀, Except.ok.injEq] at hw₁
  exact hw₁ ▸ hr

/-- numpy's image next to the exact image, for related writers. -/
theorem Rounds.abs_image_sub_le {w w₀ : SlopeInterArrayWriter} (h : Rounds sr w w₀)
    (hp : significandBits w₀.scalerDtype ≤ 53)
    (hS : 1 ≤ (sr w₀.scalerDtype w₀.outDtype).2 - (sr w₀.scalerDtype w₀.outDtype).1)
    (hn : Normal w₀.scalerDtype w₀.slope) (v : ℚ) :
    |(v - w.inter) / w.slope - (v - w₀.inter) / w₀.slope| ≤
      4 * (|(v - w₀.inter) / w₀.slope| + |w₀.inter / w₀.slope| + 1) /
          2 ^ significandBits w₀.scalerDtype +
        32 * |(sr w₀.scalerDtype w₀.outDtype).1| / 2 ^ 64 := by
  obtain ⟨e₁, e₂⟩ := h.abs_sub_le_of_normal hp hS hn.1
  have hε := (unitRoundoff_le hp).1
  have hs₀ : 0 < |w₀.slope| := abs_pos.2 hn.ne_zero
  set m := (sr w₀.scalerDtype w₀.outDtype).1
  set p := significandBits w₀.scalerDtype
  have hb : |w.inter - w₀.inter| ≤
      (2 / 2 ^ p * (|w₀.inter / w₀.slope| + 1) + 16 / 2 ^ 64 * |m|) * |w₀.slope| := by
    have hr : |w₀.inter| = |w₀.inter / w₀.slope| * |w₀.slope| := by
      rw [abs_div, div_mul_cancel₀ _ hs₀.ne']
    refine e₂.trans (le_of_eq ?_)
    rw [hr]
    ring
  have ha : 2 / 2 ^ p ≤ (1 / 2 : ℚ) := by
    rw [show (2 : ℚ) / 2 ^ p = 2 * (1 / 2 ^ p) by ring]
    linarith
  have hX : 0 ≤ 2 / 2 ^ p * |(v - w₀.inter) / w₀.slope| +
      (2 / 2 ^ p * (|w₀.inter / w₀.slope| + 1) + 16 / 2 ^ 64 * |m|) := by positivity
  calc _ ≤ (2 / 2 ^ p * |(v - w₀.inter) / w₀.slope| +
          (2 / 2 ^ p * (|w₀.inter / w₀.slope| + 1) + 16 / 2 ^ 64 * |m|)) / (1 - 2 / 2 ^ p) :=
        abs_transform_sub_le hn.ne_zero (by linarith) e₁ hb
    _ ≤ 2 * (2 / 2 ^ p * |(v - w₀.inter) / w₀.slope| +
          (2 / 2 ^ p * (|w₀.inter / w₀.slope| + 1) + 16 / 2 ^ 64 * |m|)) := by
        rw [div_le_iff₀ (by linarith)]
        linarith [mul_le_mul_of_nonneg_left ha hX]
    _ = _ := by ring

/-- **`SlopeInterArrayWriter` under numpy's rounding.**  Take a source where numpy's `abs` is
exact, a scaler of at most `53` bits, a shared range at least `1` wide, and the writers numpy
and exact arithmetic build, with the exact slope in the scaler's normal range and the exact
intercept below `2 ^ maxExponent`.  numpy's slope and intercept are finite, and numpy's image
`(v - inter) / slope` of every value is within `4 (|y| + |r| + 1) / 2^p + 32 |shared_min| / 2^64`
of the exact image `y`.  `r` is the exact intercept counted in exact slopes: the error grows with
the offset of the data, whatever their span. -/
theorem init_numpy_offset_error {array : SourceArray} {out scaler : DType}
    (hab : array.AbsExact sr) (hp : significandBits scaler ≤ 53)
    (hS : 1 ≤ (sr scaler out).2 - (sr scaler out).1) {w w₀ : SlopeInterArrayWriter}
    (hw : init (.numpy sr) array (some out) true scaler = .ok w)
    (hw₀ : init (.exact sr) array (some out) true scaler = .ok w₀)
    (hn : Normal scaler w₀.slope) (hi : |w₀.inter| < 2 ^ maxExponent scaler) :
    (Numerics.numpy sr).isFinite scaler w.slope = true ∧
      (Numerics.numpy sr).isFinite scaler w.inter = true ∧
      ∀ v, |(v - w.inter) / w.slope - (v - w₀.inter) / w₀.slope| ≤
        4 * (|(v - w₀.inter) / w₀.slope| + |w₀.inter / w₀.slope| + 1) / 2 ^ significandBits scaler +
          32 * |(sr scaler out).1| / 2 ^ 64 := by
  have hr := init_numpy_rounds hab hw hw₀
  obtain ⟨rfl, rfl⟩ := init_dtypes hw₀
  exact ⟨(hr.isFinite hn hi).1, (hr.isFinite hn hi).2, hr.abs_image_sub_le hp hS hn⟩

/-- **`SlopeInterArrayWriter` round-trips under numpy's rounding when the offset is small.**  For
a real source where numpy's `abs` is exact, a scaler of at most `53` bits and an integer target,
take the writers numpy and exact arithmetic build, with the exact slope in the scaler's normal
range.  If the target's span plus the exact intercept counted in exact slopes, plus one, is at
most `2^p / 16`, the writer numpy builds stores every finite value as an integer of the target
and decodes it to within half its slope. -/
theorem init_numpy_roundTrips_of_offset {array : SourceArray} {out scaler : DType}
    (hs : array.dtype.isInteger = true ∨ array.dtype.kind = 'f') (hab : array.AbsExact sr)
    (ho : out.isInt = true) (hsr : SharedRangeOk sr scaler out) (hp : significandBits scaler ≤ 53)
    (hS : 1 ≤ (sr scaler out).2 - (sr scaler out).1) {w w₀ : SlopeInterArrayWriter}
    (hw : init (.numpy sr) array (some out) true scaler = .ok w)
    (hw₀ : init (.exact sr) array (some out) true scaler = .ok w₀)
    (hn : Normal scaler w₀.slope)
    (hoff : 16 * ((out.max : ℚ) - out.min + |w₀.inter / w₀.slope| + 1) ≤
      2 ^ significandBits scaler) :
    ∀ mn mx, array.finiteRange = .range mn mx → RoundTrips out.min out.max mn mx w.slope w.inter := by
  have hr := init_numpy_rounds hab hw hw₀
  obtain ⟨w₁, hw₁, -, hmap⟩ := init_exact hs ho hsr
  rw [hw₀, Except.ok.injEq] at hw₁
  subst hw₁
  obtain ⟨rfl, rfl⟩ := init_dtypes hw₀
  intro mn mx hfr
  refine roundTrips_of_near (hmap mn mx hfr).1
    (ne_zero_of_abs_sub_le hn.ne_zero (hr.abs_sub_le_of_normal hp hS hn.1).1) fun v h₁ h₂ => ?_
  have hy := abs_le_span_of_mem ((hmap mn mx hfr).1 v h₁ h₂).1 ((hmap mn mx hfr).1 v h₁ h₂).2
  -- `shared_min` lies in `[out.min, 0]`, so within the target's span
  have hm : |(sr w₀.scalerDtype w₀.outDtype).1| ≤ (w₀.outDtype.max : ℚ) - w₀.outDtype.min := by
    rw [abs_of_nonpos hsr.smin_nonpos]
    linarith [hsr.min_le, (show (0 : ℚ) ≤ w₀.outDtype.max by exact_mod_cast w₀.outDtype.max_nonneg)]
  have hP : (2 : ℚ) ^ significandBits w₀.scalerDtype ≤ 2 ^ 53 := pow_le_pow_right₀ one_le_two hp
  have hP0 : (0 : ℚ) < 2 ^ significandBits w₀.scalerDtype := by positivity
  have h := hr.abs_image_sub_le hp hS hn v
  refine h.trans_lt ?_
  have h₁ : 4 * (|(v - w₀.inter) / w₀.slope| + |w₀.inter / w₀.slope| + 1) /
      2 ^ significandBits w₀.scalerDtype ≤ 1 / 4 := by
    rw [div_le_iff₀ hP0]
    linarith
  have h₂ : 32 * |(sr w₀.scalerDtype w₀.outDtype).1| / 2 ^ 64 < 1 / 4 := by
    rw [div_lt_iff₀ (by positivity)]
    linarith [abs_nonneg (w₀.inter / w₀.slope)]
  linarith

/-- The writer of `float510` as `uint8` with a `float32` scaler. -/
def float510Writer : SlopeInterArrayWriter := ⟨SlopeArrayWriter.float510Writer, 0⟩

/-- numpy builds `float510Writer`: `np.longdouble` computes the slope `510 / 255 = 2` and the
intercept `0 - 0 * 2 = 0` exactly, and `float32` holds both. -/
theorem init_float510_numpy :
    init (.numpy wholeRange) SlopeArrayWriter.float510 (some (.uint 8)) true (.float 32) =
      .ok float510Writer := by
  have h510 : roundToFloat 64 (-16382) (510 : ℚ) = 510 := by
    exact_mod_cast longdouble_intCast (n := 510) (by norm_num)
  have h255 : roundToFloat 64 (-16382) (255 : ℚ) = 255 := by
    exact_mod_cast longdouble_intCast (n := 255) (by norm_num)
  have h2 : roundToFloat 64 (-16382) (2 : ℚ) = 2 := by
    exact_mod_cast longdouble_intCast (n := 2) (by norm_num)
  have hs : rangeSlope (.numpy wholeRange) (.float 32) (.uint 8) 0 510 = 2 := by
    simp only [rangeSlope, Numerics.numpy_longdouble, Numerics.numpy_sharedRange, wholeRange,
      DType.max, DType.min]
    norm_num [h510, h255, h2]
  have hi : rangeInter (.numpy wholeRange) (.float 32) (.uint 8) 0 510 = 0 := by
    simp [rangeInter, hs, wholeRange, DType.min]
  have hR2 : roundToFloat (significandBits (.float 32)) (minExponent (.float 32)) (2 : ℚ) = 2 := by
    exact_mod_cast roundToFloat_scaler_intCast (.float 32) (n := 2) (by norm_num [significandBits])
  rw [@init_float_eq (.numpy wholeRange) SlopeArrayWriter.float510 (.uint 8) (.float 32) 0 510 rfl
    rfl (by decide) rfl (by norm_num)]
  simp only [hs, hi, Numerics.numpy_isFinite, Numerics.numpy_toScaler, hR2, roundToFloat_zero]
  norm_num [maxExponent, float510Writer, SlopeArrayWriter.float510Writer]

theorem init_float510_exact :
    init (.exact wholeRange) SlopeArrayWriter.float510 (some (.uint 8)) true (.float 32) =
      .ok float510Writer := by
  rw [@init_float_eq (.exact wholeRange) SlopeArrayWriter.float510 (.uint 8) (.float 32) 0 510 rfl
    rfl (by decide) rfl (by norm_num)]
  norm_num [wholeRange, DType.max, DType.min, float510Writer, SlopeArrayWriter.float510Writer]

theorem init_numpy_offset_error_float510 :
    SlopeArrayWriter.float510.AbsExact wholeRange ∧ significandBits (.float 32) ≤ 53 ∧
    1 ≤ (wholeRange (.float 32) (.uint 8)).2 - (wholeRange (.float 32) (.uint 8)).1 ∧
    init (.numpy wholeRange) SlopeArrayWriter.float510 (some (.uint 8)) true (.float 32) =
      .ok float510Writer ∧
    init (.exact wholeRange) SlopeArrayWriter.float510 (some (.uint 8)) true (.float 32) =
      .ok float510Writer ∧
    Normal (.float 32) float510Writer.slope ∧ |float510Writer.inter| < 2 ^ maxExponent (.float 32) ∧
    (Numerics.numpy wholeRange).isFinite (.float 32) float510Writer.slope = true ∧
    (Numerics.numpy wholeRange).isFinite (.float 32) float510Writer.inter = true ∧
    ∀ v, |(v - float510Writer.inter) / float510Writer.slope -
        (v - float510Writer.inter) / float510Writer.slope| ≤
      4 * (|(v - float510Writer.inter) / float510Writer.slope| +
          |float510Writer.inter / float510Writer.slope| + 1) / 2 ^ significandBits (.float 32) +
        32 * |(wholeRange (.float 32) (.uint 8)).1| / 2 ^ 64 := by
  have hab : SlopeArrayWriter.float510.AbsExact wholeRange := SourceArray.absExact_of_kind_f rfl
  have hS : 1 ≤ (wholeRange (.float 32) (.uint 8)).2 - (wholeRange (.float 32) (.uint 8)).1 := by
    norm_num [wholeRange, DType.max, DType.min]
  have hn : Normal (.float 32) float510Writer.slope := by
    norm_num [Normal, float510Writer, SlopeArrayWriter.float510Writer, minExponent, maxExponent]
  have hi : |float510Writer.inter| < 2 ^ maxExponent (.float 32) := by
    norm_num [float510Writer, maxExponent]
  exact ⟨hab, by decide, hS, init_float510_numpy, init_float510_exact, hn, hi,
    init_numpy_offset_error hab (by decide) hS init_float510_numpy init_float510_exact hn hi⟩

theorem init_numpy_roundTrips_of_offset_float510 :
    (SlopeArrayWriter.float510.dtype.isInteger = true ∨
      SlopeArrayWriter.float510.dtype.kind = 'f') ∧
    SlopeArrayWriter.float510.AbsExact wholeRange ∧ (DType.uint 8).isInt = true ∧
    SharedRangeOk wholeRange (.float 32) (.uint 8) ∧ significandBits (.float 32) ≤ 53 ∧
    1 ≤ (wholeRange (.float 32) (.uint 8)).2 - (wholeRange (.float 32) (.uint 8)).1 ∧
    init (.numpy wholeRange) SlopeArrayWriter.float510 (some (.uint 8)) true (.float 32) =
      .ok float510Writer ∧
    init (.exact wholeRange) SlopeArrayWriter.float510 (some (.uint 8)) true (.float 32) =
      .ok float510Writer ∧
    Normal (.float 32) float510Writer.slope ∧
    16 * (((DType.uint 8).max : ℚ) - (DType.uint 8).min +
      |float510Writer.inter / float510Writer.slope| + 1) ≤ 2 ^ significandBits (.float 32) ∧
    ∀ mn mx, SlopeArrayWriter.float510.finiteRange = .range mn mx →
      RoundTrips (DType.uint 8).min (DType.uint 8).max mn mx float510Writer.slope
        float510Writer.inter := by
  have hab : SlopeArrayWriter.float510.AbsExact wholeRange := SourceArray.absExact_of_kind_f rfl
  have hsr : SharedRangeOk wholeRange (.float 32) (.uint 8) := wholeRange_ok (by decide)
  have hS : 1 ≤ (wholeRange (.float 32) (.uint 8)).2 - (wholeRange (.float 32) (.uint 8)).1 := by
    norm_num [wholeRange, DType.max, DType.min]
  have hn : Normal (.float 32) float510Writer.slope := by
    norm_num [Normal, float510Writer, SlopeArrayWriter.float510Writer, minExponent, maxExponent]
  have hoff : 16 * (((DType.uint 8).max : ℚ) - (DType.uint 8).min +
      |float510Writer.inter / float510Writer.slope| + 1) ≤ 2 ^ significandBits (.float 32) := by
    norm_num [DType.max, DType.min, float510Writer, significandBits]
  exact ⟨.inr rfl, hab, rfl, hsr, by decide, hS, init_float510_numpy, init_float510_exact, hn, hoff,
    @init_numpy_roundTrips_of_offset wholeRange SlopeArrayWriter.float510 (.uint 8) (.float 32)
      (.inr rfl) hab rfl hsr (by decide) hS _ _ init_float510_numpy init_float510_exact hn hoff⟩

end SlopeInterArrayWriter

end Nibabel.ArrayWriters
