import Nibabel.ArrayWriters.Exact
import Nibabel.Numpy.Rounding

set_option autoImplicit false

/-!
# The writers under numpy's fixed-width arithmetic

`Numerics.numpy` is the arithmetic the code runs with on x86-64: `abs` on an `int{w}` scalar is
`w`-bit two's complement, the `slope` and `inter` setters round to the scaler type, subnormals
included, and `np.longdouble` is the x87 extended type.  `shared_range` stays a parameter,
assumed only to meet `SharedRangeOk`.

Two branches of `_do_scaling` read these operations, and each goes wrong past one size, whatever
`shared_range` returns:

* the sign flip tests `abs(mn) <= shared_max`, and `abs(-32768)` of an `int16` is `-32768`, so
  `[-32768, 0]` is flipped onto `[0, 32768]`, outside `uint8` (`signFlip_int16Min`).  At every
  width the type's minimum passes the test (`signFlip_min`);
* the pure offset stores `inter = float32(mn)`, and for `mn = 2**24 + 3` that is `2**24 + 4`, so
  the constant array decodes to `-1`, outside `uint8` (`offset_int32Rounded`).

Below the two sizes where they go wrong, both branches are right: `signFlip_sound` shows it for
the sign flip above the type's minimum, and `offset_sound` for an intercept of fewer bits than
the scaler's significand, from the pure offset or from a constant array.

The `ScalingError` of `SlopeInterArrayWriter._range_scale` is where overflow shows:
`init_float_eq` says that on floating data the writer raises it exactly when the span slope or
its intercept is not finite in the scaler type.  `SlopeArrayWriter._range_scale` has no such
test: `init_float_unchecked` builds the writer whatever its slope.
-/

namespace Nibabel.Numpy

/-- The significand bits of a binary floating type: `float16`, `float32` and `float64` by width.
Every other dtype gets the 64 bits of the x87 extended type, which is what `np.longdouble`
(`float96` or `float128`) is on x86-64.  The writers' scaler is a floating type (`float32` by
default), so the fallback is met only by `np.longdouble`. -/
def significandBits : DType → Nat
  | .float 16 => 11
  | .float 32 => 24
  | .float 64 => 53
  | _ => 64

/-- The least normal binary exponent of a floating type, with the same fallback: below
`2 ^ minExponent t` the type's values are subnormal. -/
def minExponent : DType → ℤ
  | .float 16 => -14
  | .float 32 => -126
  | .float 64 => -1022
  | _ => -16382

/-- The largest binary exponent of a floating type's finite values, with the same fallback. -/
def maxExponent : DType → Nat
  | .float 16 => 15
  | .float 32 => 127
  | .float 64 => 1023
  | _ => 16383

theorem one_le_significandBits (t : DType) : 1 ≤ significandBits t := by
  unfold significandBits
  split <;> omega

theorem two_le_significandBits (t : DType) : 2 ≤ significandBits t := by
  unfold significandBits
  split <;> omega

/-- No type's least normal exponent is below `np.longdouble`'s. -/
theorem longdouble_minExponent_le (t : DType) : -16382 ≤ minExponent t := by
  unfold minExponent
  split <;> omega

/-- Every floating type's subnormal spacing is below `1`, so it holds small integers exactly. -/
theorem minExponent_add_one_le (t : DType) : minExponent t + 1 ≤ significandBits t := by
  unfold minExponent significandBits
  split <;> omega

/-- An integer of fewer bits than the scaler's significand is stored exactly. -/
theorem roundToFloat_scaler_intCast (t : DType) {n : ℤ} (hn : |n| < 2 ^ significandBits t) :
    roundToFloat (significandBits t) (minExponent t) n = n :=
  roundToFloat_intCast (one_le_significandBits t) (minExponent_add_one_le t) hn

theorem one_lt_two_pow_significandBits (t : DType) : (1 : ℤ) < 2 ^ significandBits t := by
  exact_mod_cast Nat.one_lt_two_pow (Nat.one_le_iff_ne_zero.1 (one_le_significandBits t))

/-- Every scaler type stores `1` exactly, so the initial `slope = 1.0` is `1`. -/
@[simp] theorem roundToFloat_significandBits_one (t : DType) :
    roundToFloat (significandBits t) (minExponent t) 1 = 1 := by
  exact_mod_cast roundToFloat_scaler_intCast t (n := 1)
    (by rw [abs_one]; exact one_lt_two_pow_significandBits t)

/-- Every scaler type stores `-1` exactly, the slope of the sign flip. -/
@[simp] theorem roundToFloat_significandBits_neg_one (t : DType) :
    roundToFloat (significandBits t) (minExponent t) (-1) = -1 := by
  exact_mod_cast roundToFloat_scaler_intCast t (n := -1)
    (by rw [abs_neg, abs_one]; exact one_lt_two_pow_significandBits t)

end Nibabel.Numpy

namespace Nibabel.ArrayWriters

open Nibabel.Numpy

/-- numpy's arithmetic on x86-64, with `shared_range` as a parameter.  `abs(x)` of an `int{w}`
scalar is `w`-bit two's complement and of anything else the absolute value.
`scaler_dtype.type(x)` rounds to nearest in the scaler type, ties to even, subnormals included
(`roundToFloat_nearest`).  The result is finite when it stays below the type's overflow
threshold; a result at or past it is `inf` in numpy and has no rational value here.
`np.longdouble` operations round the same way in the x87 extended format. -/
def Numerics.numpy (sharedRange : DType → DType → ℚ × ℚ) : Numerics where
  absOf t x := match t with
    | .int w => twosAbs w ⌊x⌋
    | _ => |x|
  toScaler t x := roundToFloat (significandBits t) (minExponent t) x
  isFinite t x :=
    decide (|roundToFloat (significandBits t) (minExponent t) x| < 2 ^ (maxExponent t + 1))
  longdouble x := roundToFloat 64 (-16382) x
  sharedRange := sharedRange

@[simp] theorem Numerics.numpy_sharedRange (sr : DType → DType → ℚ × ℚ) :
    (Numerics.numpy sr).sharedRange = sr := rfl
@[simp] theorem Numerics.numpy_toScaler (sr : DType → DType → ℚ × ℚ) (t : DType) (x : ℚ) :
    (Numerics.numpy sr).toScaler t x = roundToFloat (significandBits t) (minExponent t) x := rfl
@[simp] theorem Numerics.numpy_isFinite (sr : DType → DType → ℚ × ℚ) (t : DType) (x : ℚ) :
    (Numerics.numpy sr).isFinite t x =
      decide (|roundToFloat (significandBits t) (minExponent t) x| < 2 ^ (maxExponent t + 1)) :=
  rfl
@[simp] theorem Numerics.numpy_longdouble (sr : DType → DType → ℚ × ℚ) (x : ℚ) :
    (Numerics.numpy sr).longdouble x = roundToFloat 64 (-16382) x := rfl
@[simp] theorem Numerics.numpy_absOf_int (sr : DType → DType → ℚ × ℚ) (w : Nat) (x : ℚ) :
    (Numerics.numpy sr).absOf (.int w) x = twosAbs w ⌊x⌋ := rfl

variable {sr : DType → DType → ℚ × ℚ}

/-! ## The sign flip -/

/-- **The sign flip above the minimum.**  For an `int{b}` source whose least finite value is
above the type's minimum, the test `abs(mn) <= shared_max` is `-mn <= shared_max`, and a sign
flip it admits maps every finite value into the target. -/
theorem signFlip_sound {scaler out : DType} {array : SourceArray} {b : Nat} {mn mx : ℚ}
    (hsr : SharedRangeOk sr scaler out) (hb : 0 < b) (ht : array.dtype = .int b)
    (hr : array.finiteRange = .range mn mx) (hlo : -2 ^ (b - 1) < mn) (hmx : mx ≤ 0)
    (habs : (Numerics.numpy sr).absOf array.dtype mn ≤ (sr scaler out).2) :
    -mn ≤ (sr scaler out).2 ∧ MapsInto out.min out.max mn mx (-1) 0 := by
  have hfits := array.fits
  rw [hr] at hfits
  obtain ⟨hm, hint⟩ := hfits
  have hden := (hint (by simp [ht, DType.isInteger, DType.isInt])).1
  obtain ⟨n, rfl⟩ : ∃ n : ℤ, mn = n := ⟨mn.num, (Rat.coe_int_num_of_den_eq_one hden).symm⟩
  have hn : n ≤ 0 := by exact_mod_cast hm.trans hmx
  rw [ht, Numerics.numpy_absOf_int, Int.floor_intCast,
    twosAbs_of_neg hb (by exact_mod_cast hlo) hn] at habs
  push_cast at habs
  exact ⟨habs, mapsInto_signFlip hmx (habs.trans hsr.le_max) (by exact_mod_cast out.min_nonpos)⟩

/-- `np.array([-100, 0], np.int16)`. -/
def int16Neg : SourceArray := .ofInts (.int 16) (-100) 0 (by decide) (by decide) (by decide)

theorem signFlip_sound_int16Neg :
    (Numerics.numpy wholeRange).absOf int16Neg.dtype (-100) ≤ (wholeRange (.float 32) (.uint 8)).2 ∧
    -(-100 : ℚ) ≤ (wholeRange (.float 32) (.uint 8)).2 ∧
    MapsInto (DType.uint 8).min (DType.uint 8).max (-100) 0 (-1) 0 := by
  have habs : (Numerics.numpy wholeRange).absOf int16Neg.dtype (-100) ≤
      (wholeRange (.float 32) (.uint 8)).2 := by
    have h : twosAbs 16 (-100) = 100 := by decide
    norm_num [int16Neg, SourceArray.ofInts, h, wholeRange, DType.max]
  exact ⟨habs, signFlip_sound (wholeRange_ok (by decide)) (by decide) rfl rfl (by norm_num) le_rfl
    habs⟩

/-- `np.array([-32768, 0], np.int16)`: the range reaches the type's minimum. -/
def int16MinArray : SourceArray :=
  .ofInts (.int 16) (-32768) 0 (by decide) (by decide) (by decide)

/-- **The sign flip at the minimum.**  `[-32768, 0]` of `int16` written as `uint8` with a
`float32` scaler, whatever `shared_range` returns: `abs(-32768)` is `-32768`, which passes the
test, so both classes are built with the sign flip, and `32768` lies outside `uint8`. -/
theorem signFlip_int16Min (hsr : SharedRangeOk sr (.float 32) (.uint 8)) :
    SlopeArrayWriter.init (.numpy sr) int16MinArray (some (.uint 8)) true (.float 32) =
      .ok ⟨⟨int16MinArray, .uint 8⟩, true, .float 32, -1, true⟩ ∧
    SlopeInterArrayWriter.init (.numpy sr) int16MinArray (some (.uint 8)) true (.float 32) =
      .ok ⟨⟨⟨int16MinArray, .uint 8⟩, true, .float 32, -1, true⟩, 0⟩ ∧
    (sr (.float 32) (.uint 8)).2 < -(-32768) ∧
    ¬MapsInto (DType.uint 8).min (DType.uint 8).max (-32768) 0 (-1) 0 := by
  have hmax : (sr (.float 32) (.uint 8)).2 ≤ 255 := by simpa [DType.max] using hsr.le_max
  have hpos := hsr.smax_pos
  have hn : scalingNeeded int16MinArray (.uint 8) = .ok true := by
    have h := @scalingNeeded_eq int16MinArray (.uint 8) (.inl rfl) rfl (by decide)
    simpa [needsScaling, int16MinArray, SourceArray.ofInts, DType.min, DType.max] using h
  have habs : twosAbs 16 (-32768) = -32768 := by decide
  have hif : ('i' : Char) = 'f' ↔ False := by decide
  have hle : (-32768 : ℚ) ≤ (sr (.float 32) (.uint 8)).2 := by linarith
  have hspan : ¬((32768 : ℚ) ≤ (sr (.float 32) (.uint 8)).2) := by linarith
  refine ⟨?_, ?_, by linarith, fun h => ?_⟩
  · rw [SlopeArrayWriter.init_calc _ _ hn]
    norm_num [SlopeArrayWriter.doScaling, int16MinArray, SourceArray.ofInts, DType.isInt,
      DType.min, DType.max, habs, SlopeArrayWriter.setSlope, hle, hif]
  · rw [SlopeInterArrayWriter.init_calc _ _ hn]
    norm_num [SlopeInterArrayWriter.doScaling, int16MinArray, SourceArray.ofInts, DType.isInt,
      DType.min, DType.max, habs, SlopeInterArrayWriter.setSlope, hle, hif, hspan]
  · have := (h (-32768) le_rfl (by norm_num)).2
    norm_num [DType.max] at this

theorem signFlip_int16Min_wholeRange :
    SharedRangeOk wholeRange (.float 32) (.uint 8) ∧
    SlopeArrayWriter.init (.numpy wholeRange) int16MinArray (some (.uint 8)) true (.float 32) =
      .ok ⟨⟨int16MinArray, .uint 8⟩, true, .float 32, -1, true⟩ ∧
    SlopeInterArrayWriter.init (.numpy wholeRange) int16MinArray (some (.uint 8)) true
      (.float 32) = .ok ⟨⟨⟨int16MinArray, .uint 8⟩, true, .float 32, -1, true⟩, 0⟩ ∧
    (wholeRange (.float 32) (.uint 8)).2 < -(-32768) ∧
    ¬MapsInto (DType.uint 8).min (DType.uint 8).max (-32768) 0 (-1) 0 :=
  ⟨wholeRange_ok (by decide), signFlip_int16Min (wholeRange_ok (by decide))⟩

/-- **The sign flip at the minimum, for every width.**  An `int{b}` source whose finite range
`[-2^(b-1), mx]` reaches the type's minimum, with `mx <= 0`, written to an unsigned target:
`abs(-2^(b-1))` is `-2^(b-1)`, which passes the test `abs(mn) <= shared_max`.  So
`SlopeArrayWriter` is built with the sign flip, and so is `SlopeInterArrayWriter` when the span
does not fit the pure offset.  The flip maps the minimum to `2^(b-1)`, outside every target whose
maximum is below it. -/
theorem signFlip_min {array : SourceArray} {out scaler : DType} {b : Nat} {mx : ℚ}
    (hsr : SharedRangeOk sr scaler out) (ho : out.isInt = true) (hu : out.kind = 'u')
    (hb : 0 < b) (ht : array.dtype = .int b) (hr : array.finiteRange = .range (-2 ^ (b - 1)) mx)
    (hmx : mx ≤ 0) :
    SlopeArrayWriter.init (.numpy sr) array (some out) true scaler =
        .ok ⟨⟨array, out⟩, true, scaler, -1, true⟩ ∧
      ((sr scaler out).2 < mx + 2 ^ (b - 1) →
        SlopeInterArrayWriter.init (.numpy sr) array (some out) true scaler =
          .ok ⟨⟨⟨array, out⟩, true, scaler, -1, true⟩, 0⟩) ∧
      ((out.max : ℚ) < 2 ^ (b - 1) → ¬MapsInto out.min out.max (-2 ^ (b - 1)) mx (-1) 0) := by
  have hmin : (out.min : ℚ) = 0 := by
    rcases DType.isInt_cases ho with ⟨c, rfl⟩ | ⟨c, rfl⟩
    · rfl
    · simp at hu
  have hlow : (-2 ^ (b - 1) : ℚ) < 0 := by
    have : (0 : ℚ) < 2 ^ (b - 1) := by positivity
    linarith
  have hn : scalingNeeded array out = .ok true := by
    rw [scalingNeeded_eq (.inl (by simp [ht, DType.isInteger, DType.isInt])) ho hsr.max_pos]
    simp [needsScaling, hr, ht, hmin, hlow.ne, not_le.2 hlow]
  -- `abs` of the minimum is the minimum, below every positive `shared_max`
  have habs : (Numerics.numpy sr).absOf array.dtype (-2 ^ (b - 1)) ≤ (sr scaler out).2 := by
    have hfl : ⌊(-2 ^ (b - 1) : ℚ)⌋ = -2 ^ (b - 1) := by
      exact_mod_cast Int.floor_intCast (-2 ^ (b - 1) : ℤ)
    rw [ht, Numerics.numpy_absOf_int, hfl, twosAbs_min hb]
    push_cast
    linarith [hsr.smax_pos]
  have hfit : ¬(mx ≤ out.max ∧ (out.min : ℚ) ≤ -2 ^ (b - 1)) := fun h => by linarith [h.2]
  have hk : array.dtype.kind ≠ 'f' := by simp [ht]
  refine ⟨?_, fun hspan => ?_, fun hlt hm => ?_⟩
  · rw [SlopeArrayWriter.init_calc _ _ hn, if_pos rfl]
    rcases SlopeArrayWriter.doScaling_cases (.numpy sr)
        ⟨⟨array, out⟩, true, scaler, (Numerics.numpy sr).toScaler scaler 1, true⟩ ho hr with
      ⟨hf, -⟩ | ⟨-, h₁, h₂, -⟩ | ⟨-, -, -, -, -, he⟩ | ⟨-, -, hno, -⟩
    · exact absurd hf hk
    · exact absurd ⟨h₁, h₂⟩ hfit
    · rw [he]
      simp [SlopeArrayWriter.setSlope]
    · exact absurd ⟨hu, hmx, habs⟩ hno
  · rw [SlopeInterArrayWriter.init_calc _ _ hn, if_pos rfl]
    rcases SlopeInterArrayWriter.doScaling_cases (.numpy sr)
        ⟨⟨⟨array, out⟩, true, scaler, (Numerics.numpy sr).toScaler scaler 1, true⟩,
          (Numerics.numpy sr).toScaler scaler 0⟩ ho hr with
      ⟨h0, -⟩ | ⟨-, hf, -⟩ | ⟨-, h₁, h₂, -⟩ | ⟨-, -, -, -, hoff, -⟩ | ⟨-, -, -, -, -, -, -, he⟩ |
        ⟨-, -, -, -, hno, -⟩
    · exact absurd h0 hlow.ne
    · exact absurd hf hk
    · exact absurd ⟨h₁, h₂⟩ hfit
    · exact absurd hoff (by simp only [Numerics.numpy_sharedRange]; linarith)
    · rw [he]
      simp [SlopeInterArrayWriter.setSlope]
    · exact absurd ⟨hu, hmx, habs⟩ hno
  · have hfits := array.fits
    rw [hr] at hfits
    have := (hm (-2 ^ (b - 1)) le_rfl hfits.1).2
    simp only [sub_zero, div_neg, div_one, neg_neg] at this
    linarith

/-- `np.array([-2**31, 0], np.int32)`: the range reaches the type's minimum. -/
def int32MinArray : SourceArray :=
  .ofInts (.int 32) (-2 ^ 31) 0 (by decide) (by decide) (by decide)

/-- At `int32` written as `uint16` both classes flip `[-2**31, 0]` onto `[0, 2**31]`. -/
theorem signFlip_min_int32 :
    SharedRangeOk wholeRange (.float 32) (.uint 16) ∧ (DType.uint 16).isInt = true ∧
    (DType.uint 16).kind = 'u' ∧ 0 < 32 ∧ int32MinArray.dtype = .int 32 ∧
    int32MinArray.finiteRange = .range (-2 ^ (32 - 1)) 0 ∧ (0 : ℚ) ≤ 0 ∧
    SlopeArrayWriter.init (.numpy wholeRange) int32MinArray (some (.uint 16)) true (.float 32) =
        .ok ⟨⟨int32MinArray, .uint 16⟩, true, .float 32, -1, true⟩ ∧
      ((wholeRange (.float 32) (.uint 16)).2 < 0 + 2 ^ (32 - 1) →
        SlopeInterArrayWriter.init (.numpy wholeRange) int32MinArray (some (.uint 16)) true
          (.float 32) = .ok ⟨⟨⟨int32MinArray, .uint 16⟩, true, .float 32, -1, true⟩, 0⟩) ∧
      (((DType.uint 16).max : ℚ) < 2 ^ (32 - 1) →
        ¬MapsInto (DType.uint 16).min (DType.uint 16).max (-2 ^ (32 - 1)) 0 (-1) 0) := by
  have hsr : SharedRangeOk wholeRange (.float 32) (.uint 16) := wholeRange_ok (by decide)
  have hr : int32MinArray.finiteRange = .range (-2 ^ (32 - 1)) 0 := by
    norm_num [int32MinArray, SourceArray.ofInts]
  exact ⟨hsr, rfl, rfl, by decide, rfl, hr, le_rfl,
    signFlip_min hsr rfl rfl (by decide) rfl hr le_rfl⟩

/-! ## The stored intercept -/

/-- `np.array([1000, 1200], np.int16)`: a span `uint8` holds, beyond its range. -/
def int16Span : SourceArray := .ofInts (.int 16) 1000 1200 (by decide) (by decide) (by decide)

/-- `np.array([2**24 + 3], np.int32)`: a constant array beyond `float32`'s integers. -/
def int32Const : SourceArray :=
  .ofInts (.int 32) (2 ^ 24 + 3) (2 ^ 24 + 3) le_rfl (by decide) (by decide)

/-- **The rounded intercept.**  The constant array `2**24 + 3` of `int32` written as `uint8`
with a `float32` scaler, whatever `shared_range` returns: `SlopeInterArrayWriter` takes the pure
offset `inter = mn`, which `float32` stores as `2**24 + 4` (ties to even), and the value then
decodes to `-1`, outside `uint8`. -/
theorem offset_int32Rounded (hsr : SharedRangeOk sr (.float 32) (.uint 8)) :
    SlopeInterArrayWriter.init (.numpy sr) int32Const (some (.uint 8)) true (.float 32) =
      .ok ⟨⟨⟨int32Const, .uint 8⟩, true, .float 32, 1, true⟩, 2 ^ 24 + 4⟩ ∧
    ¬MapsInto (DType.uint 8).min (DType.uint 8).max (2 ^ 24 + 3) (2 ^ 24 + 3) 1 (2 ^ 24 + 4) := by
  have hpos := hsr.smax_pos
  have hn : scalingNeeded int32Const (.uint 8) = .ok true := by
    have h := @scalingNeeded_eq int32Const (.uint 8) (.inl rfl) rfl (by decide)
    simpa [needsScaling, int32Const, SourceArray.ofInts, DType.min, DType.max] using h
  have hinter : roundToFloat (significandBits (.float 32)) (minExponent (.float 32)) 16777219 =
      16777220 := by
    have h1 : bitLength 1 = 1 := by decide
    have h25 : bitLength 16777219 = 25 := by decide
    rw [roundToFloat_of_le (by norm_num [minExponent])]
    norm_num [roundToSignificand, log2Floor, roundHalfEven, h1, h25, significandBits]
  have hif : ('i' : Char) = 'f' ↔ False := by decide
  have hr : int32Const.finiteRange = .range ((2 ^ 24 + 3 : ℤ) : ℚ) ((2 ^ 24 + 3 : ℤ) : ℚ) := rfl
  refine ⟨?_, fun h => ?_⟩
  · rw [SlopeInterArrayWriter.init_calc _ _ hn]
    simp [SlopeInterArrayWriter.doScaling, hr, int32Const, SourceArray.ofInts, DType.isInt,
      DType.min, DType.max, SlopeInterArrayWriter.setInter, hif, hpos.le]
    -- `2**24 + 3` is not already in `uint8`, so the pure offset: `mx - mn = 0 ≤ shared_max`
    rw [if_neg (by norm_num), hinter]
    norm_num
  · have := (h (2 ^ 24 + 3) le_rfl le_rfl).1
    norm_num [DType.min] at this

theorem offset_int32Rounded_wholeRange :
    SharedRangeOk wholeRange (.float 32) (.uint 8) ∧
    SlopeInterArrayWriter.init (.numpy wholeRange) int32Const (some (.uint 8)) true (.float 32) =
      .ok ⟨⟨⟨int32Const, .uint 8⟩, true, .float 32, 1, true⟩, 2 ^ 24 + 4⟩ ∧
    ¬MapsInto (DType.uint 8).min (DType.uint 8).max (2 ^ 24 + 3) (2 ^ 24 + 3) 1 (2 ^ 24 + 4) :=
  ⟨wholeRange_ok (by decide), offset_int32Rounded (wholeRange_ok (by decide))⟩

/-! ## Overflow -/

/-- A floating range with two distinct values needs scaling. -/
theorem needsScaling_of_lt {array : SourceArray} {out : DType} {mn mx : ℚ}
    (hf : array.dtype.kind = 'f') (hr : array.finiteRange = .range mn mx) (hlt : mn < mx) :
    needsScaling array out = true := by
  cases hn : needsScaling array out
  · exact absurd hlt (not_lt_of_needsScaling_false hn hr hf)
  · rfl

/-- For a floating source with a proper finite range, the `calc_scale` of `__init__` ends in
`_range_scale`, whatever the arithmetic. -/
theorem SlopeInterArrayWriter.init_float_rangeScale (N : Numerics) {array : SourceArray}
    {out scaler : DType} {mn mx : ℚ} (hf : array.dtype.kind = 'f') (ho : out.isInt = true)
    (hpos : 0 < out.max) (hr : array.finiteRange = .range mn mx) (hlt : mn < mx) :
    SlopeInterArrayWriter.init N array (some out) true scaler =
      (SlopeInterArrayWriter.rangeScale N
        ⟨⟨⟨array, out⟩, true, scaler, N.toScaler scaler 1, true⟩, N.toScaler scaler 0⟩
        mn mx).obj := by
  rw [SlopeInterArrayWriter.init_calc _ _ (scalingNeeded_eq (.inr hf) ho hpos),
    needsScaling_of_lt hf hr hlt, if_pos rfl]
  rcases SlopeInterArrayWriter.doScaling_cases N
      ⟨⟨⟨array, out⟩, true, scaler, N.toScaler scaler 1, true⟩, N.toScaler scaler 0⟩ ho hr with
    ⟨h0, h0', -⟩ | ⟨-, -, hd⟩ | ⟨hk, -⟩ | ⟨-, hk, -⟩ | ⟨-, hk, -⟩ | ⟨-, hk, -⟩
  · exact absurd (h0.trans h0'.symm) hlt.ne
  · rw [hd]
  all_goals exact absurd hf hk

/-- For a floating source with a proper finite range, the `calc_scale` of `__init__` ends in
`_range_scale`, whatever the arithmetic. -/
theorem SlopeArrayWriter.init_float_rangeScale (N : Numerics) {array : SourceArray}
    {out scaler : DType} {mn mx : ℚ} (hf : array.dtype.kind = 'f') (ho : out.isInt = true)
    (hpos : 0 < out.max) (hr : array.finiteRange = .range mn mx) (hlt : mn < mx) :
    SlopeArrayWriter.init N array (some out) true scaler =
      (SlopeArrayWriter.rangeScale N
        ⟨⟨array, out⟩, true, scaler, N.toScaler scaler 1, true⟩ mn mx).obj := by
  rw [SlopeArrayWriter.init_calc _ _ (scalingNeeded_eq (.inr hf) ho hpos),
    needsScaling_of_lt hf hr hlt, if_pos rfl]
  rcases SlopeArrayWriter.doScaling_cases N
      ⟨⟨array, out⟩, true, scaler, N.toScaler scaler 1, true⟩ ho hr with
    ⟨-, hd⟩ | ⟨hk, -⟩ | ⟨hk, -⟩ | ⟨hk, -⟩
  · rw [hd]
  all_goals exact absurd hf hk

/-- **Floating data and `ScalingError`.**  For a floating source with a proper finite range,
`SlopeInterArrayWriter(calc_scale=True)` always computes the span slope onto `shared_range` and
its intercept.  It raises `ScalingError` exactly when one of them is not finite in the scaler
type; otherwise it stores both, coerced to the scaler type. -/
theorem init_float_eq (N : Numerics) {array : SourceArray} {out scaler : DType} {mn mx : ℚ}
    (hf : array.dtype.kind = 'f') (ho : out.isInt = true) (hpos : 0 < out.max)
    (hr : array.finiteRange = .range mn mx) (hlt : mn < mx) :
    let slope := SlopeInterArrayWriter.rangeSlope N scaler out mn mx
    let inter := SlopeInterArrayWriter.rangeInter N scaler out mn mx
    SlopeInterArrayWriter.init N array (some out) true scaler =
      if N.isFinite scaler slope && N.isFinite scaler inter then
        .ok ⟨⟨⟨array, out⟩, true, scaler, N.toScaler scaler slope, true⟩, N.toScaler scaler inter⟩
      else .error (.scalingError "Slope / inter not both finite") := by
  intro slope inter
  rw [SlopeInterArrayWriter.init_float_rangeScale N hf ho hpos hr hlt]
  simp only [SlopeInterArrayWriter.rangeScale, if_neg hlt.ne']
  split_ifs <;> rfl

/-- **`SlopeArrayWriter` does not check finiteness.**  For a floating source with a proper finite
range, `SlopeArrayWriter(calc_scale=True)` raises only the `WriterError` of a range straddling
zero over an unsigned target.  Otherwise it stores the slope `_range_scale` computes, coerced to
the scaler type, whether or not that slope is finite there. -/
theorem init_float_unchecked (N : Numerics) {array : SourceArray} {out scaler : DType}
    {mn mx : ℚ} (hf : array.dtype.kind = 'f') (ho : out.isInt = true) (hpos : 0 < out.max)
    (hr : array.finiteRange = .range mn mx) (hlt : mn < mx) :
    let smin := (N.sharedRange scaler out).1
    let smax := (N.sharedRange scaler out).2
    SlopeArrayWriter.init N array (some out) true scaler =
      if out.kind = 'u' then
        if mn < 0 ∧ 0 < mx then .error (.writerError straddleMsg)
        else .ok ⟨⟨array, out⟩, true, scaler,
          N.toScaler scaler (N.longdouble (if mx ≤ 0 then mn / smax else mx / smax)), true⟩
      else
        .ok ⟨⟨array, out⟩, true, scaler,
          N.toScaler scaler (max (N.longdouble (mx / smax)) (N.longdouble (mn / smin))), true⟩ := by
  intro smin smax
  rw [SlopeArrayWriter.init_float_rangeScale N hf ho hpos hr hlt]
  simp only [SlopeArrayWriter.rangeScale]
  split_ifs <;> rfl

end Nibabel.ArrayWriters
