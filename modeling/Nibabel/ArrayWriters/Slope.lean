import Nibabel.ArrayWriters.ScalingNeeded

set_option autoImplicit false

/-!
# `SlopeArrayWriter`

The writer with a slope and no intercept: `_range_scale`, `_do_scaling`, `calc_scale` and
`__init__`, each as the source computes it over any `Numerics`.

`calc_scale` is written once, as `calcScaleOf`, for both classes that inherit it: Python's method
lookup hands it the `_do_scaling` of the object's class.

Two lemmas say once what a method can do.  `rangeScale_cases` and `doScaling_cases` list each
branch with its guard and its effect.  `doScaling_writes` and `calcScale_writes` say that neither
method reads `slope`, and that each either assigns a slope fixed by the object's array, target and
scaler type, or leaves the slope alone.
-/

namespace Nibabel.ArrayWriters

open Nibabel.Numpy

/-- The message of the `WriterError` `_range_scale` raises for an unsigned target. -/
def straddleMsg : String := "Cannot scale negative and positive numbers to uint without intercept"

/-- `SlopeArrayWriter.calc_scale(force)`, which `SlopeInterArrayWriter` inherits.  `view` reads
the object's `SlopeArrayWriter` attributes, `markCalced` sets `_scale_calced = True`, and
`doScaling` is the `_do_scaling` of the object's class. -/
def calcScaleOf {σ : Type} (view : σ → SlopeArrayWriter) (markCalced : σ → σ)
    (doScaling : σ → Outcome σ Unit) (w : σ) (force : Bool) : Outcome σ Unit :=
  if !force && (view w).scaleCalced then (.ok (), w)
  else
    let w := markCalced w
    match scalingNeeded (view w).array (view w).outDtype with
    | .error e => (.error e, w)
    | .ok false => (.ok (), w)
    | .ok true => doScaling w

namespace SlopeArrayWriter

/-- `SlopeArrayWriter._range_scale()`, on the finite range `(mn, mx)` it reads.  The code turns
`shared_range` into `np.longdouble` values and divides in `np.longdouble`.  The conversion is
exact: `np.longdouble` holds the integers `shared_range` returns, and every `float64` and 64-bit
integer `mn` or `mx`.  So each candidate slope is one rounded division, and `np.max` of the two
picks one of them. -/
def rangeScale (N : Numerics) (w : SlopeArrayWriter) (mn mx : ℚ) :
    Outcome SlopeArrayWriter Unit :=
  let smin := (N.sharedRange w.scalerDtype w.outDtype).1
  let smax := (N.sharedRange w.scalerDtype w.outDtype).2
  if w.outDtype.kind = 'u' then
    if mn < 0 ∧ 0 < mx then (.error (.writerError straddleMsg), w)
    else if mx ≤ 0 then (.ok (), w.setSlope N (N.longdouble (mn / smax)))
    else (.ok (), w.setSlope N (N.longdouble (mx / smax)))
  else (.ok (), w.setSlope N (max (N.longdouble (mx / smax)) (N.longdouble (mn / smin))))

/-- `SlopeArrayWriter._do_scaling()`. -/
def doScaling (N : Numerics) (w : SlopeArrayWriter) : Outcome SlopeArrayWriter Unit :=
  if !w.outDtype.isInt then (.error .assertionError, w)
  else
    match w.array.finiteRange with
    -- `calc_scale` never gets here without a finite value: `scaling_needed` answers False for
    -- the `(inf, -inf)` sentinel.  The infinite slope the code would set has no value in `ℚ`.
    | .noFinite => (.ok (), w)
    | .range mn mx =>
      if w.array.dtype.kind = 'f' then w.rangeScale N mn mx
      else if mx ≤ w.outDtype.max ∧ (w.outDtype.min : ℚ) ≤ mn then (.ok (), w)
      else if w.outDtype.kind = 'u' ∧ mx ≤ 0 ∧
          N.absOf w.array.dtype mn ≤ (N.sharedRange w.scalerDtype w.outDtype).2 then
        (.ok (), w.setSlope N (-1))
      else w.rangeScale N mn mx

/-- `SlopeArrayWriter.calc_scale(force)`. -/
def calcScale (N : Numerics) (w : SlopeArrayWriter) (force : Bool) :
    Outcome SlopeArrayWriter Unit :=
  calcScaleOf id (fun w => { w with scaleCalced := true }) (doScaling N) w force

/-- `SlopeArrayWriter.__init__(array, out_dtype, calc_scale, scaler_dtype)`. -/
def init (N : Numerics) (array : SourceArray) (outDtype : Option DType) (calcScale : Bool)
    (scalerDtype : DType) : Except Raise SlopeArrayWriter :=
  let out := outDtype.getD array.dtype
  match scalingNeeded array out with
  | .error e => .error e
  | .ok needsScale =>
    let w : SlopeArrayWriter :=
      { array, outDtype := out, needsScale, scalerDtype,
        slope := N.toScaler scalerDtype 1, scaleCalced := false }
    if calcScale then (w.calcScale N false).obj else .ok w

@[simp] theorem setSlope_slope (N : Numerics) (w : SlopeArrayWriter) (v : ℚ) :
    (w.setSlope N v).slope = N.toScaler w.scalerDtype v := rfl

/-! ## What each method can do -/

/-- Every way `_range_scale` can end. -/
theorem rangeScale_cases (N : Numerics) (w : SlopeArrayWriter) (mn mx : ℚ) :
    let smin := (N.sharedRange w.scalerDtype w.outDtype).1
    let smax := (N.sharedRange w.scalerDtype w.outDtype).2
    (w.outDtype.kind = 'u' ∧ mn < 0 ∧ 0 < mx ∧
        w.rangeScale N mn mx = (.error (.writerError straddleMsg), w)) ∨
    (w.outDtype.kind = 'u' ∧ mx ≤ 0 ∧
        w.rangeScale N mn mx = (.ok (), w.setSlope N (N.longdouble (mn / smax)))) ∨
    (w.outDtype.kind = 'u' ∧ 0 ≤ mn ∧ 0 < mx ∧
        w.rangeScale N mn mx = (.ok (), w.setSlope N (N.longdouble (mx / smax)))) ∨
    (w.outDtype.kind ≠ 'u' ∧
        w.rangeScale N mn mx =
          (.ok (), w.setSlope N (max (N.longdouble (mx / smax)) (N.longdouble (mn / smin))))) := by
  intro smin smax
  simp only [rangeScale]
  split_ifs with hu h1 h2
  · exact .inl ⟨hu, h1.1, h1.2, rfl⟩
  · exact .inr (.inl ⟨hu, h2, rfl⟩)
  · have hmx := lt_of_not_le h2
    exact .inr (.inr (.inl ⟨hu, not_lt.1 fun h => h1 ⟨h, hmx⟩, hmx, rfl⟩))
  · exact .inr (.inr (.inr ⟨hu, rfl⟩))

/-- Every way `_do_scaling` can end once its `assert` holds and the array has finite values. -/
theorem doScaling_cases (N : Numerics) (w : SlopeArrayWriter) {mn mx : ℚ}
    (ho : w.outDtype.isInt = true) (hr : w.array.finiteRange = .range mn mx) :
    (w.array.dtype.kind = 'f' ∧ w.doScaling N = w.rangeScale N mn mx) ∨
    (w.array.dtype.kind ≠ 'f' ∧ mx ≤ w.outDtype.max ∧ (w.outDtype.min : ℚ) ≤ mn ∧
      w.doScaling N = (.ok (), w)) ∨
    (w.array.dtype.kind ≠ 'f' ∧ ¬(mx ≤ w.outDtype.max ∧ (w.outDtype.min : ℚ) ≤ mn) ∧
      w.outDtype.kind = 'u' ∧ mx ≤ 0 ∧
      N.absOf w.array.dtype mn ≤ (N.sharedRange w.scalerDtype w.outDtype).2 ∧
      w.doScaling N = (.ok (), w.setSlope N (-1))) ∨
    (w.array.dtype.kind ≠ 'f' ∧ ¬(mx ≤ w.outDtype.max ∧ (w.outDtype.min : ℚ) ≤ mn) ∧
      ¬(w.outDtype.kind = 'u' ∧ mx ≤ 0 ∧
        N.absOf w.array.dtype mn ≤ (N.sharedRange w.scalerDtype w.outDtype).2) ∧
      w.doScaling N = w.rangeScale N mn mx) := by
  simp only [doScaling, ho, hr, Bool.not_true, Bool.false_eq_true, ↓reduceIte]
  split_ifs with hf hfit hflip
  · exact .inl ⟨hf, rfl⟩
  · exact .inr (.inl ⟨hf, hfit.1, hfit.2, rfl⟩)
  · exact .inr (.inr (.inl ⟨hf, hfit, hflip.1, hflip.2.1, hflip.2.2, rfl⟩))
  · exact .inr (.inr (.inr ⟨hf, hfit, hflip, rfl⟩))

/-- `_range_scale` reads neither `slope` nor `_scale_calced`: objects that differ only there end
the same way, and each either gets the same slope assigned or keeps its own. -/
theorem rangeScale_writes (N : Numerics) (w : SlopeArrayWriter) (mn mx : ℚ) :
    ∃ (r : Except Raise Unit) (s : Option ℚ), ∀ a c,
      rangeScale N { w with slope := a, scaleCalced := c } mn mx =
        (r, { w with slope := s.getD a, scaleCalced := c }) := by
  let smin := (N.sharedRange w.scalerDtype w.outDtype).1
  let smax := (N.sharedRange w.scalerDtype w.outDtype).2
  by_cases hu : w.outDtype.kind = 'u'
  · by_cases h1 : mn < 0 ∧ 0 < mx
    · exact ⟨.error (.writerError straddleMsg), none, fun a c => by
        rw [rangeScale, if_pos hu, if_pos h1]; rfl⟩
    · refine ⟨.ok (), some (N.toScaler w.scalerDtype
        (N.longdouble (if mx ≤ 0 then mn / smax else mx / smax))), fun a c => ?_⟩
      rw [rangeScale, if_pos hu, if_neg h1]
      split_ifs <;> rfl
  · exact ⟨.ok (), some (N.toScaler w.scalerDtype
      (max (N.longdouble (mx / smax)) (N.longdouble (mn / smin)))), fun a c => by
      rw [rangeScale, if_neg hu]; rfl⟩

/-- The same for `_do_scaling`. -/
theorem doScaling_writes (N : Numerics) (w : SlopeArrayWriter) :
    ∃ (r : Except Raise Unit) (s : Option ℚ), ∀ a c,
      doScaling N { w with slope := a, scaleCalced := c } =
        (r, { w with slope := s.getD a, scaleCalced := c }) := by
  by_cases ho : w.outDtype.isInt = true
  swap
  · exact ⟨.error .assertionError, none, fun a c => by simp [doScaling, ho]⟩
  cases hr : w.array.finiteRange with
  | noFinite => exact ⟨.ok (), none, fun a c => by simp [doScaling, ho, hr]⟩
  | range mn mx =>
    obtain ⟨r, s, hrs⟩ := rangeScale_writes N w mn mx
    rcases doScaling_cases N w ho hr with ⟨hf, -⟩ | ⟨hf, hfit, hfit', -⟩ |
      ⟨hf, hfit, hu, hmx, habs, -⟩ | ⟨hf, hfit, hflip, -⟩
    · exact ⟨r, s, fun a c => by simp only [doScaling, ho, hr, hf]; exact hrs a c⟩
    · exact ⟨.ok (), none, fun a c => by simp only [doScaling, ho, hr, hf, hfit, hfit']; rfl⟩
    · exact ⟨.ok (), some (N.toScaler w.scalerDtype (-1)), fun a c => by
        simp only [doScaling, ho, hr, hf, hfit, hu, hmx, habs]; rfl⟩
    · exact ⟨r, s, fun a c => by simp only [doScaling, ho, hr, hf, hfit, hflip]; exact hrs a c⟩

/-- A forced `calc_scale` reads neither `slope` nor `_scale_calced` either. -/
theorem calcScale_writes (N : Numerics) (w : SlopeArrayWriter) :
    ∃ (r : Except Raise Unit) (s : Option ℚ), ∀ a c,
      calcScale N { w with slope := a, scaleCalced := c } true =
        (r, { w with slope := s.getD a, scaleCalced := true }) := by
  obtain ⟨r, s, h⟩ := doScaling_writes N w
  cases hn : scalingNeeded w.array w.outDtype with
  | error e => exact ⟨.error e, none, fun a c => by simp [calcScale, calcScaleOf, hn]⟩
  | ok b =>
    cases b
    · exact ⟨.ok (), none, fun a c => by simp [calcScale, calcScaleOf, hn]⟩
    · exact ⟨r, s, fun a c => by simpa [calcScale, calcScaleOf, hn] using h a true⟩

/-- `calc_scale` on an object whose scale is not yet calculated is a forced `calc_scale`. -/
theorem calcScale_of_not_calced (N : Numerics) {w : SlopeArrayWriter}
    (h : w.scaleCalced = false) (force : Bool) : calcScale N w force = calcScale N w true := by
  simp [calcScale, calcScaleOf, h]

/-- An unforced `calc_scale` after a calculated scale does nothing. -/
theorem calcScale_of_calced (N : Numerics) {w : SlopeArrayWriter} (h : w.scaleCalced = true) :
    calcScale N w false = (.ok (), w) := by
  simp [calcScale, calcScaleOf, h]

/-- `__init__` with `calc_scale=True`, once `scaling_needed` has answered `b`: the object with
`slope = 1` and `_scale_calced = True`, passed to `_do_scaling` when `b` is True. -/
theorem init_calc (N : Numerics) {array : SourceArray} {out : DType} (scaler : DType) {b : Bool}
    (h : scalingNeeded array out = .ok b) :
    init N array (some out) true scaler =
      let w : SlopeArrayWriter :=
        { array := array, outDtype := out, needsScale := b, scalerDtype := scaler,
          slope := N.toScaler scaler 1, scaleCalced := true }
      if b then (doScaling N w).obj else .ok w := by
  cases b <;> simp [init, h, calcScale, calcScaleOf]

end SlopeArrayWriter

end Nibabel.ArrayWriters
