import Nibabel.ArrayWriters.Slope

set_option autoImplicit false

/-!
# `SlopeInterArrayWriter`

The writer with a slope and an intercept.  It overrides `_range_scale` and `_do_scaling` and
inherits `calc_scale`.  Its `_do_scaling` tries a pure offset and a sign flip before the
range-based computation, and its `_range_scale` assigns `inter` and `slope` before it checks
that they are finite.

The lemmas mirror those of `SlopeArrayWriter`: one case lemma per method, and the statement that
neither method reads `slope`, `inter` or `_scale_calced`.
-/

namespace Nibabel.ArrayWriters

open Nibabel.Numpy

namespace SlopeInterArrayWriter

/-- The slope `_range_scale` computes for a scaler and target type: `mn2mx / scaled_mn2mx`, each
difference and the quotient one `np.longdouble` operation.  `np.diff` subtracts values that
`np.longdouble` holds exactly (`shared_range`'s integers, `float64` data); for integer data
`int_to_float` converts the exact difference `as_int(mx) - as_int(mn)`. -/
def rangeSlope (N : Numerics) (scaler out : DType) (mn mx : ℚ) : ℚ :=
  let smin := (N.sharedRange scaler out).1
  let smax := (N.sharedRange scaler out).2
  N.longdouble (N.longdouble (mx - mn) / N.longdouble (smax - smin))

/-- The intercept `_range_scale` computes, `mn - shared_min * slope`: a product and a difference
in `np.longdouble`. -/
def rangeInter (N : Numerics) (scaler out : DType) (mn mx : ℚ) : ℚ :=
  N.longdouble (mn - N.longdouble ((N.sharedRange scaler out).1 * rangeSlope N scaler out mn mx))

@[simp] theorem rangeSlope_exact (sr : DType → DType → ℚ × ℚ) (scaler out : DType) (mn mx : ℚ) :
    rangeSlope (.exact sr) scaler out mn mx = (mx - mn) / ((sr scaler out).2 - (sr scaler out).1) :=
  rfl
@[simp] theorem rangeInter_exact (sr : DType → DType → ℚ × ℚ) (scaler out : DType) (mn mx : ℚ) :
    rangeInter (.exact sr) scaler out mn mx =
      mn - (sr scaler out).1 * ((mx - mn) / ((sr scaler out).2 - (sr scaler out).1)) :=
  rfl

/-- `SlopeInterArrayWriter._range_scale()`, on the finite range `(mn, mx)` it reads: it assigns
`inter`, then `slope`, then checks what the setters stored. -/
def rangeScale (N : Numerics) (w : SlopeInterArrayWriter) (mn mx : ℚ) :
    Outcome SlopeInterArrayWriter Unit :=
  if mx = mn then (.ok (), w.setInter N mn)
  else
    let slope := rangeSlope N w.scalerDtype w.outDtype mn mx
    let inter := rangeInter N w.scalerDtype w.outDtype mn mx
    let w' := (w.setInter N inter).setSlope N slope
    if N.isFinite w.scalerDtype slope && N.isFinite w.scalerDtype inter then (.ok (), w')
    else (.error (.scalingError "Slope / inter not both finite"), w')

/-- `SlopeInterArrayWriter._do_scaling()`. -/
def doScaling (N : Numerics) (w : SlopeInterArrayWriter) : Outcome SlopeInterArrayWriter Unit :=
  if !w.outDtype.isInt then (.error .assertionError, w)
  else
    match w.array.finiteRange with
    | .noFinite => (.ok (), w)
    | .range mn mx =>
      let smax := (N.sharedRange w.scalerDtype w.outDtype).2
      if mn = 0 ∧ mx = 0 then (.ok (), w)
      else if w.array.dtype.kind = 'f' then w.rangeScale N mn mx
      else if mx ≤ w.outDtype.max ∧ (w.outDtype.min : ℚ) ≤ mn then (.ok (), w)
      else if w.outDtype.kind = 'u' ∧ mx - mn ≤ smax then (.ok (), w.setInter N mn)
      else if w.outDtype.kind = 'u' ∧ mx ≤ 0 ∧ N.absOf w.array.dtype mn ≤ smax then
        (.ok (), w.setSlope N (-1))
      else w.rangeScale N mn mx

/-- `calc_scale(force)`, inherited from `SlopeArrayWriter`. -/
def calcScale (N : Numerics) (w : SlopeInterArrayWriter) (force : Bool) :
    Outcome SlopeInterArrayWriter Unit :=
  calcScaleOf (·.toSlopeArrayWriter) (fun w => { w with scaleCalced := true }) (doScaling N)
    w force

/-- `SlopeInterArrayWriter.__init__(array, out_dtype, calc_scale, scaler_dtype)`: the parent's
`__init__` without `calc_scale`, then `inter = 0.0`, then `calc_scale`. -/
def init (N : Numerics) (array : SourceArray) (outDtype : Option DType) (calcScale : Bool)
    (scalerDtype : DType) : Except Raise SlopeInterArrayWriter :=
  match SlopeArrayWriter.init N array outDtype false scalerDtype with
  | .error e => .error e
  | .ok base =>
    let w : SlopeInterArrayWriter := { base with inter := N.toScaler base.scalerDtype 0 }
    if calcScale then (w.calcScale N false).obj else .ok w

@[simp] theorem setSlope_slope (N : Numerics) (w : SlopeInterArrayWriter) (v : ℚ) :
    (w.setSlope N v).slope = N.toScaler w.scalerDtype v := rfl
@[simp] theorem setSlope_inter (N : Numerics) (w : SlopeInterArrayWriter) (v : ℚ) :
    (w.setSlope N v).inter = w.inter := rfl
@[simp] theorem setInter_slope (N : Numerics) (w : SlopeInterArrayWriter) (v : ℚ) :
    (w.setInter N v).slope = w.slope := rfl
@[simp] theorem setInter_inter (N : Numerics) (w : SlopeInterArrayWriter) (v : ℚ) :
    (w.setInter N v).inter = N.toScaler w.scalerDtype v := rfl

/-! ## What each method can do -/

/-- Every way `_range_scale` can end. -/
theorem rangeScale_cases (N : Numerics) (w : SlopeInterArrayWriter) (mn mx : ℚ) :
    let slope := rangeSlope N w.scalerDtype w.outDtype mn mx
    let inter := rangeInter N w.scalerDtype w.outDtype mn mx
    let w' := (w.setInter N inter).setSlope N slope
    (mx = mn ∧ w.rangeScale N mn mx = (.ok (), w.setInter N mn)) ∨
    (mx ≠ mn ∧ N.isFinite w.scalerDtype slope ∧ N.isFinite w.scalerDtype inter ∧
      w.rangeScale N mn mx = (.ok (), w')) ∨
    (mx ≠ mn ∧ ¬(N.isFinite w.scalerDtype slope ∧ N.isFinite w.scalerDtype inter) ∧
      w.rangeScale N mn mx = (.error (.scalingError "Slope / inter not both finite"), w')) := by
  intro slope inter w'
  simp only [rangeScale]
  split_ifs with h hf
  · exact .inl ⟨h, rfl⟩
  · simp only [Bool.and_eq_true] at hf
    exact .inr (.inl ⟨h, hf.1, hf.2, rfl⟩)
  · simp only [Bool.and_eq_true] at hf
    exact .inr (.inr ⟨h, hf, rfl⟩)

/-- Every way `_do_scaling` can end once its `assert` holds and the array has finite values. -/
theorem doScaling_cases (N : Numerics) (w : SlopeInterArrayWriter) {mn mx : ℚ}
    (ho : w.outDtype.isInt = true) (hr : w.array.finiteRange = .range mn mx) :
    let smax := (N.sharedRange w.scalerDtype w.outDtype).2
    (mn = 0 ∧ mx = 0 ∧ w.doScaling N = (.ok (), w)) ∨
    (¬(mn = 0 ∧ mx = 0) ∧ w.array.dtype.kind = 'f' ∧ w.doScaling N = w.rangeScale N mn mx) ∨
    (w.array.dtype.kind ≠ 'f' ∧ mx ≤ w.outDtype.max ∧ (w.outDtype.min : ℚ) ≤ mn ∧
      w.doScaling N = (.ok (), w)) ∨
    (¬(mn = 0 ∧ mx = 0) ∧ w.array.dtype.kind ≠ 'f' ∧
      ¬(mx ≤ w.outDtype.max ∧ (w.outDtype.min : ℚ) ≤ mn) ∧
      w.outDtype.kind = 'u' ∧ mx - mn ≤ smax ∧ w.doScaling N = (.ok (), w.setInter N mn)) ∨
    (¬(mn = 0 ∧ mx = 0) ∧ w.array.dtype.kind ≠ 'f' ∧
      ¬(mx ≤ w.outDtype.max ∧ (w.outDtype.min : ℚ) ≤ mn) ∧ ¬(mx - mn ≤ smax) ∧
      w.outDtype.kind = 'u' ∧ mx ≤ 0 ∧ N.absOf w.array.dtype mn ≤ smax ∧
      w.doScaling N = (.ok (), w.setSlope N (-1))) ∨
    (¬(mn = 0 ∧ mx = 0) ∧ w.array.dtype.kind ≠ 'f' ∧
      ¬(mx ≤ w.outDtype.max ∧ (w.outDtype.min : ℚ) ≤ mn) ∧
      ¬(w.outDtype.kind = 'u' ∧ mx - mn ≤ smax) ∧
      ¬(w.outDtype.kind = 'u' ∧ mx ≤ 0 ∧ N.absOf w.array.dtype mn ≤ smax) ∧
      w.doScaling N = w.rangeScale N mn mx) := by
  intro smax
  simp only [doScaling, ho, hr, Bool.not_true, Bool.false_eq_true, ↓reduceIte]
  split_ifs with h0 hf hfit hoff hflip
  · exact .inl ⟨h0.1, h0.2, rfl⟩
  · exact .inr (.inl ⟨h0, hf, rfl⟩)
  · exact .inr (.inr (.inl ⟨hf, hfit.1, hfit.2, rfl⟩))
  · exact .inr (.inr (.inr (.inl ⟨h0, hf, hfit, hoff.1, hoff.2, rfl⟩)))
  · exact .inr (.inr (.inr (.inr (.inl
      ⟨h0, hf, hfit, fun h => hoff ⟨hflip.1, h⟩, hflip.1, hflip.2.1, hflip.2.2, rfl⟩))))
  · exact .inr (.inr (.inr (.inr (.inr ⟨h0, hf, hfit, hoff, hflip, rfl⟩))))

/-- `_range_scale` reads neither `slope`, `inter` nor `_scale_calced`: objects that differ only
there end the same way, and each of `slope` and `inter` either gets the same value assigned or
keeps its own. -/
theorem rangeScale_writes (N : Numerics) (w : SlopeInterArrayWriter) (mn mx : ℚ) :
    ∃ (r : Except Raise Unit) (s i : Option ℚ), ∀ a b c,
      rangeScale N { w with slope := a, inter := b, scaleCalced := c } mn mx =
        (r, { w with slope := s.getD a, inter := i.getD b, scaleCalced := c }) := by
  by_cases h : mx = mn
  · exact ⟨.ok (), none, some (N.toScaler w.scalerDtype mn), fun a b c => by
      rw [rangeScale, if_pos h]; rfl⟩
  · let slope := rangeSlope N w.scalerDtype w.outDtype mn mx
    let inter := rangeInter N w.scalerDtype w.outDtype mn mx
    refine ⟨if N.isFinite w.scalerDtype slope && N.isFinite w.scalerDtype inter
        then .ok () else .error (.scalingError "Slope / inter not both finite"),
      some (N.toScaler w.scalerDtype slope), some (N.toScaler w.scalerDtype inter),
      fun a b c => ?_⟩
    rw [rangeScale, if_neg h]
    dsimp only
    split_ifs <;> rfl

/-- The same for `_do_scaling`. -/
theorem doScaling_writes (N : Numerics) (w : SlopeInterArrayWriter) :
    ∃ (r : Except Raise Unit) (s i : Option ℚ), ∀ a b c,
      doScaling N { w with slope := a, inter := b, scaleCalced := c } =
        (r, { w with slope := s.getD a, inter := i.getD b, scaleCalced := c }) := by
  by_cases ho : w.outDtype.isInt = true
  swap
  · exact ⟨.error .assertionError, none, none, fun a b c => by simp [doScaling, ho]⟩
  cases hr : w.array.finiteRange with
  | noFinite => exact ⟨.ok (), none, none, fun a b c => by simp [doScaling, ho, hr]⟩
  | range mn mx =>
    obtain ⟨r, s, i, hrs⟩ := rangeScale_writes N w mn mx
    rcases doScaling_cases N w ho hr with ⟨h0, h0', -⟩ | ⟨h0, hf, -⟩ | ⟨hf, hfit, hfit', -⟩ |
      ⟨h0, hf, hfit, hu, hspan, -⟩ | ⟨h0, hf, hfit, hspan, hu, hmx, habs, -⟩ |
      ⟨h0, hf, hfit, hoff, hflip, -⟩
    · exact ⟨.ok (), none, none, fun a b c => by simp only [doScaling, ho, hr, h0, h0']; rfl⟩
    · exact ⟨r, s, i, fun a b c => by simp only [doScaling, ho, hr, h0, hf]; exact hrs a b c⟩
    · exact ⟨.ok (), none, none, fun a b c => by
        simp only [doScaling, ho, hr, hf, hfit, hfit', Bool.not_true, Bool.false_eq_true, and_self,
          if_false, if_true, ite_self]; rfl⟩
    · exact ⟨.ok (), none, some (N.toScaler w.scalerDtype mn), fun a b c => by
        simp only [doScaling, ho, hr, h0, hf, hfit, hu, hspan]; rfl⟩
    · exact ⟨.ok (), some (N.toScaler w.scalerDtype (-1)), none, fun a b c => by
        simp only [doScaling, ho, hr, h0, hf, hfit, hspan, hu, hmx, habs]; rfl⟩
    · exact ⟨r, s, i, fun a b c => by
        simp only [doScaling, ho, hr, h0, hf, hfit, hoff, hflip]; exact hrs a b c⟩

/-- A forced `calc_scale` reads neither `slope`, `inter` nor `_scale_calced` either. -/
theorem calcScale_writes (N : Numerics) (w : SlopeInterArrayWriter) :
    ∃ (r : Except Raise Unit) (s i : Option ℚ), ∀ a b c,
      calcScale N { w with slope := a, inter := b, scaleCalced := c } true =
        (r, { w with slope := s.getD a, inter := i.getD b, scaleCalced := true }) := by
  obtain ⟨r, s, i, h⟩ := doScaling_writes N w
  cases hn : scalingNeeded w.array w.outDtype with
  | error e => exact ⟨.error e, none, none, fun a b c => by simp [calcScale, calcScaleOf, hn]⟩
  | ok b =>
    cases b
    · exact ⟨.ok (), none, none, fun a b c => by simp [calcScale, calcScaleOf, hn]⟩
    · exact ⟨r, s, i, fun a b c => by simpa [calcScale, calcScaleOf, hn] using h a b true⟩

/-- `calc_scale` on an object whose scale is not yet calculated is a forced `calc_scale`. -/
theorem calcScale_of_not_calced (N : Numerics) {w : SlopeInterArrayWriter}
    (h : w.scaleCalced = false) (force : Bool) : calcScale N w force = calcScale N w true := by
  simp [calcScale, calcScaleOf, h]

/-- An unforced `calc_scale` after a calculated scale does nothing. -/
theorem calcScale_of_calced (N : Numerics) {w : SlopeInterArrayWriter}
    (h : w.scaleCalced = true) : calcScale N w false = (.ok (), w) := by
  simp [calcScale, calcScaleOf, h]

/-- `__init__` with `calc_scale=True`, once `scaling_needed` has answered `b`: the object with
`slope = 1`, `inter = 0` and `_scale_calced = True`, passed to `_do_scaling` when `b` is True. -/
theorem init_calc (N : Numerics) {array : SourceArray} {out : DType} (scaler : DType) {b : Bool}
    (h : scalingNeeded array out = .ok b) :
    init N array (some out) true scaler =
      let w : SlopeInterArrayWriter :=
        { array := array, outDtype := out, needsScale := b, scalerDtype := scaler,
          slope := N.toScaler scaler 1, scaleCalced := true, inter := N.toScaler scaler 0 }
      if b then (doScaling N w).obj else .ok w := by
  cases b <;> simp [init, SlopeArrayWriter.init, h, calcScale, calcScaleOf]

end SlopeInterArrayWriter

end Nibabel.ArrayWriters
