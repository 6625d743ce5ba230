import Nibabel.Numpy.DType

set_option autoImplicit false

/-!
# Array writers: exceptions, arrays, numerics and writer objects

The data `arraywriters.py` works on.

* `Raise`: the exceptions the module raises, with their messages.
* `SourceArray`: an array as the writers read it.  They look at its dtype and at the finite
  range `volumeutils.finite_range` returns; the elements go to `array_to_file` unread.
* `Numerics`: what the writers delegate to numpy and to `casting`: `abs` on a source scalar,
  the scaler type's coercion and finiteness test, the rounding of `np.longdouble` arithmetic,
  and `shared_range`.  The code is modelled once over any `Numerics`; `Numerics.exact` is exact
  rational arithmetic.
* `ArrayWriter`, `SlopeArrayWriter`, `SlopeInterArrayWriter`: the instance attributes of the
  three classes, each class extending its parent as in the source.
* `Outcome`: the result of a method call.  A Python method that raises keeps the attribute
  assignments it made before the `raise`, so the object comes back on both paths.

The `_finite_range` cache is left out: the array is never mutated, so the cached value is the
value `finite_range` would compute again.
-/

namespace Nibabel.ArrayWriters

open Nibabel.Numpy

/-- The exceptions `arraywriters.py` raises. -/
inductive Raise where
  /-- `WriterError(msg)` -/
  | writerError (msg : String)
  /-- `ScalingError(msg)`, a subclass of `WriterError` -/
  | scalingError (msg : String)
  /-- `ValueError(msg)`, raised by `make_array_writer` -/
  | valueError (msg : String)
  /-- a failed `assert` -/
  | assertionError
  deriving DecidableEq, Repr

/-- What `finite_range` returns: the least and greatest finite values, or the `(inf, -inf)`
sentinel for an array without finite values. -/
inductive FiniteRange where
  | noFinite
  | range (mn mx : ℚ)
  deriving DecidableEq, Repr

/-- A finite range `finite_range` can return for an array of dtype `t`: ordered, and for an
integer-valued dtype made of integers of that dtype. -/
def FiniteRange.Fits : FiniteRange → DType → Prop
  | .noFinite, _ => True
  | .range mn mx, t =>
      mn ≤ mx ∧ (t.isInteger = true →
        mn.den = 1 ∧ mx.den = 1 ∧ (t.min : ℚ) ≤ mn ∧ mx ≤ t.max)

/-- An array, as the writers read it: its dtype and its finite range. -/
structure SourceArray where
  dtype : DType
  finiteRange : FiniteRange
  fits : finiteRange.Fits dtype

/-- An array of the integer dtype `t` whose finite values range over `[mn, mx]`. -/
def SourceArray.ofInts (t : DType) (mn mx : ℤ) (h : mn ≤ mx) (hlo : t.min ≤ mn)
    (hhi : mx ≤ t.max) : SourceArray :=
  ⟨t, .range mn mx, ⟨by exact_mod_cast h, fun _ => ⟨rfl, rfl, by exact_mod_cast hlo,
    by exact_mod_cast hhi⟩⟩⟩

/-- A `float64` array whose finite values range over `[mn, mx]`. -/
def SourceArray.ofFloats (mn mx : ℚ) (h : mn ≤ mx) : SourceArray :=
  ⟨.float 64, .range mn mx, ⟨h, fun h' => absurd h' (by decide)⟩⟩

/-- The scalar operations the writers delegate to numpy and to `casting`. -/
structure Numerics where
  /-- `abs(x)` for a scalar `x` of the given dtype -/
  absOf : DType → ℚ → ℚ
  /-- `scaler_dtype.type(x)`: the value the `slope` and `inter` setters store -/
  toScaler : DType → ℚ → ℚ
  /-- `np.isfinite(scaler_dtype.type(x))` -/
  isFinite : DType → ℚ → Bool
  /-- the result of an `np.longdouble` operation whose exact result is `x`: `_range_scale`
  computes its slope and intercept in `np.longdouble` -/
  longdouble : ℚ → ℚ
  /-- `casting.shared_range(scaler_dtype, out_dtype)` -/
  sharedRange : DType → DType → ℚ × ℚ

/-- Exact rational arithmetic: no wrap-around, no rounding into the scaler type or
`np.longdouble`, nothing overflows.  `shared_range` is left as a parameter. -/
def Numerics.exact (sharedRange : DType → DType → ℚ × ℚ) : Numerics where
  absOf _ x := |x|
  toScaler _ x := x
  isFinite _ _ := true
  longdouble x := x
  sharedRange := sharedRange

@[simp] theorem Numerics.exact_absOf (sr : DType → DType → ℚ × ℚ) (t : DType) (x : ℚ) :
    (Numerics.exact sr).absOf t x = |x| := rfl
@[simp] theorem Numerics.exact_toScaler (sr : DType → DType → ℚ × ℚ) (t : DType) (x : ℚ) :
    (Numerics.exact sr).toScaler t x = x := rfl
@[simp] theorem Numerics.exact_isFinite (sr : DType → DType → ℚ × ℚ) (t : DType) (x : ℚ) :
    (Numerics.exact sr).isFinite t x = true := rfl
@[simp] theorem Numerics.exact_longdouble (sr : DType → DType → ℚ × ℚ) (x : ℚ) :
    (Numerics.exact sr).longdouble x = x := rfl
@[simp] theorem Numerics.exact_sharedRange (sr : DType → DType → ℚ × ℚ) :
    (Numerics.exact sr).sharedRange = sr := rfl

/-- What the writers rely on `shared_range(scaler, out)` returning for an integer `out`: a
range `[smin, smax]` inside the type's, with `smin ≤ 0 < smax`, and `smin < 0` when the type is
signed. -/
structure SharedRangeOk (sr : DType → DType → ℚ × ℚ) (scaler out : DType) : Prop where
  min_le : (out.min : ℚ) ≤ (sr scaler out).1
  smin_nonpos : (sr scaler out).1 ≤ 0
  smax_pos : 0 < (sr scaler out).2
  le_max : (sr scaler out).2 ≤ out.max
  smin_neg : out.kind = 'i' → (sr scaler out).1 < 0

/-- The result of a method call: the value returned or the exception raised, and the object's
attributes afterwards. -/
abbrev Outcome (σ α : Type) := Except Raise α × σ

/-- A constructor's result: the object, unless a method it called raised. -/
def Outcome.obj {σ : Type} : Outcome σ Unit → Except Raise σ
  | (.ok _, w) => .ok w
  | (.error e, _) => .error e

@[simp] theorem Outcome.obj_ok {σ : Type} (w : σ) : Outcome.obj (.ok (), w) = .ok w := rfl
@[simp] theorem Outcome.obj_error {σ : Type} (e : Raise) (w : σ) :
    Outcome.obj (.error e, w) = .error e := rfl

theorem Outcome.eq_of_obj_eq_ok {σ : Type} {o : Outcome σ Unit} {w : σ} (h : o.obj = .ok w) :
    o = (.ok (), w) := by
  obtain ⟨r, v⟩ := o
  cases r <;> cases h
  rfl

/-- `ArrayWriter`'s attributes `_array` and `_out_dtype`. -/
structure ArrayWriter where
  array : SourceArray
  outDtype : DType

/-- `SlopeArrayWriter` adds `needs_scale`, `scaler_dtype`, `_slope` and `_scale_calced`. -/
structure SlopeArrayWriter extends ArrayWriter where
  needsScale : Bool
  scalerDtype : DType
  slope : ℚ
  scaleCalced : Bool

/-- `SlopeInterArrayWriter` adds `_inter`. -/
structure SlopeInterArrayWriter extends SlopeArrayWriter where
  inter : ℚ

/-- The `slope` property's setter: `self._slope = np.squeeze(self.scaler_dtype.type(val))`. -/
def SlopeArrayWriter.setSlope (N : Numerics) (w : SlopeArrayWriter) (v : ℚ) :
    SlopeArrayWriter :=
  { w with slope := N.toScaler w.scalerDtype v }

/-- The `slope` setter on a `SlopeInterArrayWriter`. -/
def SlopeInterArrayWriter.setSlope (N : Numerics) (w : SlopeInterArrayWriter) (v : ℚ) :
    SlopeInterArrayWriter :=
  { w with slope := N.toScaler w.scalerDtype v }

/-- The `inter` property's setter: `self._inter = np.squeeze(self.scaler_dtype.type(val))`. -/
def SlopeInterArrayWriter.setInter (N : Numerics) (w : SlopeInterArrayWriter) (v : ℚ) :
    SlopeInterArrayWriter :=
  { w with inter := N.toScaler w.scalerDtype v }

end Nibabel.ArrayWriters
