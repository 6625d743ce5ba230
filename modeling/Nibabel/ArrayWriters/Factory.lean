import Nibabel.ArrayWriters.SlopeInter
import Nibabel.Numpy.Scalar

set_option autoImplicit false

/-!
# `make_array_writer`, `get_slope_inter` and `to_fileobj`

`make_array_writer` picks the least capable class the caller allows; `get_slope_inter` reads
`(slope, inter)` from any writer, with `1.0` and `0.0` for a class that has no such attribute;
`to_fileobj` hands the array, the target type, the transform and the NaN thresholds to
`volumeutils.array_to_file`.  `toFileobj_transform` states that the transform written is the
one `get_slope_inter` reports.
-/

namespace Nibabel.ArrayWriters

open Nibabel.Numpy

/-- An object `make_array_writer` can return. -/
inductive Writer where
  | array (w : ArrayWriter)
  | slope (w : SlopeArrayWriter)
  | slopeInter (w : SlopeInterArrayWriter)

/-- `get_slope_inter(writer)`. -/
def getSlopeInter : Writer → ℚ × ℚ
  | .array _ => (1, 0)
  | .slope w => (w.slope, 0)
  | .slopeInter w => (w.slope, w.inter)

/-- The keyword arguments `make_array_writer` passes on to the scaling classes. -/
structure WriterKwargs where
  calcScale : Bool := true
  scalerDtype : DType := .float 32

/-- `make_array_writer(data, out_type, has_intercept, has_slope, **kwargs)`. -/
def makeArrayWriter (N : Numerics) (data : SourceArray) (outType : DType)
    (hasIntercept hasSlope : Bool) (kwargs : WriterKwargs) : Except Raise Writer :=
  if hasIntercept = true ∧ hasSlope = false then
    .error (.valueError "Cannot handle intercept without slope")
  else if hasIntercept then
    .slopeInter <$> SlopeInterArrayWriter.init N data (some outType) kwargs.calcScale
      kwargs.scalerDtype
  else if hasSlope then
    .slope <$> SlopeArrayWriter.init N data (some outType) kwargs.calcScale kwargs.scalerDtype
  else .array <$> ArrayWriter.init data (some outType)

theorem map_eq_ok {α β : Type} {f : α → β} {x : Except Raise α} {y : β}
    (h : f <$> x = .ok y) : ∃ a, x = .ok a ∧ f a = y := by
  cases x with
  | error e => cases h
  | ok a => exact ⟨a, rfl, by cases h; rfl⟩

/-- What `make_array_writer` returns, by the flags it was given. -/
theorem makeArrayWriter_ok {N : Numerics} {data : SourceArray} {outType : DType}
    {hasIntercept hasSlope : Bool} {kwargs : WriterKwargs} {w : Writer}
    (h : makeArrayWriter N data outType hasIntercept hasSlope kwargs = .ok w) :
    (∃ v, w = .slopeInter v ∧ SlopeInterArrayWriter.init N data (some outType)
        kwargs.calcScale kwargs.scalerDtype = .ok v) ∨
    (∃ v, w = .slope v ∧ SlopeArrayWriter.init N data (some outType)
        kwargs.calcScale kwargs.scalerDtype = .ok v) ∨
    (∃ v, w = .array v ∧ ArrayWriter.init data (some outType) = .ok v) := by
  cases hasIntercept <;> cases hasSlope <;> simp [makeArrayWriter] at h
  · obtain ⟨a, ha, rfl⟩ := map_eq_ok h
    exact .inr (.inr ⟨a, rfl, ha⟩)
  · obtain ⟨a, ha, rfl⟩ := map_eq_ok h
    exact .inr (.inl ⟨a, rfl, ha⟩)
  all_goals obtain ⟨a, ha, rfl⟩ := map_eq_ok h
  exact .inl ⟨a, rfl, ha⟩

/-! ## Writing -/

/-- The memory order `to_fileobj` writes in. -/
inductive Order where
  | fortran
  | c
  deriving DecidableEq, Repr

/-- The arguments `to_fileobj` hands to `volumeutils.array_to_file`, beside the array and the
file object. -/
structure ArrayToFile where
  outDtype : DType
  intercept : ℚ
  divslope : ℚ
  mn : Option ℚ
  mx : Option ℚ
  order : Order
  nan2zero : Bool

/-- `ArrayWriter._writing_range()`: thresholds for float data written to an integer type, with
`(0, 0)` when there is no finite value, and `(None, None)` otherwise. -/
def ArrayWriter.writingRange (w : ArrayWriter) : Option ℚ × Option ℚ :=
  if w.outDtype.isInt ∧ w.array.dtype.kind = 'f' then
    match w.array.finiteRange with
    | .noFinite => (some 0, some 0)
    | .range mn mx => (some mn, some mx)
  else (none, none)

/-- `to_fileobj(fileobj, order, nan2zero)` of the object's class: `ArrayWriter` leaves
`array_to_file` its defaults `intercept=0.0, divslope=1.0`, `SlopeArrayWriter` passes its
slope and `SlopeInterArrayWriter` its slope and intercept. -/
def Writer.toFileobj (w : Writer) (order : Order) (nan2zero : Bool) : ArrayToFile :=
  match w with
  | .array w =>
    ⟨w.outDtype, 0, 1, w.writingRange.1, w.writingRange.2, order, nan2zero⟩
  | .slope w =>
    ⟨w.outDtype, 0, w.slope, w.writingRange.1, w.writingRange.2, order, nan2zero⟩
  | .slopeInter w =>
    ⟨w.outDtype, w.inter, w.slope, w.writingRange.1, w.writingRange.2, order, nan2zero⟩

/-- The transform `to_fileobj` writes with is the one `get_slope_inter` reports. -/
theorem toFileobj_transform (w : Writer) (order : Order) (nan2zero : Bool) :
    ((w.toFileobj order nan2zero).divslope, (w.toFileobj order nan2zero).intercept) =
      getSlopeInter w := by
  cases w <;> rfl

/-- Modelled from the spec: the value `volumeutils.array_to_file` stores for a finite element
`v`, `round((v - intercept) / divslope)`, where the rounding is numpy's `rint`, half to even. -/
def ArrayToFile.stored (c : ArrayToFile) (v : ℚ) : ℤ :=
  roundHalfEven ((v - c.intercept) / c.divslope)

end Nibabel.ArrayWriters
