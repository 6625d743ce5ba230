import Nibabel.ArrayWriters.Basic

set_option autoImplicit false

/-!
# `ArrayWriter.scaling_needed` and the unscaled writer

`scaling_needed` decides, from the dtypes and the finite range, whether a transform is needed,
and raises when no transform could make the cast valid.  `scalingNeeded_eq` says what it answers
for every real source and integer target, once: later proofs cite it and never unfold it.
-/

namespace Nibabel.ArrayWriters

open Nibabel.Numpy

/-- `ArrayWriter.scaling_needed()` for an array written as `out`. -/
def scalingNeeded (array : SourceArray) (out : DType) : Except Raise Bool :=
  let t := array.dtype
  if DType.canCast t out then .ok false
  else if t.kind = 'V' ∨ out.kind = 'V' then
    .error (.writerError "Cannot cast to or from non-numeric types")
  else if out.kind = 'c' then .ok false
  else if t.kind = 'c' then .error (.writerError "Cannot cast complex types to non-complex")
  else if out.kind = 'f' then .ok false
  else
    match array.finiteRange with
    | .noFinite => .ok false
    | .range mn mx =>
      if mn = 0 ∧ mx = 0 then .ok false
      else if t.kind = 'f' then .ok true
      else if !(t.isInt && out.isInt) then .error .assertionError
      else .ok !(decide ((out.min : ℚ) ≤ mn ∧ mx ≤ out.max))

/-- What `scaling_needed` answers for a real source and an integer target: some finite value
is nonzero, and the source is floating or its range overflows the target. -/
def needsScaling (array : SourceArray) (out : DType) : Bool :=
  match array.finiteRange with
  | .noFinite => false
  | .range mn mx =>
    !decide (mn = 0 ∧ mx = 0) &&
      (array.dtype.kind = 'f' || !decide ((out.min : ℚ) ≤ mn ∧ mx ≤ out.max))

theorem kind_ne_of_isInt {t : DType} (h : t.isInt = true) :
    t.kind ≠ 'V' ∧ t.kind ≠ 'c' ∧ t.kind ≠ 'f' ∧ t.kind ≠ 'b' := by
  rcases DType.isInt_cases h with ⟨b, rfl⟩ | ⟨b, rfl⟩ <;> simp

/-- A source type that casts safely to an integer type is an integer type whose range fits
inside the target's. -/
theorem needsScaling_of_canCast {array : SourceArray} {out : DType}
    (hc : DType.canCast array.dtype out = true) (ho : out.isInt = true) (hpos : 0 < out.max) :
    needsScaling array out = false := by
  obtain ⟨hint, hmin, hmax⟩ := DType.canCast_range hc ho hpos
  have hk : array.dtype.kind ≠ 'f' := by
    intro hf; simp [DType.isInteger, DType.isInt, hf] at hint
  have hfits := array.fits
  cases hr : array.finiteRange with
  | noFinite => simp [needsScaling, hr]
  | range mn mx =>
    rw [hr] at hfits
    have hlo := (hfits.2 hint).2.2.1
    have hhi := (hfits.2 hint).2.2.2
    have : (out.min : ℚ) ≤ mn ∧ mx ≤ out.max :=
      ⟨le_trans (by exact_mod_cast hmin) hlo, le_trans hhi (by exact_mod_cast hmax)⟩
    simp [needsScaling, hr, hk, this]

/-- **`scaling_needed`, for every real source and integer target.**  It never raises, and it
answers `needsScaling`. -/
theorem scalingNeeded_eq {array : SourceArray} {out : DType}
    (hs : array.dtype.isInteger = true ∨ array.dtype.kind = 'f') (ho : out.isInt = true)
    (hpos : 0 < out.max) : scalingNeeded array out = .ok (needsScaling array out) := by
  obtain ⟨hoV, hoc, hof, -⟩ := kind_ne_of_isInt ho
  by_cases hc : DType.canCast array.dtype out = true
  · simp [scalingNeeded, hc, needsScaling_of_canCast hc ho hpos]
  have hsrc : array.dtype.isInt = true ∨ array.dtype.kind = 'f' := by
    refine hs.imp (fun hs => ?_) id
    have hb : array.dtype ≠ .bool := fun h => hc (h ▸ DType.canCast_bool hoV)
    cases h : array.dtype <;> simp_all [DType.isInteger, DType.isInt, DType.kind]
  have htV : array.dtype.kind ≠ 'V' ∧ array.dtype.kind ≠ 'c' := by
    rcases hsrc with hs | hs
    · exact ⟨(kind_ne_of_isInt hs).1, (kind_ne_of_isInt hs).2.1⟩
    · simp [hs]
  cases hr : array.finiteRange with
  | noFinite => simp [scalingNeeded, needsScaling, hc, htV, hoV, hoc, hof, hr]
  | range mn mx =>
    by_cases h0 : mn = 0 ∧ mx = 0
    · simp [scalingNeeded, needsScaling, hc, htV, hoV, hoc, hof, hr, h0]
    by_cases hf : array.dtype.kind = 'f'
    · simp [scalingNeeded, needsScaling, hc, htV, hoV, hoc, hof, hr, h0, hf]
    have hi : array.dtype.isInt = true := hsrc.resolve_right hf
    simp [scalingNeeded, needsScaling, hc, htV, hoV, hoc, hof, hr, h0, hf, hi, ho]

/-- **`scaling_needed` refuses the sources no transform can help**: for an integer target, a
complex source raises the complex `WriterError` and a structured one the non-numeric one. -/
theorem scalingNeeded_nonReal {array : SourceArray} {out : DType} (ho : out.isInt = true) :
    (∀ c, array.dtype = .complex c → scalingNeeded array out =
      .error (.writerError "Cannot cast complex types to non-complex")) ∧
    (∀ v, array.dtype = .void v → scalingNeeded array out =
      .error (.writerError "Cannot cast to or from non-numeric types")) := by
  obtain ⟨hoV, hoc, -, -⟩ := kind_ne_of_isInt ho
  have hcast : ∀ a, DType.canCast (.complex a) out = false ∧ DType.canCast (.void a) out = false :=
    fun a => by rcases DType.isInt_cases ho with ⟨c, rfl⟩ | ⟨c, rfl⟩ <;> exact ⟨rfl, rfl⟩
  refine ⟨fun c ht => ?_, fun v ht => ?_⟩ <;> simp [scalingNeeded, ht, hcast, hoV, hoc]

/-- A complex array without finite values, written as `int8`, is refused. -/
theorem scalingNeeded_nonReal_complex :
    (DType.int 8).isInt = true ∧
    (∀ c, (⟨.complex 64, .noFinite, trivial⟩ : SourceArray).dtype = .complex c →
      scalingNeeded ⟨.complex 64, .noFinite, trivial⟩ (.int 8) =
        .error (.writerError "Cannot cast complex types to non-complex")) ∧
    (∀ v, (⟨.complex 64, .noFinite, trivial⟩ : SourceArray).dtype = .void v →
      scalingNeeded ⟨.complex 64, .noFinite, trivial⟩ (.int 8) =
        .error (.writerError "Cannot cast to or from non-numeric types")) :=
  ⟨rfl, scalingNeeded_nonReal rfl⟩

/-- With no finite value, or only zeros, no scaling is needed. -/
theorem needsScaling_true {array : SourceArray} {out : DType}
    (h : needsScaling array out = true) :
    ∃ mn mx, array.finiteRange = .range mn mx ∧ ¬(mn = 0 ∧ mx = 0) ∧
      (array.dtype.kind = 'f' ∨ ¬((out.min : ℚ) ≤ mn ∧ mx ≤ out.max)) := by
  unfold needsScaling at h
  split at h
  · simp at h
  · rename_i mn mx hr
    simp only [Bool.and_eq_true, Bool.not_eq_true', decide_eq_false_iff_not, Bool.or_eq_true,
      decide_eq_true_eq] at h
    exact ⟨mn, mx, hr, h⟩

/-- When no scaling is needed, every value of the finite range is a value of the integer
target: the range fits, or it is the single value zero. -/
theorem mem_out_of_needsScaling_false {array : SourceArray} {out : DType}
    (h : needsScaling array out = false) {mn mx : ℚ} (hr : array.finiteRange = .range mn mx)
    {v : ℚ} (hv₁ : mn ≤ v) (hv₂ : v ≤ mx) : (out.min : ℚ) ≤ v ∧ v ≤ out.max := by
  simp only [needsScaling, hr, Bool.and_eq_false_iff, Bool.not_eq_false', decide_eq_true_eq,
    Bool.or_eq_false_iff, Bool.not_eq_false', decide_eq_false_iff_not] at h
  have hlo : (out.min : ℚ) ≤ 0 := by exact_mod_cast out.min_nonpos
  have hhi : (0 : ℚ) ≤ out.max := by exact_mod_cast out.max_nonneg
  rcases h with ⟨rfl, rfl⟩ | ⟨-, hmn, hmx⟩
  · exact ⟨by linarith, by linarith⟩
  · exact ⟨by linarith, by linarith⟩

/-- `ArrayWriter.__init__(array, out_dtype)`: it refuses every array that needs scaling. -/
def ArrayWriter.init (array : SourceArray) (outDtype : Option DType) :
    Except Raise ArrayWriter :=
  let out := outDtype.getD array.dtype
  match scalingNeeded array out with
  | .error e => .error e
  | .ok true => .error (.writerError "Scaling needed but cannot scale")
  | .ok false => .ok ⟨array, out⟩

/-- A constructed `ArrayWriter` is one for which `scaling_needed` answered False. -/
theorem ArrayWriter.init_ok {array : SourceArray} {outDtype : Option DType} {w : ArrayWriter}
    (h : ArrayWriter.init array outDtype = .ok w) :
    w.array = array ∧ w.outDtype = outDtype.getD array.dtype ∧
      scalingNeeded array w.outDtype = .ok false := by
  dsimp only [ArrayWriter.init] at h
  split at h <;> cases h
  exact ⟨rfl, rfl, ‹_›⟩

/-- **`ArrayWriter.__init__`, for every real source.**  Without `out_dtype` the writer is built
for the array's own dtype.  For an integer `out_dtype` it refuses exactly the arrays that need
scaling, with `WriterError('Scaling needed but cannot scale')`, and otherwise keeps the array and
the target. -/
theorem ArrayWriter.init_eq {array : SourceArray} {out : DType}
    (hs : array.dtype.isInteger = true ∨ array.dtype.kind = 'f') (ho : out.isInt = true)
    (hpos : 0 < out.max) :
    ArrayWriter.init array none = .ok ⟨array, array.dtype⟩ ∧
    ArrayWriter.init array (some out) = if needsScaling array out
      then .error (.writerError "Scaling needed but cannot scale") else .ok ⟨array, out⟩ := by
  refine ⟨by simp [ArrayWriter.init, scalingNeeded, DType.canCast_self], ?_⟩
  simp only [ArrayWriter.init, Option.getD_some, scalingNeeded_eq hs ho hpos]
  cases needsScaling array out <;> rfl

/-- The docstring's `np.array([0, 255], np.uint8)`. -/
def uint8Full : SourceArray := .ofInts (.uint 8) 0 255 (by decide) (by decide) (by decide)

theorem ArrayWriter.init_eq_uint8Full :
    (uint8Full.dtype.isInteger = true ∨ uint8Full.dtype.kind = 'f') ∧ (DType.int 8).isInt = true ∧
    0 < (DType.int 8).max ∧
    ArrayWriter.init uint8Full none = .ok ⟨uint8Full, uint8Full.dtype⟩ ∧
    ArrayWriter.init uint8Full (some (.int 8)) = if needsScaling uint8Full (.int 8)
      then .error (.writerError "Scaling needed but cannot scale") else .ok ⟨uint8Full, .int 8⟩ :=
  ⟨Or.inl rfl, rfl, by decide, ArrayWriter.init_eq (Or.inl rfl) rfl (by decide)⟩

example : needsScaling uint8Full (.int 8) = true := by decide

end Nibabel.ArrayWriters
