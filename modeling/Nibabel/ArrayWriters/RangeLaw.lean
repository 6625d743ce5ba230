import Nibabel.ArrayWriters.Exact
import Nibabel.Numpy.Rounding

set_option autoImplicit false

/-!
# The range law

What a writer built by `make_array_writer` with `calc_scale=True` guarantees under exact
arithmetic, for every real source and integer target:

* `makeArrayWriter_roundTrips`: the transform `get_slope_inter` reports has a nonzero slope, maps
  every finite value into the target, and so stores it as a value of the target type that
  decodes to within half a slope; `toFileobj_stored` says the same of what `to_fileobj` writes;
* `init_raises_iff`: a `SlopeArrayWriter` is refused exactly when no slope alone maps the range
  in, which is exactly an unsigned target and a range straddling zero, and a
  `SlopeInterArrayWriter` is never refused;
* `init_slope_least`: for a floating range, both classes choose the least slope they may use.

`shared_range` is any function that meets `SharedRangeOk`.
-/

namespace Nibabel.ArrayWriters

open Nibabel.Numpy

variable {sr : DType → DType → ℚ × ℚ}

/-- `scaling_needed` answered False to a constructed `ArrayWriter`, so the identity transform
maps the range in. -/
theorem ArrayWriter.init_mapsInto {array : SourceArray} {out : DType} {w : ArrayWriter}
    (hs : array.dtype.isInteger = true ∨ array.dtype.kind = 'f') (ho : out.isInt = true)
    (hpos : 0 < out.max) (h : ArrayWriter.init array (some out) = .ok w) {mn mx : ℚ}
    (hr : array.finiteRange = .range mn mx) : MapsInto out.min out.max mn mx 1 0 := by
  obtain ⟨-, hw, hn⟩ := ArrayWriter.init_ok h
  rw [hw, Option.getD_some, scalingNeeded_eq hs ho hpos] at hn
  exact mapsInto_of_needsScaling_false (Except.ok.inj hn) hr

/-- The writer `make_array_writer` builds with `calc_scale=True` reports a nonzero slope whose
transform maps every finite value into the target's range. -/
theorem makeArrayWriter_mapsInto {data : SourceArray} {outType scaler : DType}
    {hasIntercept hasSlope : Bool} {w : Writer}
    (hs : data.dtype.isInteger = true ∨ data.dtype.kind = 'f') (ho : outType.isInt = true)
    (hsr : SharedRangeOk sr scaler outType)
    (h : makeArrayWriter (.exact sr) data outType hasIntercept hasSlope
      { scalerDtype := scaler } = .ok w) :
    (getSlopeInter w).1 ≠ 0 ∧ ∀ mn mx, data.finiteRange = .range mn mx →
      MapsInto outType.min outType.max mn mx (getSlopeInter w).1 (getSlopeInter w).2 := by
  rcases makeArrayWriter_ok h with ⟨v, rfl, hv⟩ | ⟨v, rfl, hv⟩ | ⟨v, rfl, hv⟩
  · obtain ⟨v', he, hs0, hm⟩ := SlopeInterArrayWriter.init_exact hs ho hsr
    cases hv.symm.trans he
    exact ⟨hs0, fun mn mx hr => (hm mn mx hr).1⟩
  · rcases SlopeArrayWriter.init_exact hs ho hsr with ⟨v', he, hs0, hm⟩ | ⟨he, -⟩
    · cases hv.symm.trans he
      exact ⟨hs0, fun mn mx hr => (hm mn mx hr).1⟩
    · cases hv.symm.trans he
  · exact ⟨one_ne_zero, fun mn mx hr => ArrayWriter.init_mapsInto hs ho hsr.max_pos hv hr⟩

/-- **The range law.**  A writer that `make_array_writer` builds with `calc_scale=True` reports
a nonzero slope, and its transform maps every finite value into the target's range: the value
stored is one of the target type, and it decodes to within half a slope of the value
written. -/
theorem makeArrayWriter_roundTrips {data : SourceArray} {outType scaler : DType}
    {hasIntercept hasSlope : Bool} {w : Writer}
    (hs : data.dtype.isInteger = true ∨ data.dtype.kind = 'f') (ho : outType.isInt = true)
    (hsr : SharedRangeOk sr scaler outType)
    (h : makeArrayWriter (.exact sr) data outType hasIntercept hasSlope
      { scalerDtype := scaler } = .ok w) :
    (getSlopeInter w).1 ≠ 0 ∧ ∀ mn mx, data.finiteRange = .range mn mx →
      MapsInto outType.min outType.max mn mx (getSlopeInter w).1 (getSlopeInter w).2 ∧
      RoundTrips outType.min outType.max mn mx (getSlopeInter w).1 (getSlopeInter w).2 := by
  obtain ⟨hs0, hm⟩ := makeArrayWriter_mapsInto hs ho hsr h
  exact ⟨hs0, fun mn mx hr => ⟨hm mn mx hr, (hm mn mx hr).roundTrips hs0⟩⟩

/-- The docstring's `SlopeArrayWriter(arr, np.int8)` for `arr = [0, 254]`: slope `2`. -/
theorem makeArrayWriter_docArray :
    makeArrayWriter (.exact wholeRange) docArray (.int 8) false true { scalerDtype := .float 32 } =
      .ok (.slope ⟨⟨docArray, .int 8⟩, true, .float 32, 2, true⟩) := by
  simp [makeArrayWriter, SlopeArrayWriter.init_docArray]

theorem makeArrayWriter_roundTrips_docArray :
    makeArrayWriter (.exact wholeRange) docArray (.int 8) false true { scalerDtype := .float 32 } =
      .ok (.slope ⟨⟨docArray, .int 8⟩, true, .float 32, 2, true⟩) ∧
    (2 : ℚ) ≠ 0 ∧ ∀ mn mx, docArray.finiteRange = .range mn mx →
      MapsInto (DType.int 8).min (DType.int 8).max mn mx 2 0 ∧
      RoundTrips (DType.int 8).min (DType.int 8).max mn mx 2 0 :=
  ⟨makeArrayWriter_docArray, makeArrayWriter_roundTrips (.inl (by rfl)) (by rfl)
    (wholeRange_ok (by decide)) makeArrayWriter_docArray⟩

/-- The range law with numpy's `rint`: a transform that maps a range into integer bounds stores
each value, rounded half to even, inside them, and decodes it to within half a slope.  Only
rounding to a nearest integer is used, so the law does not depend on the tie rule. -/
theorem MapsInto.roundHalfEven_decode {lo hi : ℤ} {mn mx s b v : ℚ} (h : MapsInto lo hi mn mx s b)
    (hs : s ≠ 0) (h₁ : mn ≤ v) (h₂ : v ≤ mx) :
    lo ≤ roundHalfEven ((v - b) / s) ∧ roundHalfEven ((v - b) / s) ≤ hi ∧
      |(roundHalfEven ((v - b) / s) : ℚ) * s + b - v| ≤ |s| / 2 := by
  set x := (v - b) / s
  have hx : x * s = v - b := div_mul_cancel₀ _ hs
  have e : (roundHalfEven x : ℚ) * s + b - v = ((roundHalfEven x : ℚ) - x) * s := by
    rw [sub_mul, hx]
    ring
  refine ⟨(roundHalfEven_mem (h v h₁ h₂).1 (h v h₁ h₂).2).1,
    (roundHalfEven_mem (h v h₁ h₂).1 (h v h₁ h₂).2).2, ?_⟩
  rw [e, abs_mul]
  calc |(roundHalfEven x : ℚ) - x| * |s| ≤ 1 / 2 * |s| :=
        mul_le_mul_of_nonneg_right (abs_roundHalfEven_sub_le_half x) (abs_nonneg s)
    _ = |s| / 2 := by ring

/-- **What `to_fileobj` writes.**  For a writer that `make_array_writer` builds with
`calc_scale=True`, `array_to_file` is handed the transform of the range law, so that it stores
every finite value as an integer of the target's range that decodes to within half a slope of
the value. -/
theorem toFileobj_stored {data : SourceArray} {outType scaler : DType}
    {hasIntercept hasSlope : Bool} {w : Writer}
    (hs : data.dtype.isInteger = true ∨ data.dtype.kind = 'f') (ho : outType.isInt = true)
    (hsr : SharedRangeOk sr scaler outType)
    (h : makeArrayWriter (.exact sr) data outType hasIntercept hasSlope
      { scalerDtype := scaler } = .ok w) (order : Order) (nan2zero : Bool) :
    let c := w.toFileobj order nan2zero
    ∀ mn mx, data.finiteRange = .range mn mx → ∀ v, mn ≤ v → v ≤ mx →
      outType.min ≤ c.stored v ∧ c.stored v ≤ outType.max ∧
      |(c.stored v : ℚ) * c.divslope + c.intercept - v| ≤ |c.divslope| / 2 := by
  intro c mn mx hr v h₁ h₂
  obtain ⟨hs0, hm⟩ := makeArrayWriter_mapsInto hs ho hsr h
  obtain ⟨hd, hi⟩ := Prod.ext_iff.1 (toFileobj_transform w order nan2zero)
  have hd : c.divslope = (getSlopeInter w).1 := hd
  have hi : c.intercept = (getSlopeInter w).2 := hi
  rw [ArrayToFile.stored, hd, hi]
  exact (hm mn mx hr).roundHalfEven_decode hs0 h₁ h₂

theorem toFileobj_stored_docArray :
    makeArrayWriter (.exact wholeRange) docArray (.int 8) false true { scalerDtype := .float 32 } =
      .ok (.slope ⟨⟨docArray, .int 8⟩, true, .float 32, 2, true⟩) ∧
    let c := (Writer.slope ⟨⟨docArray, .int 8⟩, true, .float 32, 2, true⟩).toFileobj .c false
    ∀ mn mx, docArray.finiteRange = .range mn mx → ∀ v, mn ≤ v → v ≤ mx →
      (DType.int 8).min ≤ c.stored v ∧ c.stored v ≤ (DType.int 8).max ∧
      |(c.stored v : ℚ) * c.divslope + c.intercept - v| ≤ |c.divslope| / 2 :=
  ⟨makeArrayWriter_docArray, toFileobj_stored (.inl (by rfl)) (by rfl) (wholeRange_ok (by decide))
    makeArrayWriter_docArray .c false⟩

/-- **When construction fails.**  For a finite range, `SlopeArrayWriter` raises a `WriterError`
exactly when no nonzero slope alone maps the range into the target, which is exactly an
unsigned target and a range straddling zero; `SlopeInterArrayWriter` is always built. -/
theorem init_raises_iff {array : SourceArray} {out scaler : DType} {mn mx : ℚ}
    (hs : array.dtype.isInteger = true ∨ array.dtype.kind = 'f') (ho : out.isInt = true)
    (hsr : SharedRangeOk sr scaler out) (hr : array.finiteRange = .range mn mx) :
    ((∃ msg, SlopeArrayWriter.init (.exact sr) array (some out) true scaler =
        .error (.writerError msg)) ↔ ¬∃ s, s ≠ 0 ∧ MapsInto out.min out.max mn mx s 0) ∧
    ((¬∃ s, s ≠ 0 ∧ MapsInto out.min out.max mn mx s 0) ↔ out.kind = 'u' ∧ mn < 0 ∧ 0 < mx) ∧
    ∃ w, SlopeInterArrayWriter.init (.exact sr) array (some out) true scaler = .ok w := by
  have hnone : out.kind = 'u' ∧ mn < 0 ∧ 0 < mx →
      ¬∃ s, s ≠ 0 ∧ MapsInto out.min out.max mn mx s 0 := fun ⟨hu, h1, h2⟩ ⟨s, hs0, hm⟩ =>
    not_mapsInto_straddle hs0 h1 h2 (by simpa [DType.min_eq_zero_of_kind_u hu] using hm)
  have hsi := (SlopeInterArrayWriter.init_exact hs ho hsr).imp fun _ h => h.1
  rcases SlopeArrayWriter.init_exact hs ho hsr with ⟨w, he, hs0, hm⟩ | ⟨he, mn', mx', hr', hst⟩
  · -- the writer is built: its own slope maps the range in
    have hfit : ∃ s, s ≠ 0 ∧ MapsInto out.min out.max mn mx s 0 := ⟨w.slope, hs0, (hm mn mx hr).1⟩
    refine ⟨iff_of_false ?_ (not_not.2 hfit), iff_of_false (not_not.2 hfit) (hnone · hfit), hsi⟩
    rintro ⟨_, h⟩
    cases he.symm.trans h
  · -- the constructor raised: the range straddles zero over an unsigned target
    rw [hr] at hr'
    cases hr'
    exact ⟨iff_of_true ⟨_, he⟩ (hnone hst), iff_of_true (hnone hst) hst, hsi⟩

theorem init_raises_iff_straddle :
    straddleArray.finiteRange = .range (-1) 1 ∧
    ((∃ msg, SlopeArrayWriter.init (.exact wholeRange) straddleArray (some (.uint 8)) true
        (.float 32) = .error (.writerError msg)) ↔
      ¬∃ s, s ≠ 0 ∧ MapsInto (DType.uint 8).min (DType.uint 8).max (-1) 1 s 0) ∧
    ((¬∃ s, s ≠ 0 ∧ MapsInto (DType.uint 8).min (DType.uint 8).max (-1) 1 s 0) ↔
      (DType.uint 8).kind = 'u' ∧ (-1 : ℚ) < 0 ∧ (0 : ℚ) < 1) ∧
    ∃ w, SlopeInterArrayWriter.init (.exact wholeRange) straddleArray (some (.uint 8)) true
      (.float 32) = .ok w :=
  ⟨rfl, init_raises_iff (.inr rfl) rfl (wholeRange_ok (by decide)) rfl⟩

/-- **Least slopes.**  For a floating range `mn < mx`, `SlopeInterArrayWriter` is built with the
least slope for which some intercept maps the range onto the shared range, and a
`SlopeArrayWriter`, when built, has the least slope that maps it there alone (over positive
slopes for a signed target). -/
theorem init_slope_least {array : SourceArray} {out scaler : DType} {mn mx : ℚ}
    (hf : array.dtype.kind = 'f') (ho : out.isInt = true) (hsr : SharedRangeOk sr scaler out)
    (hr : array.finiteRange = .range mn mx) (hlt : mn < mx) :
    (∃ w, SlopeInterArrayWriter.init (.exact sr) array (some out) true scaler = .ok w ∧
      LeastSlope (SlopeInterArrayWriter.Admissible (sr scaler out).1 (sr scaler out).2 mn mx)
        w.slope) ∧
    ∀ w, SlopeArrayWriter.init (.exact sr) array (some out) true scaler = .ok w →
      LeastSlope (SlopeArrayWriter.Admissible out (sr scaler out).1 (sr scaler out).2 mn mx)
        w.slope := by
  refine ⟨?_, fun w hw => ?_⟩
  · obtain ⟨w, he, -, hm⟩ := SlopeInterArrayWriter.init_exact (.inr hf) ho hsr
    exact ⟨w, he, ((hm mn mx hr).2 hf hlt).2⟩
  · rcases SlopeArrayWriter.init_exact (.inr hf) ho hsr with ⟨w', he, -, hm⟩ | ⟨he, -⟩
    · cases hw.symm.trans he
      exact (hm mn mx hr).2 hf hlt
    · cases hw.symm.trans he

theorem init_slope_least_straddle :
    (-1 : ℚ) < 1 ∧
    (∃ w, SlopeInterArrayWriter.init (.exact wholeRange) straddleArray (some (.int 8)) true
        (.float 32) = .ok w ∧
      LeastSlope (SlopeInterArrayWriter.Admissible (wholeRange (.float 32) (.int 8)).1
        (wholeRange (.float 32) (.int 8)).2 (-1) 1) w.slope) ∧
    ∀ w, SlopeArrayWriter.init (.exact wholeRange) straddleArray (some (.int 8)) true
        (.float 32) = .ok w →
      LeastSlope (SlopeArrayWriter.Admissible (.int 8) (wholeRange (.float 32) (.int 8)).1
        (wholeRange (.float 32) (.int 8)).2 (-1) 1) w.slope :=
  ⟨by norm_num, init_slope_least rfl rfl (wholeRange_ok (by decide)) rfl (by norm_num)⟩

end Nibabel.ArrayWriters
