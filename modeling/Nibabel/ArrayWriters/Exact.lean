import Nibabel.ArrayWriters.Factory
import Nibabel.ArrayWriters.Affine

set_option autoImplicit false

/-!
# The writers under exact arithmetic

With `Numerics.exact`, the value each branch of `_do_scaling` computes is an exact rational, and
the branch's transform is one of those in `Affine`.  This module says once, per class, what
construction with `calc_scale=True` produces:

* `SlopeArrayWriter.init_exact`: either a writer whose nonzero slope maps the finite range
  into the target, with the least such slope for floating data, or the `WriterError` for an
  unsigned target and a range straddling zero;
* `SlopeInterArrayWriter.init_exact`: always a writer, whose transform maps the finite range
  into the target, with the least slope for floating data.

Every result assumes of `shared_range` only what `SharedRangeOk` states.
-/

namespace Nibabel.ArrayWriters

open Nibabel.Numpy

variable {sr : DType → DType → ℚ × ℚ}

namespace SharedRangeOk

variable {scaler out : DType}

theorem max_pos (h : SharedRangeOk sr scaler out) : 0 < out.max := by
  have := h.smax_pos.trans_le h.le_max
  exact_mod_cast this

theorem smin_eq_zero (h : SharedRangeOk sr scaler out) (hu : out.kind = 'u') :
    (sr scaler out).1 = 0 :=
  le_antisymm h.smin_nonpos (by simpa [DType.min_eq_zero_of_kind_u hu] using h.min_le)

theorem smin_lt_smax (h : SharedRangeOk sr scaler out) : (sr scaler out).1 < (sr scaler out).2 :=
  h.smin_nonpos.trans_lt h.smax_pos

/-- A transform into the shared range is a transform into the target's range. -/
theorem mapsInto_out (h : SharedRangeOk sr scaler out) {mn mx s b : ℚ}
    (hm : MapsInto (sr scaler out).1 (sr scaler out).2 mn mx s b) :
    MapsInto out.min out.max mn mx s b :=
  hm.mono h.min_le h.le_max

end SharedRangeOk

/-- The `shared_range` of a scaler type that holds every value of the target exactly: the
target's own range. -/
def wholeRange (_scaler out : DType) : ℚ × ℚ := (out.min, out.max)

theorem wholeRange_ok {scaler out : DType} (hpos : 0 < out.max) :
    SharedRangeOk wholeRange scaler out where
  min_le := le_rfl
  smin_nonpos := show (out.min : ℚ) ≤ 0 by exact_mod_cast out.min_nonpos
  smax_pos := show (0 : ℚ) < out.max by exact_mod_cast hpos
  le_max := le_rfl
  smin_neg h := show (out.min : ℚ) < 0 by exact_mod_cast DType.min_neg_of_kind_i h

/-- The range of a needed scaling is a proper range: it is not `[0, 0]`. -/
theorem range_of_needsScaling {array : SourceArray} {out : DType} {mn mx : ℚ}
    (hr : array.finiteRange = .range mn mx) (hn : needsScaling array out = true) :
    mn ≤ mx ∧ ¬(mn = 0 ∧ mx = 0) ∧
      (array.dtype.kind = 'f' ∨ ¬((out.min : ℚ) ≤ mn ∧ mx ≤ out.max)) := by
  obtain ⟨mn', mx', hr', h0, hk⟩ := needsScaling_true hn
  rw [hr] at hr'
  cases hr'
  have hfits := array.fits
  rw [hr] at hfits
  exact ⟨hfits.1, h0, hk⟩

/-- When no scaling is needed, the identity transform maps the finite range into the target. -/
theorem mapsInto_of_needsScaling_false {array : SourceArray} {out : DType} {mn mx : ℚ}
    (hn : needsScaling array out = false) (hr : array.finiteRange = .range mn mx) :
    MapsInto out.min out.max mn mx 1 0 :=
  mapsInto_one_zero fun _ h₁ h₂ => mem_out_of_needsScaling_false hn hr h₁ h₂

/-- With no scaling needed, a floating range is `[0, 0]`. -/
theorem not_lt_of_needsScaling_false {array : SourceArray} {out : DType} {mn mx : ℚ}
    (hn : needsScaling array out = false) (hr : array.finiteRange = .range mn mx)
    (hf : array.dtype.kind = 'f') : ¬mn < mx := by
  obtain ⟨rfl, rfl⟩ : mn = 0 ∧ mx = 0 := by simpa [needsScaling, hr, hf] using hn
  exact lt_irrefl 0

namespace SlopeArrayWriter

/-- What a slope-only writer may use: a slope onto `[smin, smax]`, positive for a signed
target. -/
def Admissible (out : DType) (smin smax mn mx s : ℚ) : Prop :=
  (out.kind = 'i' → 0 < s) ∧ MapsInto smin smax mn mx s 0

/-- `_range_scale` under exact arithmetic: the `WriterError` of a straddling range and an
unsigned target, or else the least admissible slope. -/
theorem rangeScale_exact {w : SlopeArrayWriter} {mn mx : ℚ}
    (hsr : SharedRangeOk sr w.scalerDtype w.outDtype) (ho : w.outDtype.isInt = true)
    (hm : mn ≤ mx) (h0 : ¬(mn = 0 ∧ mx = 0)) :
    (w.outDtype.kind = 'u' ∧ mn < 0 ∧ 0 < mx ∧
      w.rangeScale (.exact sr) mn mx = (.error (.writerError straddleMsg), w)) ∨
    (¬(w.outDtype.kind = 'u' ∧ mn < 0 ∧ 0 < mx) ∧
      ∃ s, w.rangeScale (.exact sr) mn mx = (.ok (), { w with slope := s }) ∧
        LeastSlope (Admissible w.outDtype (sr w.scalerDtype w.outDtype).1
          (sr w.scalerDtype w.outDtype).2 mn mx) s) := by
  have hsmax := hsr.smax_pos
  rcases rangeScale_cases (.exact sr) w mn mx with
    ⟨hu, h1, h2, he⟩ | ⟨hu, h2, he⟩ | ⟨hu, h1, h2, he⟩ | ⟨hu, he⟩
  · exact .inl ⟨hu, h1, h2, he⟩
  · have h1 : mn < 0 := lt_of_le_of_ne (hm.trans h2) fun h => h0 ⟨h, by linarith⟩
    have hi : w.outDtype.kind ≠ 'i' := by rw [hu]; decide
    have hmap : MapsInto (sr w.scalerDtype w.outDtype).1 (sr w.scalerDtype w.outDtype).2 mn mx
        (mn / (sr w.scalerDtype w.outDtype).2) 0 := by
      rw [hsr.smin_eq_zero hu]; exact mapsInto_div_nonpos hsmax h1 h2
    refine .inr ⟨fun h => absurd h.2.2 (not_lt.2 h2), _, he, ?_⟩
    exact ⟨(div_neg_of_neg_of_pos h1 hsmax).ne, ⟨fun h => absurd h hi, hmap⟩,
      fun s hs hok => abs_div_nonpos_le hsmax hs h1 hm (hsr.smin_eq_zero hu ▸ hok.2)⟩
  · have hi : w.outDtype.kind ≠ 'i' := by rw [hu]; decide
    have hmap : MapsInto (sr w.scalerDtype w.outDtype).1 (sr w.scalerDtype w.outDtype).2 mn mx
        (mx / (sr w.scalerDtype w.outDtype).2) 0 := by
      rw [hsr.smin_eq_zero hu]; exact mapsInto_div_pos hsmax h1 h2
    refine .inr ⟨fun h => absurd h.2.1 (not_lt.2 h1), _, he, ?_⟩
    exact ⟨(div_pos h2 hsmax).ne', ⟨fun h => absurd h hi, hmap⟩,
      fun s hs hok => div_pos_le_abs hsmax hs h2 hm (hsr.smin_eq_zero hu ▸ hok.2)⟩
  · have hk : w.outDtype.kind = 'i' := ((DType.isInt_iff _).1 ho).resolve_left hu
    have hsmin := hsr.smin_neg hk
    have hpos := maxSlope_pos hsmin hsmax hm h0
    refine .inr ⟨fun h => hu h.1, max (mx / (sr w.scalerDtype w.outDtype).2)
      (mn / (sr w.scalerDtype w.outDtype).1), he, hpos.ne',
      ⟨fun _ => hpos, mapsInto_maxSlope hsmin hsmax hm h0⟩, fun s hs hok => ?_⟩
    have hs' := hok.1 hk
    rw [abs_of_pos hpos, abs_of_pos hs']
    exact maxSlope_le hsmin hsmax hs' hm hok.2

/-- `_do_scaling` under exact arithmetic, once `scaling_needed` has answered True: the
`WriterError` of `_range_scale`, or a nonzero slope that maps the range into the target, the
least admissible one for floating data. -/
theorem doScaling_exact {w : SlopeArrayWriter} {mn mx : ℚ}
    (hsr : SharedRangeOk sr w.scalerDtype w.outDtype) (ho : w.outDtype.isInt = true)
    (hr : w.array.finiteRange = .range mn mx) (hn : needsScaling w.array w.outDtype = true) :
    (w.outDtype.kind = 'u' ∧ mn < 0 ∧ 0 < mx ∧
      w.doScaling (.exact sr) = (.error (.writerError straddleMsg), w)) ∨
    (¬(w.outDtype.kind = 'u' ∧ mn < 0 ∧ 0 < mx) ∧
      ∃ s, w.doScaling (.exact sr) = (.ok (), { w with slope := s }) ∧ s ≠ 0 ∧
        MapsInto w.outDtype.min w.outDtype.max mn mx s 0 ∧
        (w.array.dtype.kind = 'f' → LeastSlope (Admissible w.outDtype
          (sr w.scalerDtype w.outDtype).1 (sr w.scalerDtype w.outDtype).2 mn mx) s)) := by
  obtain ⟨hm, h0, hk⟩ := range_of_needsScaling hr hn
  rcases doScaling_cases (.exact sr) w ho hr with
    ⟨-, hd⟩ | ⟨hf, h1, h2, -⟩ | ⟨hf, -, hu, hmx, habs, hd⟩ | ⟨-, -, -, hd⟩
  rotate_left
  · -- integers that fit the target: `scaling_needed` would have answered False
    exact absurd ⟨h2, h1⟩ (hk.resolve_left hf)
  · -- integers that fit after a sign flip
    refine .inr ⟨fun h => (not_lt.2 hmx) h.2.2, -1, hd, by norm_num,
      mapsInto_signFlip hmx ((neg_le_abs mn).trans (habs.trans hsr.le_max)) ?_,
      fun h => absurd h hf⟩
    exact_mod_cast w.outDtype.min_nonpos
  -- floating data, and integers that need the range computation
  all_goals
    rw [hd]
    rcases rangeScale_exact hsr ho hm h0 with h | ⟨hns, s, he, hl⟩
    · exact .inl h
    · exact .inr ⟨hns, s, he, hl.1, hsr.mapsInto_out hl.2.1.2, fun _ => hl⟩

/-- **`SlopeArrayWriter(array, out_dtype, calc_scale=True)` under exact arithmetic**, for a real
source and an integer target.  Either the writer is built, with a nonzero slope that maps every
finite value into the target and, for floating data with a proper range, the least admissible
slope; or the range straddles zero, the target is unsigned, and the constructor raises the
`WriterError` of `_range_scale`. -/
theorem init_exact {array : SourceArray} {out scaler : DType}
    (hs : array.dtype.isInteger = true ∨ array.dtype.kind = 'f') (ho : out.isInt = true)
    (hsr : SharedRangeOk sr scaler out) :
    (∃ w, init (.exact sr) array (some out) true scaler = .ok w ∧ w.slope ≠ 0 ∧
      ∀ mn mx, array.finiteRange = .range mn mx →
        MapsInto out.min out.max mn mx w.slope 0 ∧
        (array.dtype.kind = 'f' → mn < mx →
          LeastSlope (Admissible out (sr scaler out).1 (sr scaler out).2 mn mx) w.slope)) ∨
    (init (.exact sr) array (some out) true scaler = .error (.writerError straddleMsg) ∧
      ∃ mn mx, array.finiteRange = .range mn mx ∧ out.kind = 'u' ∧ mn < 0 ∧ 0 < mx) := by
  rw [init_calc _ _ (scalingNeeded_eq hs ho hsr.max_pos)]
  cases hn : needsScaling array out
  case false =>
    exact .inl ⟨_, rfl, one_ne_zero, fun mn mx hr =>
      ⟨mapsInto_of_needsScaling_false hn hr,
        fun hf hlt => absurd hlt (not_lt_of_needsScaling_false hn hr hf)⟩⟩
  case true =>
    obtain ⟨mn, mx, hr, -⟩ := needsScaling_true hn
    rcases @doScaling_exact sr ⟨⟨array, out⟩, true, scaler, 1, true⟩ mn mx hsr ho hr hn with
      ⟨hu, h1, h2, he⟩ | ⟨-, s, he, hs0, hmap, hl⟩
    · exact .inr ⟨by simp [he], mn, mx, hr, hu, h1, h2⟩
    · refine .inl ⟨⟨⟨array, out⟩, true, scaler, s, true⟩, by simp [he], hs0, fun mn' mx' hr' => ?_⟩
      rw [hr] at hr'
      cases hr'
      exact ⟨hmap, fun hf _ => hl hf⟩

end SlopeArrayWriter

namespace SlopeInterArrayWriter

/-- What a writer with an intercept may use: a slope for which some intercept maps `[mn, mx]`
onto `[smin, smax]`. -/
def Admissible (smin smax mn mx s : ℚ) : Prop :=
  ∃ b, MapsInto smin smax mn mx s b

/-- `_range_scale` under exact arithmetic never raises: a constant range keeps the slope and
takes `inter = mn`, and a proper range gets the span slope, the least admissible one. -/
theorem rangeScale_exact {w : SlopeInterArrayWriter} {mn mx : ℚ}
    (hsr : SharedRangeOk sr w.scalerDtype w.outDtype) (hm : mn ≤ mx) :
    let smin := (sr w.scalerDtype w.outDtype).1
    let smax := (sr w.scalerDtype w.outDtype).2
    (mx = mn ∧ w.rangeScale (.exact sr) mn mx = (.ok (), { w with inter := mn })) ∨
    (mn < mx ∧ ∃ b, w.rangeScale (.exact sr) mn mx =
        (.ok (), { w with slope := (mx - mn) / (smax - smin), inter := b }) ∧
      MapsInto smin smax mn mx ((mx - mn) / (smax - smin)) b ∧
      LeastSlope (Admissible smin smax mn mx) ((mx - mn) / (smax - smin))) := by
  intro smin smax
  have hs := hsr.smin_lt_smax
  rcases rangeScale_cases (.exact sr) w mn mx with ⟨h, he⟩ | ⟨h, -, -, he⟩ | ⟨-, hf, -⟩
  · exact .inl ⟨h, he⟩
  · have hlt : mn < mx := lt_of_le_of_ne hm (Ne.symm h)
    have hpos : 0 < (mx - mn) / (smax - smin) := div_pos (by linarith) (by linarith)
    exact .inr ⟨hlt, _, he, mapsInto_span hs hlt, hpos.ne', ⟨_, mapsInto_span hs hlt⟩,
      fun s hs0 ⟨b, hb⟩ => (abs_of_pos hpos).symm ▸ span_le_abs hs0 hs hm hb⟩
  · exact absurd ⟨rfl, rfl⟩ hf

/-- `_do_scaling` under exact arithmetic on an object with the initial `slope = 1` and
`inter = 0`, once `scaling_needed` has answered True: a transform with a nonzero slope that
maps the range into the target, the span slope (the least admissible one) for a floating
range. -/
theorem doScaling_exact {w : SlopeInterArrayWriter} {mn mx : ℚ}
    (hsr : SharedRangeOk sr w.scalerDtype w.outDtype) (ho : w.outDtype.isInt = true)
    (hr : w.array.finiteRange = .range mn mx) (hn : needsScaling w.array w.outDtype = true)
    (h1 : w.slope = 1) (h0 : w.inter = 0) :
    let smin := (sr w.scalerDtype w.outDtype).1
    let smax := (sr w.scalerDtype w.outDtype).2
    ∃ s b, w.doScaling (.exact sr) = (.ok (), { w with slope := s, inter := b }) ∧ s ≠ 0 ∧
      MapsInto w.outDtype.min w.outDtype.max mn mx s b ∧
      (w.array.dtype.kind = 'f' → mn < mx →
        s = (mx - mn) / (smax - smin) ∧ LeastSlope (Admissible smin smax mn mx) s) := by
  intro smin smax
  obtain ⟨hm, hz, hk⟩ := range_of_needsScaling hr hn
  have hlo : (w.outDtype.min : ℚ) ≤ 0 := by exact_mod_cast w.outDtype.min_nonpos
  have hhi : (0 : ℚ) ≤ w.outDtype.max := by exact_mod_cast w.outDtype.max_nonneg
  rcases doScaling_cases (.exact sr) w ho hr with ⟨hmn, hmx, -⟩ | ⟨-, -, hd⟩ |
    ⟨hf, h2, h3, -⟩ | ⟨-, hf, -, -, hspan, hd⟩ | ⟨-, hf, -, -, -, hmx, habs, hd⟩ | ⟨-, -, -, -, -, hd⟩
  · exact absurd ⟨hmn, hmx⟩ hz
  rotate_left
  · -- integers that fit the target: `scaling_needed` would have answered False
    exact absurd ⟨h3, h2⟩ (hk.resolve_left hf)
  · -- a pure offset, with the initial slope
    refine ⟨w.slope, mn, hd, h1 ▸ one_ne_zero, ?_, fun h => absurd h hf⟩
    rw [h1]
    exact mapsInto_offset (hspan.trans hsr.le_max) hlo
  · -- a sign flip, with the initial intercept
    refine ⟨-1, w.inter, hd, by norm_num, ?_, fun h => absurd h hf⟩
    rw [h0]
    exact mapsInto_signFlip hmx ((neg_le_abs mn).trans (habs.trans hsr.le_max)) hlo
  -- floating data, and integers that need the range computation
  all_goals
    rw [hd]
    rcases rangeScale_exact hsr hm with ⟨rfl, he⟩ | ⟨hlt, b, he, hmap, hl⟩
    · exact ⟨w.slope, mx, he, h1 ▸ one_ne_zero, mapsInto_const hlo hhi,
        fun _ h => absurd h (lt_irrefl mx)⟩
    · exact ⟨_, b, he, hl.1, hsr.mapsInto_out hmap, fun _ _ => ⟨rfl, hl⟩⟩

/-- **`SlopeInterArrayWriter(array, out_dtype, calc_scale=True)` under exact arithmetic**, for a
real source and an integer target.  The writer is always built, its slope is nonzero, its
transform maps every finite value into the target, and for floating data with a proper range
its slope is the span slope, the least admissible one. -/
theorem init_exact {array : SourceArray} {out scaler : DType}
    (hs : array.dtype.isInteger = true ∨ array.dtype.kind = 'f') (ho : out.isInt = true)
    (hsr : SharedRangeOk sr scaler out) :
    ∃ w, init (.exact sr) array (some out) true scaler = .ok w ∧ w.slope ≠ 0 ∧
      ∀ mn mx, array.finiteRange = .range mn mx →
        MapsInto out.min out.max mn mx w.slope w.inter ∧
        (array.dtype.kind = 'f' → mn < mx →
          w.slope = (mx - mn) / ((sr scaler out).2 - (sr scaler out).1) ∧
          LeastSlope (Admissible (sr scaler out).1 (sr scaler out).2 mn mx) w.slope) := by
  rw [init_calc _ _ (scalingNeeded_eq hs ho hsr.max_pos)]
  cases hn : needsScaling array out
  case false =>
    exact ⟨_, rfl, one_ne_zero, fun mn mx hr =>
      ⟨mapsInto_of_needsScaling_false hn hr,
        fun hf hlt => absurd hlt (not_lt_of_needsScaling_false hn hr hf)⟩⟩
  case true =>
    obtain ⟨mn, mx, hr, -⟩ := needsScaling_true hn
    obtain ⟨s, b, he, hs0, hmap, hl⟩ :=
      @doScaling_exact sr ⟨⟨⟨array, out⟩, true, scaler, 1, true⟩, 0⟩ mn mx hsr ho hr hn rfl rfl
    refine ⟨⟨⟨⟨array, out⟩, true, scaler, s, true⟩, b⟩, by simp [he], hs0, fun mn' mx' hr' => ?_⟩
    rw [hr] at hr'
    cases hr'
    exact ⟨hmap, hl⟩

end SlopeInterArrayWriter

/-! ## The docstrings' array -/

/-- The array of the `SlopeArrayWriter` docstring, `np.array([0, 254], np.uint8)`. -/
def docArray : SourceArray := .ofInts (.uint 8) 0 254 (by decide) (by decide) (by decide)

/-- `np.array([-1.0, 1.0])`: a floating range that straddles zero. -/
def straddleArray : SourceArray := .ofFloats (-1) 1 (by norm_num)

theorem scalingNeeded_docArray : scalingNeeded docArray (.int 8) = .ok true := by
  have hn : needsScaling docArray (.int 8) = true := by
    simp [needsScaling, docArray, SourceArray.ofInts, DType.min, DType.max]
    norm_num
  exact hn ▸ scalingNeeded_eq (.inl rfl) rfl (by decide)

/-- The docstring's `SlopeArrayWriter(arr, np.int8, calc_scale)`: slope `2.0` once calculated. -/
theorem SlopeArrayWriter.init_docArray (doCalc : Bool) :
    SlopeArrayWriter.init (.exact wholeRange) docArray (some (.int 8)) doCalc (.float 32) =
      .ok ⟨⟨docArray, .int 8⟩, true, .float 32, if doCalc then 2 else 1, doCalc⟩ := by
  cases doCalc
  · simp [SlopeArrayWriter.init, scalingNeeded_docArray]
  · rw [SlopeArrayWriter.init_calc _ _ scalingNeeded_docArray]
    simp [SlopeArrayWriter.doScaling, SlopeArrayWriter.rangeScale, docArray, SourceArray.ofInts,
      DType.min, DType.max, SlopeArrayWriter.setSlope, DType.isInt, wholeRange]
    norm_num

/-- `SlopeInterArrayWriter(arr, np.int8, calc_scale)` on the same array: the span slope
`254 / 255` and the intercept `128 * 254 / 255` once calculated. -/
theorem SlopeInterArrayWriter.init_docArray (doCalc : Bool) :
    SlopeInterArrayWriter.init (.exact wholeRange) docArray (some (.int 8)) doCalc (.float 32) =
      .ok ⟨⟨⟨docArray, .int 8⟩, true, .float 32, if doCalc then 254 / 255 else 1, doCalc⟩,
        if doCalc then 128 * 254 / 255 else 0⟩ := by
  cases doCalc
  · simp [SlopeInterArrayWriter.init, SlopeArrayWriter.init_docArray]
  · rw [SlopeInterArrayWriter.init_calc _ _ scalingNeeded_docArray]
    simp [SlopeInterArrayWriter.doScaling, SlopeInterArrayWriter.rangeScale, docArray,
      SourceArray.ofInts, DType.min, DType.max, SlopeInterArrayWriter.setSlope,
      SlopeInterArrayWriter.setInter, DType.isInt, wholeRange]
    norm_num

end Nibabel.ArrayWriters
