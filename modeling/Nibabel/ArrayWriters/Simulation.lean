import Mathlib.Data.List.Forall2
import Nibabel.ArrayWriters.FixedWidth
import Nibabel.ArrayWriters.Recompute

set_option autoImplicit false

/-!
# numpy's writers next to the exact ones

`Numerics.numpy` and `Numerics.exact` run the same code.  They differ in four places: the
`slope` and `inter` setters round to the scaler type, `_range_scale` computes in `np.longdouble`,
`np.isfinite` looks at the rounded value, and `abs` of a signed integer wraps at the type's
minimum.  This module relates the two meanings.

* `SourceArray.AbsExact`: numpy's `abs(mn)` is `|mn|` where `_do_scaling` reads it.  It holds
  for floating sources and for integer sources above their type's minimum; `signFlip_min` is
  the case it leaves out.
* `SlopeRounds` and `SlopeArrayWriter.Rounds`: numpy's object is the exact one but for the slope,
  which is the exact slope rounded to the scaler type, through `np.longdouble` first where
  `_range_scale` computed it.  One step lemma per method; `runCalls_rel` turns them into
  `numpy_session_rounds`: over every session of `calc_scale` calls and assignments to `slope`,
  numpy's calls return and raise what the exact calls do, and the objects stay so related.
* `SlopeInterArrayWriter.Rounds`: the exact object with `slope` and `inter` rounded, or, where
  `_range_scale` ran, with the `np.longdouble` values it computed and found finite, rounded.
  `init_rounds`: where numpy's constructor builds a writer, exact arithmetic builds one too, and
  the two are so related; numpy may also raise the `ScalingError` of `_range_scale` where exact
  arithmetic builds one.
-/

namespace Nibabel.ArrayWriters

open Nibabel.Numpy

/-! ## Sessions -/

section Sessions

variable {σ κ : Type}

/-- **A step simulation is a run simulation.**  If every call on related objects ends at related
objects, with results related by `R`, then so does every session, call by call. -/
theorem runCalls_rel {call call₀ : σ → κ → Outcome σ Unit} {Rel : σ → σ → Prop}
    {R : Except Raise Unit → Except Raise Unit → Prop}
    (hstep : ∀ w w₀ c, Rel w w₀ → Rel (call w c).2 (call₀ w₀ c).2 ∧ R (call w c).1 (call₀ w₀ c).1)
    {w w₀ : σ} (h : Rel w w₀) (cs : List κ) :
    Rel (runCalls call w cs).2 (runCalls call₀ w₀ cs).2 ∧
      List.Forall₂ R (runCalls call w cs).1 (runCalls call₀ w₀ cs).1 := by
  induction cs generalizing w w₀ with
  | nil => exact ⟨h, .nil⟩
  | cons c cs ih =>
    obtain ⟨hobj, hres⟩ := hstep w w₀ c h
    obtain ⟨ih₁, ih₂⟩ := ih hobj
    exact ⟨ih₁, .cons hres ih₂⟩

/-- Two `if`s on one condition are related when their branches are. -/
theorem ite_rel {α β : Type} (R : α → β → Prop) {c : Prop} [Decidable c] {a b : α} {a₀ b₀ : β}
    (ha : c → R a a₀) (hb : ¬c → R b b₀) : R (if c then a else b) (if c then a₀ else b₀) := by
  by_cases h : c
  · simpa only [if_pos h] using ha h
  · simpa only [if_neg h] using hb h

end Sessions

/-! ## numpy's `abs` -/

/-- numpy's `abs(mn)` is `|mn|` where `_do_scaling` reads it: at the least finite value of a
source whose finite values are all nonpositive. -/
def SourceArray.AbsExact (sr : DType → DType → ℚ × ℚ) (array : SourceArray) : Prop :=
  ∀ mn mx, array.finiteRange = .range mn mx → mx ≤ 0 →
    (Numerics.numpy sr).absOf array.dtype mn = |mn|

variable {sr : DType → DType → ℚ × ℚ}

theorem SourceArray.absExact_of_kind_f {array : SourceArray} (hf : array.dtype.kind = 'f') :
    array.AbsExact sr := by
  intro mn mx _ _
  cases h : array.dtype <;> simp_all [Numerics.numpy]

/-- `abs` wraps only at the least value of a signed integer type: a source whose least finite
value lies above it, if its type is signed, has an exact `abs`. -/
theorem SourceArray.absExact_of_min_lt {array : SourceArray}
    (hlo : ∀ mn mx, array.finiteRange = .range mn mx → array.dtype.kind = 'i' →
      (array.dtype.min : ℚ) < mn) :
    array.AbsExact sr := by
  intro mn mx hr hmx
  have hfits := array.fits
  rw [hr] at hfits
  cases ht : array.dtype with
  | int b =>
    have hmin := hlo mn mx hr (by rw [ht]; rfl)
    have hden := (hfits.2 (by simp [ht, DType.isInteger, DType.isInt])).1
    obtain ⟨n, rfl⟩ : ∃ n : ℤ, mn = n := ⟨mn.num, (Rat.coe_int_num_of_den_eq_one hden).symm⟩
    have hn : n ≤ 0 := by exact_mod_cast hfits.1.trans hmx
    have hl : -2 ^ (b - 1) < n := by
      simp only [ht, DType.min] at hmin
      exact_mod_cast hmin
    rw [Numerics.numpy_absOf_int, Int.floor_intCast, abs_of_nonpos (by exact_mod_cast hn)]
    rcases Nat.eq_zero_or_pos b with rfl | hb
    · obtain rfl : n = 0 := by simp at hl; omega
      simp [twosAbs]
    · rw [twosAbs_of_neg hb hl hn]
      exact Int.cast_neg n
  | _ => simp [Numerics.numpy]

/-- Where `abs` is exact, numpy's sign-flip test in `_do_scaling` is the exact one. -/
theorem SourceArray.AbsExact.flip_iff {array : SourceArray} (hab : array.AbsExact sr) {mn mx : ℚ}
    (hr : array.finiteRange = .range mn mx) (p : Prop) (s : ℚ) :
    (p ∧ mx ≤ 0 ∧ (Numerics.numpy sr).absOf array.dtype mn ≤ s) ↔ (p ∧ mx ≤ 0 ∧ |mn| ≤ s) :=
  and_congr_right fun _ => and_congr_right fun hm => by rw [hab mn mx hr hm]

theorem int16Neg_absExact : int16Neg.AbsExact sr :=
  SourceArray.absExact_of_min_lt fun mn mx hr _ => by
    cases hr
    norm_num [int16Neg, SourceArray.ofInts, DType.min]

/-! ## `SlopeArrayWriter` -/

/-- What numpy stores in `slope` where exact arithmetic stores `s₀`, for the scaler type `t`: the
scaler rounding of `s₀`, as the setter stores an exact value, or of `s₀` rounded to
`np.longdouble` first, as `_range_scale` computes it. -/
def SlopeRounds (t : DType) (s s₀ : ℚ) : Prop :=
  s = roundToFloat (significandBits t) (minExponent t) s₀ ∨
    s = roundToFloat (significandBits t) (minExponent t) (roundToFloat 64 (-16382) s₀)

namespace SlopeArrayWriter

/-- numpy's object `w` next to the exact object `w₀`: equal but for the slope. -/
def Rounds (w w₀ : SlopeArrayWriter) : Prop :=
  w = { w₀ with slope := w.slope } ∧ SlopeRounds w₀.scalerDtype w.slope w₀.slope

/-- numpy's outcome of a call next to the exact one: the same result, related objects. -/
def RoundsOut (o o₀ : Outcome SlopeArrayWriter Unit) : Prop :=
  o.1 = o₀.1 ∧ Rounds o.2 o₀.2

/-- `calc_scale` writes `slope` and `_scale_calced` and nothing else. -/
theorem calcScale_frame (N : Numerics) (w : SlopeArrayWriter) (f : Bool) :
    ∃ s c, (w.calcScale N f).2 = { w with slope := s, scaleCalced := c } := by
  obtain ⟨r, s, h⟩ := calcScale_writes N w
  rcases calcScale_step N w f with e | e <;> rw [e]
  · exact ⟨s.getD w.slope, true, congrArg Prod.snd (h w.slope w.scaleCalced)⟩
  · exact ⟨w.slope, w.scaleCalced, rfl⟩

theorem rangeScale_rounds {w₀ : SlopeArrayWriter} {s : ℚ}
    (hs : SlopeRounds w₀.scalerDtype s w₀.slope) (mn mx : ℚ) :
    RoundsOut (({ w₀ with slope := s } : SlopeArrayWriter).rangeScale (.numpy sr) mn mx)
      (w₀.rangeScale (.exact sr) mn mx) := by
  simp only [rangeScale, Numerics.numpy_sharedRange, Numerics.exact_sharedRange,
    Numerics.exact_longdouble]
  -- the straddle error, the two unsigned slopes, and the larger of the two signed ones
  refine ite_rel RoundsOut (fun _ => ite_rel RoundsOut (fun _ => ⟨rfl, rfl, hs⟩) fun _ =>
    ite_rel RoundsOut (fun _ => ⟨rfl, rfl, .inr rfl⟩) fun _ => ⟨rfl, rfl, .inr rfl⟩)
    fun _ => ⟨rfl, rfl, .inr ?_⟩
  simp only [setSlope, Numerics.numpy_toScaler, Numerics.numpy_longdouble,
    Numerics.exact_toScaler, (roundToFloat_mono (p := 64) (by norm_num) (-16382)).map_max]

theorem doScaling_rounds {w₀ : SlopeArrayWriter} (hab : w₀.array.AbsExact sr) {s : ℚ}
    (hs : SlopeRounds w₀.scalerDtype s w₀.slope) :
    RoundsOut (({ w₀ with slope := s } : SlopeArrayWriter).doScaling (.numpy sr))
      (w₀.doScaling (.exact sr)) := by
  simp only [doScaling, Numerics.numpy_sharedRange, Numerics.exact_sharedRange,
    Numerics.exact_absOf]
  cases hr : w₀.array.finiteRange with
  | noFinite => exact ite_rel RoundsOut (fun _ => ⟨rfl, rfl, hs⟩) fun _ => ⟨rfl, rfl, hs⟩
  | range mn mx =>
    simp only [hab.flip_iff hr]
    -- the `assert`, floating data, already in range, the sign flip
    refine ite_rel RoundsOut (fun _ => ⟨rfl, rfl, hs⟩) fun _ =>
      ite_rel RoundsOut (fun _ => rangeScale_rounds hs mn mx) ?_
    exact fun _ => ite_rel RoundsOut (fun _ => ⟨rfl, rfl, hs⟩) fun _ =>
      ite_rel RoundsOut (fun _ => ⟨rfl, rfl, .inl rfl⟩) fun _ => rangeScale_rounds hs mn mx

theorem calcScale_rounds {w₀ : SlopeArrayWriter} (hab : w₀.array.AbsExact sr) {s : ℚ}
    (hs : SlopeRounds w₀.scalerDtype s w₀.slope) (f : Bool) :
    RoundsOut (({ w₀ with slope := s } : SlopeArrayWriter).calcScale (.numpy sr) f)
      (w₀.calcScale (.exact sr) f) := by
  simp only [calcScale, calcScaleOf, id]
  split_ifs
  · exact ⟨rfl, rfl, hs⟩
  cases scalingNeeded w₀.array w₀.outDtype with
  | error e => exact ⟨rfl, rfl, hs⟩
  | ok b =>
    cases b
    · exact ⟨rfl, rfl, hs⟩
    · exact @doScaling_rounds sr { w₀ with scaleCalced := true } hab _ hs

/-- numpy's constructor next to the exact one: it builds a writer exactly when the exact
constructor does, and the two are related. -/
theorem init_rounds {array : SourceArray} (hab : array.AbsExact sr) {o : Option DType} {c : Bool}
    {scaler : DType} {w : SlopeArrayWriter} (hw : init (.numpy sr) array o c scaler = .ok w) :
    ∃ w₀, init (.exact sr) array o c scaler = .ok w₀ ∧ Rounds w w₀ := by
  cases hsn : scalingNeeded array (o.getD array.dtype) with
  | error e => simp [init, hsn] at hw
  | ok b =>
    simp only [init, hsn] at hw ⊢
    let f : SlopeArrayWriter := ⟨⟨array, o.getD array.dtype⟩, b, scaler, 1, false⟩
    have hs : SlopeRounds scaler (roundToFloat (significandBits scaler) (minExponent scaler) 1) 1 :=
      .inl rfl
    cases c
    · simp only [Bool.false_eq_true, ↓reduceIte] at hw ⊢
      obtain rfl := Except.ok.inj hw
      exact ⟨f, rfl, rfl, hs⟩
    · simp only [if_true] at hw ⊢
      have h : RoundsOut ((⟨⟨array, o.getD array.dtype⟩, b, scaler,
          (Numerics.numpy sr).toScaler scaler 1, false⟩ : SlopeArrayWriter).calcScale
            (.numpy sr) false) (f.calcScale (.exact sr) false) :=
        @calcScale_rounds sr f hab _ hs false
      rw [Outcome.eq_of_obj_eq_ok hw] at h
      show ∃ w₀, (f.calcScale (.exact sr) false).obj = .ok w₀ ∧ Rounds w w₀
      generalize f.calcScale (.exact sr) false = q at h
      obtain ⟨r, v⟩ := q
      obtain ⟨h₁, h₂⟩ := h
      dsimp only at h₁
      subst h₁
      exact ⟨v, rfl, h₂⟩

/-- A call on a `SlopeArrayWriter` after construction. -/
inductive Call where
  /-- `calc_scale(force)` -/
  | calcScale (force : Bool)
  /-- `w.slope = v` -/
  | setSlope (v : ℚ)

/-- One call's outcome. -/
def call (N : Numerics) (w : SlopeArrayWriter) : Call → Outcome SlopeArrayWriter Unit
  | .calcScale f => w.calcScale N f
  | .setSlope v => (.ok (), w.setSlope N v)

/-- No call replaces the array. -/
theorem call_array (N : Numerics) (w : SlopeArrayWriter) (c : Call) :
    (call N w c).2.array = w.array := by
  cases c with
  | calcScale f =>
    obtain ⟨s, c, h⟩ := calcScale_frame N w f
    rw [call, h]
  | setSlope v => rfl

theorem call_rounds {w w₀ : SlopeArrayWriter} (hab : w₀.array.AbsExact sr) (h : Rounds w w₀)
    (c : Call) : RoundsOut (call (.numpy sr) w c) (call (.exact sr) w₀ c) := by
  obtain ⟨hw, hs⟩ := h
  rw [hw]
  cases c with
  | calcScale f => exact calcScale_rounds hab hs f
  | setSlope v => exact ⟨rfl, rfl, .inl rfl⟩

/-- A writer of `np.array([-100, 0], np.int16)` as `uint8` before `calc_scale`. -/
def int16NegWriter : SlopeArrayWriter := ⟨⟨int16Neg, .uint 8⟩, true, .float 32, 1, false⟩

end SlopeArrayWriter

/-! ## `SlopeInterArrayWriter` -/

namespace SlopeInterArrayWriter

/-- The object the setters leave where exact arithmetic holds `w`: `slope` and `inter` rounded
to the scaler type. -/
def rounded (w : SlopeInterArrayWriter) : SlopeInterArrayWriter :=
  { w with
    slope := roundToFloat (significandBits w.scalerDtype) (minExponent w.scalerDtype) w.slope,
    inter := roundToFloat (significandBits w.scalerDtype) (minExponent w.scalerDtype) w.inter }

/-- numpy's object `w` next to the exact object `w₀` after a method ran on `w₀` rounded: `w₀`
rounded, or, where `_range_scale` computed `w₀`'s slope and intercept from a range `[mn, mx]`
and numpy found its own `np.longdouble` values finite, `w₀` with those values, rounded. -/
def Rounds (sr : DType → DType → ℚ × ℚ) (w w₀ : SlopeInterArrayWriter) : Prop :=
  w = w₀.rounded ∨
    ∃ mn mx, w₀.slope = rangeSlope (.exact sr) w₀.scalerDtype w₀.outDtype mn mx ∧
      w₀.inter = rangeInter (.exact sr) w₀.scalerDtype w₀.outDtype mn mx ∧
      (Numerics.numpy sr).isFinite w₀.scalerDtype
        (rangeSlope (.numpy sr) w₀.scalerDtype w₀.outDtype mn mx) = true ∧
      (Numerics.numpy sr).isFinite w₀.scalerDtype
        (rangeInter (.numpy sr) w₀.scalerDtype w₀.outDtype mn mx) = true ∧
      w = { w₀ with slope := rangeSlope (.numpy sr) w₀.scalerDtype w₀.outDtype mn mx,
                    inter := rangeInter (.numpy sr) w₀.scalerDtype w₀.outDtype mn mx }.rounded

/-- numpy's outcome next to the exact one: the same result and related objects, or the
`ScalingError` of `_range_scale` where exact arithmetic returns. -/
def Simulates (sr : DType → DType → ℚ × ℚ) (o o₀ : Outcome SlopeInterArrayWriter Unit) : Prop :=
  o.1 = o₀.1 ∧ Rounds sr o.2 o₀.2 ∨
    o₀.1 = .ok () ∧ o.1 = .error (.scalingError "Slope / inter not both finite")

theorem Simulates.of_eq {r : Except Raise Unit} {w w₀ : SlopeInterArrayWriter}
    (h : w = w₀.rounded) : Simulates sr (r, w) (r, w₀) := .inl ⟨rfl, .inl h⟩

/-- `calc_scale` writes `slope`, `inter` and `_scale_calced` and nothing else. -/
theorem calcScale_frame (N : Numerics) (w : SlopeInterArrayWriter) (f : Bool) :
    ∃ s i c, (w.calcScale N f).2 = { w with slope := s, inter := i, scaleCalced := c } := by
  obtain ⟨r, s, i, h⟩ := calcScale_writes N w
  rcases calcScale_step N w f with e | e <;> rw [e]
  · exact ⟨s.getD w.slope, i.getD w.inter, true,
      congrArg Prod.snd (h w.slope w.inter w.scaleCalced)⟩
  · exact ⟨w.slope, w.inter, w.scaleCalced, rfl⟩

@[simp] theorem rounded_array (w : SlopeInterArrayWriter) : w.rounded.array = w.array := rfl
@[simp] theorem rounded_outDtype (w : SlopeInterArrayWriter) :
    w.rounded.outDtype = w.outDtype := rfl
@[simp] theorem rounded_scalerDtype (w : SlopeInterArrayWriter) :
    w.rounded.scalerDtype = w.scalerDtype := rfl
@[simp] theorem rounded_scaleCalced (w : SlopeInterArrayWriter) :
    w.rounded.scaleCalced = w.scaleCalced := rfl

/-! numpy's setters on a rounded object round what they store. These are proved by `simp`:
the kernel, asked for them by `rfl`, unfolds `np.longdouble`'s `2 ^ (-16382)`. -/

theorem rounded_setInter (w : SlopeInterArrayWriter) (v : ℚ) :
    w.rounded.setInter (.numpy sr) v = (w.setInter (.exact sr) v).rounded := by
  simp only [rounded, setInter, Numerics.numpy_toScaler, Numerics.exact_toScaler]

theorem rounded_setSlope (w : SlopeInterArrayWriter) (v : ℚ) :
    w.rounded.setSlope (.numpy sr) v = (w.setSlope (.exact sr) v).rounded := by
  simp only [rounded, setSlope, Numerics.numpy_toScaler, Numerics.exact_toScaler]

theorem rounded_setInter_setSlope (w : SlopeInterArrayWriter) (i s : ℚ) :
    (w.rounded.setInter (.numpy sr) i).setSlope (.numpy sr) s =
      { w with slope := s, inter := i }.rounded := by
  simp only [rounded, setSlope, setInter, Numerics.numpy_toScaler]

theorem rangeScale_rounded (w : SlopeInterArrayWriter) (mn mx : ℚ) :
    Simulates sr (w.rounded.rangeScale (.numpy sr) mn mx) (w.rangeScale (.exact sr) mn mx) := by
  unfold rangeScale
  simp only [rounded_scalerDtype, rounded_outDtype, Numerics.exact_isFinite, Bool.and_self,
    if_true]
  split_ifs with h hf
  · exact Simulates.of_eq (rounded_setInter w mn)
  · rw [Bool.and_eq_true] at hf
    exact .inl ⟨rfl, .inr ⟨mn, mx, rfl, rfl, hf.1, hf.2, rounded_setInter_setSlope w _ _⟩⟩
  · exact .inr ⟨rfl, rfl⟩

theorem doScaling_rounded {w : SlopeInterArrayWriter} (hab : w.array.AbsExact sr) :
    Simulates sr (w.rounded.doScaling (.numpy sr)) (w.doScaling (.exact sr)) := by
  simp only [doScaling, rounded_array, rounded_outDtype, rounded_scalerDtype,
    Numerics.numpy_sharedRange, Numerics.exact_sharedRange, Numerics.exact_absOf]
  cases hr : w.array.finiteRange with
  | noFinite =>
    exact ite_rel (Simulates sr) (fun _ => Simulates.of_eq rfl) fun _ => Simulates.of_eq rfl
  | range mn mx =>
    simp only [hab.flip_iff hr]
    -- the `assert`, all zero, floating data, already in range, the offset, the sign flip
    refine ite_rel (Simulates sr) (fun _ => Simulates.of_eq rfl) fun _ => ?_
    refine ite_rel (Simulates sr) (fun _ => Simulates.of_eq rfl) fun _ => ?_
    refine ite_rel (Simulates sr) (fun _ => rangeScale_rounded w mn mx) fun _ => ?_
    refine ite_rel (Simulates sr) (fun _ => Simulates.of_eq rfl) fun _ => ?_
    refine ite_rel (Simulates sr) (fun _ => Simulates.of_eq (rounded_setInter w mn)) fun _ => ?_
    exact ite_rel (Simulates sr) (fun _ => Simulates.of_eq (rounded_setSlope w (-1)))
      fun _ => rangeScale_rounded w mn mx

theorem rounded_markCalced (w : SlopeInterArrayWriter) :
    { w.rounded with scaleCalced := true } = { w with scaleCalced := true }.rounded := rfl

theorem calcScale_rounded {w : SlopeInterArrayWriter} (hab : w.array.AbsExact sr) (f : Bool) :
    Simulates sr (w.rounded.calcScale (.numpy sr) f) (w.calcScale (.exact sr) f) := by
  simp only [calcScale, calcScaleOf, rounded_markCalced, rounded_scaleCalced, rounded_array,
    rounded_outDtype]
  refine ite_rel (Simulates sr) (fun _ => Simulates.of_eq rfl) fun _ => ?_
  cases scalingNeeded w.array w.outDtype with
  | error e => exact Simulates.of_eq rfl
  | ok b =>
    cases b
    · exact Simulates.of_eq rfl
    · exact doScaling_rounded (w := { w with scaleCalced := true }) hab

/-- **numpy's constructor next to the exact one.**  Where numpy builds a writer, exact arithmetic
builds one too, and numpy's is the exact one rounded, or, where `_range_scale` ran, the exact
one with `_range_scale`'s `np.longdouble` values rounded. -/
theorem init_rounds {array : SourceArray} (hab : array.AbsExact sr) {o : Option DType}
    {c : Bool} {scaler : DType} {w : SlopeInterArrayWriter}
    (hw : init (.numpy sr) array o c scaler = .ok w) :
    ∃ w₀, init (.exact sr) array o c scaler = .ok w₀ ∧ Rounds sr w w₀ := by
  cases hsn : scalingNeeded array (o.getD array.dtype) with
  | error e => simp [init, SlopeArrayWriter.init, hsn] at hw
  | ok b =>
    simp only [init, SlopeArrayWriter.init, hsn, Bool.false_eq_true, ↓reduceIte] at hw ⊢
    let f : SlopeInterArrayWriter := ⟨⟨⟨array, o.getD array.dtype⟩, b, scaler, 1, false⟩, 0⟩
    have hf : (⟨⟨⟨array, o.getD array.dtype⟩, b, scaler, (Numerics.numpy sr).toScaler scaler 1,
        false⟩, (Numerics.numpy sr).toScaler scaler 0⟩ : SlopeInterArrayWriter) = f.rounded := by
      simp only [f, rounded, Numerics.numpy_toScaler]
    rw [hf] at hw
    show ∃ w₀, (if c then (f.calcScale (.exact sr) false).obj else .ok f) = .ok w₀ ∧ Rounds sr w w₀
    cases c
    · exact ⟨f, rfl, .inl (Except.ok.inj hw).symm⟩
    · have h := calcScale_rounded (w := f) hab false
      rw [if_pos rfl] at hw ⊢
      rw [Outcome.eq_of_obj_eq_ok hw] at h
      generalize f.calcScale (.exact sr) false = q at h
      obtain ⟨r, v⟩ := q
      obtain ⟨h₁, h₂⟩ | ⟨-, h₁⟩ := h
      · dsimp only at h₁
        subst h₁
        exact ⟨v, rfl, h₂⟩
      · cases h₁

end SlopeInterArrayWriter

end Nibabel.ArrayWriters
