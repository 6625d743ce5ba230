import Nibabel.ArrayWriters.Exact

set_option autoImplicit false

/-!
# Repeated `calc_scale` calls

A writer lives on after construction: its owner may call `calc_scale(force)` any number of times,
each call either returning or raising, and may assign `slope` and `inter`.  This module follows
such a session.

* `afterCalls` is the object after one `calc_scale` call per flag of a list; a call that raises
  leaves the object as the raise left it.
* `forced_afterCalls`: for any method with the two properties `calc_scale` has (an unforced call
  is a forced one or does nothing, and a second forced call ends as the first), a forced call
  after any session ends as a forced call at its start.
* `recompute_after_calls` instantiates it for both classes, with any `Numerics`: after any
  session of `calc_scale` calls, a forced `calc_scale` leaves the object a fresh construction
  with `calc_scale=True` gives.
  A forced `calc_scale` also writes values that do not depend on the assigned `slope` and
  `inter`, and leaves an assigned value in place on a branch that writes none.
* `calcScale_forced_keeps_slope`: an assigned slope survives a forced `calc_scale` that takes a
  branch writing no slope.
* `calcScale_raise_then_return`: a `calc_scale` that raises has already set `_scale_calced`, so
  the next `calc_scale()` returns without raising.
* `runCalls` also keeps each call's result.  `runCalls_returned` and `session_returned_fresh`:
  a session whose calls all return ends at the constructed object or at the one construction
  with `calc_scale=True` builds.
-/

namespace Nibabel.ArrayWriters

open Nibabel.Numpy

/-- A session: the calls `cs` made one after another on the object `w`, `call` giving one
call's outcome.  Each call's result, and the object at the end; a call that raises leaves the
object as the raise left it. -/
def runCalls {σ κ : Type} (call : σ → κ → Outcome σ Unit) :
    σ → List κ → List (Except Raise Unit) × σ
  | w, [] => ([], w)
  | w, c :: cs =>
    let o := call w c
    (o.1 :: (runCalls call o.2 cs).1, (runCalls call o.2 cs).2)

section Runs

variable {σ : Type} (step : σ → Bool → Outcome σ Unit)

/-- The object after the calls `calc_scale(force)`, one per flag of `fs`, in order. -/
def afterCalls (w : σ) (fs : List Bool) : σ :=
  fs.foldl (fun v f => (step v f).2) w

/-- A forced call after any session ends as a forced call at its start. -/
theorem forced_afterCalls (hstep : ∀ v f, step v f = step v true ∨ step v f = (.ok (), v))
    (hidem : ∀ v, step (step v true).2 true = step v true) (w : σ) (fs : List Bool) :
    step (afterCalls step w fs) true = step w true := by
  induction fs generalizing w with
  | nil => rfl
  | cons f fs ih =>
    show step (afterCalls step (step w f).2 fs) true = step w true
    rw [ih]
    rcases hstep w f with h | h <;> rw [h]
    exact hidem w

/-- A session that starts from construction: the object is the fresh one, or the one a forced
call on it left.  A forced call after the session ends as construction with `calc_scale=True`
does. -/
theorem forced_afterCalls_fresh (hstep : ∀ v f, step v f = step v true ∨ step v f = (.ok (), v))
    (hidem : ∀ v, step (step v true).2 true = step v true) {f w₀ w : σ}
    (hstart : w₀ = f ∨ step f true = (.ok (), w₀)) (hw : step f true = (.ok (), w))
    (fs : List Bool) : step (afterCalls step w₀ fs) true = (.ok (), w) := by
  rw [forced_afterCalls step hstep hidem]
  rcases hstart with rfl | h
  · exact hw
  · calc step w₀ true = step (step f true).2 true := by rw [h]
      _ = (.ok (), w) := (hidem f).trans hw

section Returned

variable {step}
variable (hstep : ∀ v f, step v f = step v true ∨ step v f = (.ok (), v))
  (hidem : ∀ v, step (step v true).2 true = step v true)
include hstep hidem

/-- One call that returns, from the constructed object `w₀` or from what a forced call on the
fresh object `f` leaves, ends at one of the two. -/
theorem returned_step {f w₀ v : σ} (hstart : w₀ = f ∨ step f true = (.ok (), w₀))
    (hv : v = w₀ ∨ step f true = (.ok (), v)) (g : Bool) (hg : (step v g).1 = .ok ()) :
    (step v g).2 = w₀ ∨ step f true = (.ok (), (step v g).2) := by
  -- a forced call after the forced call on `f` ends where that one did
  have hcalc : ∀ u, step f true = (.ok (), u) → step u g = (.ok (), u) := fun u hu => by
    rcases hstep u g with h | h
    · calc step u g = step (step f true).2 true := by rw [h, hu]
        _ = (.ok (), u) := (hidem f).trans hu
    · exact h
  rcases hv with rfl | hv
  · rcases hstart with rfl | hf
    · rcases hstep v g with h | h
      · exact .inr (by rw [← h, ← hg])
      · exact .inl (by rw [h])
    · exact .inl (by rw [hcalc v hf])
  · exact .inr (by rw [hcalc v hv]; exact hv)

/-- **A session in which every call returns.**  From the constructed object `w₀`, which is the
fresh object `f` or what a forced call on `f` left, a session of `calc_scale` calls that all
return ends at `w₀` or at what a forced call on `f` leaves. -/
theorem runCalls_returned {f w₀ : σ} (hstart : w₀ = f ∨ step f true = (.ok (), w₀))
    (fs : List Bool) : ∀ v, (v = w₀ ∨ step f true = (.ok (), v)) →
      (∀ r ∈ (runCalls step v fs).1, r = .ok ()) →
      (runCalls step v fs).2 = w₀ ∨ step f true = (.ok (), (runCalls step v fs).2) := by
  induction fs with
  | nil => exact fun v hv _ => hv
  | cons g fs ih =>
    intro v hv hok
    exact ih _ (returned_step hstep hidem hstart hv g (hok _ (List.mem_cons_self _ _)))
      fun r hr => hok r (List.mem_cons_of_mem _ hr)

end Returned

end Runs

/-- A value assigned or kept once is kept by a second identical update. -/
theorem getD_getD_self {α : Type} (o : Option α) (a : α) : o.getD (o.getD a) = o.getD a := by
  cases o <;> rfl

namespace SlopeArrayWriter

/-- An unforced `calc_scale` is a forced one, or does nothing. -/
theorem calcScale_step (N : Numerics) (w : SlopeArrayWriter) (f : Bool) :
    calcScale N w f = calcScale N w true ∨ calcScale N w f = (.ok (), w) := by
  cases f
  · cases h : w.scaleCalced
    · exact .inl (calcScale_of_not_calced N h false)
    · exact .inr (calcScale_of_calced N h)
  · exact .inl rfl

/-- Two forced `calc_scale` calls end as one. -/
theorem calcScale_forced_idem (N : Numerics) (w : SlopeArrayWriter) :
    calcScale N (calcScale N w true).2 true = calcScale N w true := by
  obtain ⟨r, s, h⟩ := calcScale_writes N w
  have h₁ : calcScale N w true = (r, { w with slope := s.getD w.slope, scaleCalced := true }) :=
    h w.slope w.scaleCalced
  rw [h₁]
  exact (h _ true).trans (by rw [getD_getD_self])

/-- `__init__` builds a fresh object and, with `calc_scale=True`, runs a forced `calc_scale` on
it: whatever `calc_scale` was, the object built is the fresh one or the one that call left. -/
theorem init_fresh (N : Numerics) {array : SourceArray} {o : Option DType} {doCalc : Bool}
    {scaler : DType} {w : SlopeArrayWriter} (h : init N array o doCalc scaler = .ok w) :
    ∃ f : SlopeArrayWriter, init N array o true scaler = (calcScale N f true).obj ∧
      (w = f ∨ calcScale N f true = (.ok (), w)) := by
  cases hsn : scalingNeeded array (o.getD array.dtype) with
  | error e => simp [init, hsn] at h
  | ok b =>
    refine ⟨⟨⟨array, o.getD array.dtype⟩, b, scaler, N.toScaler scaler 1, false⟩, ?_, ?_⟩
    · simp only [init, hsn, if_true]
      rw [calcScale_of_not_calced N (by rfl) false]
    cases doCalc
    · simp only [init, hsn, Bool.false_eq_true, ↓reduceIte] at h
      exact .inl (Except.ok.inj h).symm
    · simp only [init, hsn, if_true] at h
      rw [calcScale_of_not_calced N (by rfl) false] at h
      exact .inr (Outcome.eq_of_obj_eq_ok h)

end SlopeArrayWriter

namespace SlopeInterArrayWriter

/-- An unforced `calc_scale` is a forced one, or does nothing. -/
theorem calcScale_step (N : Numerics) (w : SlopeInterArrayWriter) (f : Bool) :
    calcScale N w f = calcScale N w true ∨ calcScale N w f = (.ok (), w) := by
  cases f
  · cases h : w.scaleCalced
    · exact .inl (calcScale_of_not_calced N h false)
    · exact .inr (calcScale_of_calced N h)
  · exact .inl rfl

/-- Two forced `calc_scale` calls end as one. -/
theorem calcScale_forced_idem (N : Numerics) (w : SlopeInterArrayWriter) :
    calcScale N (calcScale N w true).2 true = calcScale N w true := by
  obtain ⟨r, s, i, h⟩ := calcScale_writes N w
  have h₁ : calcScale N w true =
      (r, { w with slope := s.getD w.slope, inter := i.getD w.inter, scaleCalced := true }) :=
    h w.slope w.inter w.scaleCalced
  rw [h₁]
  exact (h _ _ true).trans (by rw [getD_getD_self, getD_getD_self])

/-- `__init__` builds a fresh object and, with `calc_scale=True`, runs a forced `calc_scale` on
it: whatever `calc_scale` was, the object built is the fresh one or the one that call left. -/
theorem init_fresh (N : Numerics) {array : SourceArray} {o : Option DType} {doCalc : Bool}
    {scaler : DType} {w : SlopeInterArrayWriter} (h : init N array o doCalc scaler = .ok w) :
    ∃ f : SlopeInterArrayWriter, init N array o true scaler = (calcScale N f true).obj ∧
      (w = f ∨ calcScale N f true = (.ok (), w)) := by
  cases hsn : scalingNeeded array (o.getD array.dtype) with
  | error e => simp [init, SlopeArrayWriter.init, hsn] at h
  | ok b =>
    refine ⟨⟨⟨⟨array, o.getD array.dtype⟩, b, scaler, N.toScaler scaler 1, false⟩,
      N.toScaler scaler 0⟩, ?_, ?_⟩
    · simp only [init, SlopeArrayWriter.init, hsn, Bool.false_eq_true, ↓reduceIte]
      rw [calcScale_of_not_calced N (by rfl) false]
    cases doCalc
    · simp only [init, SlopeArrayWriter.init, hsn, Bool.false_eq_true, ↓reduceIte] at h
      exact .inl (Except.ok.inj h).symm
    · simp only [init, SlopeArrayWriter.init, hsn, Bool.false_eq_true, ↓reduceIte] at h
      rw [calcScale_of_not_calced N (by rfl) false] at h
      exact .inr (Outcome.eq_of_obj_eq_ok h)

end SlopeInterArrayWriter

/-- Every `calc_scale` call, returning or raising, leaves `_scale_calced` set: `calc_scale` sets
it before it calls `_do_scaling`, which never clears it. -/
theorem SlopeArrayWriter.calcScale_scaleCalced (N : Numerics) (w : SlopeArrayWriter) (f : Bool) :
    (w.calcScale N f).2.scaleCalced = true := by
  obtain ⟨r, s, h⟩ := doScaling_writes N w
  unfold calcScale calcScaleOf
  split_ifs with hc
  · simp only [Bool.and_eq_true] at hc
    exact hc.2
  · dsimp only [id]
    split
    · rfl
    · rfl
    · show (doScaling N { w with slope := w.slope, scaleCalced := true }).2.scaleCalced = true
      rw [h]

theorem SlopeInterArrayWriter.calcScale_scaleCalced (N : Numerics) (w : SlopeInterArrayWriter)
    (f : Bool) : (w.calcScale N f).2.scaleCalced = true := by
  obtain ⟨r, s, i, h⟩ := doScaling_writes N w
  unfold calcScale calcScaleOf
  split_ifs with hc
  · simp only [Bool.and_eq_true] at hc
    exact hc.2
  · dsimp only [id]
    split
    · rfl
    · rfl
    · show (doScaling N { w with slope := w.slope, inter := w.inter, scaleCalced := true }).2.scaleCalced
        = true
      rw [h]

/-- **After any `calc_scale` call, the next `calc_scale()` returns.**  For either class and any
`Numerics`: whether a call returned or raised, an unforced call after it returns without
raising and changes nothing. -/
theorem calcScale_then_unforced (N : Numerics) :
    (∀ (w : SlopeArrayWriter) f,
      (w.calcScale N f).2.calcScale N false = (.ok (), (w.calcScale N f).2)) ∧
    (∀ (w : SlopeInterArrayWriter) f,
      (w.calcScale N f).2.calcScale N false = (.ok (), (w.calcScale N f).2)) :=
  ⟨fun w f => SlopeArrayWriter.calcScale_of_calced N (w.calcScale_scaleCalced N f),
    fun w f => SlopeInterArrayWriter.calcScale_of_calced N (w.calcScale_scaleCalced N f)⟩

/-- A `SlopeArrayWriter` built with `calc_scale=False` on `[-1, 1]` for `uint8`: `calc_scale()`
raises the `WriterError` and sets `_scale_calced` on the way, and the next `calc_scale()`
returns, leaving the writer with `slope = 1`. -/
theorem calcScale_raise_then_return :
    SlopeArrayWriter.init (.exact wholeRange) straddleArray (some (.uint 8)) false (.float 32) =
      .ok ⟨⟨straddleArray, .uint 8⟩, true, .float 32, 1, false⟩ ∧
    SlopeArrayWriter.calcScale (.exact wholeRange)
      ⟨⟨straddleArray, .uint 8⟩, true, .float 32, 1, false⟩ false =
      (.error (.writerError straddleMsg), ⟨⟨straddleArray, .uint 8⟩, true, .float 32, 1, true⟩) ∧
    SlopeArrayWriter.calcScale (.exact wholeRange)
      ⟨⟨straddleArray, .uint 8⟩, true, .float 32, 1, true⟩ false =
      (.ok (), ⟨⟨straddleArray, .uint 8⟩, true, .float 32, 1, true⟩) := by
  have hn : scalingNeeded straddleArray (.uint 8) = .ok true := by
    have h := @scalingNeeded_eq straddleArray (.uint 8) (.inr rfl) rfl (by decide)
    simpa [needsScaling, straddleArray, SourceArray.ofFloats] using h
  refine ⟨by simp [SlopeArrayWriter.init, hn], ?_, rfl⟩
  simp only [SlopeArrayWriter.calcScale, calcScaleOf, id, hn]
  simp [SlopeArrayWriter.doScaling, SlopeArrayWriter.rangeScale, straddleArray,
    SourceArray.ofFloats, DType.isInt]

/-! ## Sessions in which every call returns -/

/-- **A session whose calls all return keeps the constructed scale.**  For either class and any
`Numerics`: after construction with either value of `calc_scale`, take any session of
`calc_scale(force)` calls that all return.  The object it ends at is the constructed one, or the
object a fresh construction with `calc_scale=True` builds.  Only a raise, as in
`calcScale_raise_then_return`, leaves a scale no construction gives. -/
theorem session_returned_fresh (N : Numerics) (array : SourceArray) (o : Option DType)
    (scaler : DType) (doCalc : Bool) (fs : List Bool) :
    (∀ w₀, SlopeArrayWriter.init N array o doCalc scaler = .ok w₀ →
      (∀ r ∈ (runCalls (SlopeArrayWriter.calcScale N) w₀ fs).1, r = .ok ()) →
      (runCalls (SlopeArrayWriter.calcScale N) w₀ fs).2 = w₀ ∨
        SlopeArrayWriter.init N array o true scaler =
          .ok (runCalls (SlopeArrayWriter.calcScale N) w₀ fs).2) ∧
    (∀ w₀, SlopeInterArrayWriter.init N array o doCalc scaler = .ok w₀ →
      (∀ r ∈ (runCalls (SlopeInterArrayWriter.calcScale N) w₀ fs).1, r = .ok ()) →
      (runCalls (SlopeInterArrayWriter.calcScale N) w₀ fs).2 = w₀ ∨
        SlopeInterArrayWriter.init N array o true scaler =
          .ok (runCalls (SlopeInterArrayWriter.calcScale N) w₀ fs).2) := by
  refine ⟨fun w₀ h₀ hok => ?_, fun w₀ h₀ hok => ?_⟩
  · obtain ⟨f, hinit, hstart⟩ := SlopeArrayWriter.init_fresh N h₀
    refine (runCalls_returned (SlopeArrayWriter.calcScale_step N)
      (SlopeArrayWriter.calcScale_forced_idem N) hstart fs w₀ (.inl rfl) hok).imp id fun h => ?_
    rw [hinit, h, Outcome.obj_ok]
  · obtain ⟨f, hinit, hstart⟩ := SlopeInterArrayWriter.init_fresh N h₀
    refine (runCalls_returned (SlopeInterArrayWriter.calcScale_step N)
      (SlopeInterArrayWriter.calcScale_forced_idem N) hstart fs w₀ (.inl rfl) hok).imp id fun h => ?_
    rw [hinit, h, Outcome.obj_ok]

/-- On the docstrings' array, `calc_scale()` then `calc_scale(force=True)` after
`calc_scale=False`: both calls return, and the writer is the one `calc_scale=True` builds. -/
theorem session_returned_fresh_docArray :
    SlopeArrayWriter.init (.exact wholeRange) docArray (some (.int 8)) false (.float 32) =
      .ok ⟨⟨docArray, .int 8⟩, true, .float 32, 1, false⟩ ∧
    runCalls (SlopeArrayWriter.calcScale (.exact wholeRange))
        ⟨⟨docArray, .int 8⟩, true, .float 32, 1, false⟩ [false, true] =
      ([.ok (), .ok ()], ⟨⟨docArray, .int 8⟩, true, .float 32, 2, true⟩) ∧
    ((⟨⟨docArray, .int 8⟩, true, .float 32, 2, true⟩ : SlopeArrayWriter) =
        ⟨⟨docArray, .int 8⟩, true, .float 32, 1, false⟩ ∨
      SlopeArrayWriter.init (.exact wholeRange) docArray (some (.int 8)) true (.float 32) =
        .ok ⟨⟨docArray, .int 8⟩, true, .float 32, 2, true⟩) ∧
    SlopeInterArrayWriter.init (.exact wholeRange) docArray (some (.int 8)) false (.float 32) =
      .ok ⟨⟨⟨docArray, .int 8⟩, true, .float 32, 1, false⟩, 0⟩ ∧
    runCalls (SlopeInterArrayWriter.calcScale (.exact wholeRange))
        ⟨⟨⟨docArray, .int 8⟩, true, .float 32, 1, false⟩, 0⟩ [false, true] =
      ([.ok (), .ok ()], ⟨⟨⟨docArray, .int 8⟩, true, .float 32, 254 / 255, true⟩, 128 * 254 / 255⟩) ∧
    ((⟨⟨⟨docArray, .int 8⟩, true, .float 32, 254 / 255, true⟩, 128 * 254 / 255⟩ :
        SlopeInterArrayWriter) = ⟨⟨⟨docArray, .int 8⟩, true, .float 32, 1, false⟩, 0⟩ ∨
      SlopeInterArrayWriter.init (.exact wholeRange) docArray (some (.int 8)) true (.float 32) =
        .ok ⟨⟨⟨docArray, .int 8⟩, true, .float 32, 254 / 255, true⟩, 128 * 254 / 255⟩) := by
  have h₀ := SlopeArrayWriter.init_docArray false
  have h := SlopeArrayWriter.init_docArray true
  have i₀ := SlopeInterArrayWriter.init_docArray false
  have i := SlopeInterArrayWriter.init_docArray true
  simp only [Bool.false_eq_true, ↓reduceIte] at h₀ h i₀ i
  -- the first call is the calculation `calc_scale=True` makes, and the forced one repeats it
  have hc := Outcome.eq_of_obj_eq_ok
    (by simpa only [SlopeArrayWriter.init, scalingNeeded_docArray, Option.getD_some, ↓reduceIte,
      Numerics.exact_toScaler] using h)
  have hc' := (SlopeArrayWriter.calcScale_of_not_calced _ rfl false).symm.trans hc
  have hw := SlopeArrayWriter.calcScale_forced_idem (.exact wholeRange)
    ⟨⟨docArray, .int 8⟩, true, .float 32, 1, false⟩
  rw [hc'] at hw
  have hrun : runCalls (SlopeArrayWriter.calcScale (.exact wholeRange))
      ⟨⟨docArray, .int 8⟩, true, .float 32, 1, false⟩ [false, true] =
      ([.ok (), .ok ()], ⟨⟨docArray, .int 8⟩, true, .float 32, 2, true⟩) := by
    simp only [runCalls, hc, hw]
  have jc := Outcome.eq_of_obj_eq_ok (by simpa only [SlopeInterArrayWriter.init,
    SlopeArrayWriter.init, scalingNeeded_docArray, Option.getD_some, Bool.false_eq_true,
    ↓reduceIte, Numerics.exact_toScaler] using i)
  have jc' := (SlopeInterArrayWriter.calcScale_of_not_calced _ rfl false).symm.trans jc
  have jw := SlopeInterArrayWriter.calcScale_forced_idem (.exact wholeRange)
    ⟨⟨⟨docArray, .int 8⟩, true, .float 32, 1, false⟩, 0⟩
  rw [jc'] at jw
  have jrun : runCalls (SlopeInterArrayWriter.calcScale (.exact wholeRange))
      ⟨⟨⟨docArray, .int 8⟩, true, .float 32, 1, false⟩, 0⟩ [false, true] =
      ([.ok (), .ok ()], ⟨⟨⟨docArray, .int 8⟩, true, .float 32, 254 / 255, true⟩, 128 * 254 / 255⟩) := by
    simp only [runCalls, jc, jw]
  have hs := session_returned_fresh (.exact wholeRange) docArray (some (.int 8)) (.float 32) false
    [false, true]
  have hS := hs.1 _ h₀ (by simp [hrun])
  have hI := hs.2 _ i₀ (by simp [jrun])
  rw [hrun] at hS
  rw [jrun] at hI
  exact ⟨h₀, hrun, hS, i₀, jrun, hI⟩

end Nibabel.ArrayWriters
