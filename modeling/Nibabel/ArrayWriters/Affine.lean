import Mathlib.Data.Rat.Floor
import Mathlib.Tactic.Linarith

set_option autoImplicit false

/-!
# What a writer's transform is for

A writer stores `round((v - inter) / slope)` for a finite value `v`, and a reader gets back
`stored * slope + inter`.  This module states what a good transform does, independently of how
`arraywriters.py` computes one.

* `MapsInto lo hi mn mx slope inter`: every value of `[mn, mx]` decodes into `[lo, hi]`.  With
  integer bounds, the stored value is then in `[lo, hi]` too (`round_mem`), and it decodes to
  within `|slope| / 2` of `v` (`abs_decode_sub_le`).
* The transforms the writers pick: identity, sign flip, pure offset, a constant array, the span
  slope with its intercept, the one-sided slopes for unsigned targets and the larger of two
  candidate slopes for signed ones.  Each one maps its range in, and each slope is the least
  that does.

Arithmetic is exact, over `ℚ`.
-/

namespace Nibabel.ArrayWriters

/-- Every value of `[mn, mx]` decodes into `[lo, hi]` by `v ↦ (v - inter) / slope`. -/
def MapsInto (lo hi mn mx slope inter : ℚ) : Prop :=
  ∀ v, mn ≤ v → v ≤ mx → lo ≤ (v - inter) / slope ∧ (v - inter) / slope ≤ hi

/-- `slope` is nonzero, admissible, and of least magnitude among the nonzero admissible
slopes. -/
def LeastSlope (ok : ℚ → Prop) (slope : ℚ) : Prop :=
  slope ≠ 0 ∧ ok slope ∧ ∀ s, s ≠ 0 → ok s → |slope| ≤ |s|

theorem MapsInto.mono {lo hi lo' hi' mn mx s b : ℚ} (h : MapsInto lo hi mn mx s b)
    (hlo : lo' ≤ lo) (hhi : hi ≤ hi') : MapsInto lo' hi' mn mx s b := fun v h₁ h₂ =>
  ⟨hlo.trans (h v h₁ h₂).1, (h v h₁ h₂).2.trans hhi⟩

theorem mem_div_iff_of_pos {s : ℚ} (hs : 0 < s) (x lo hi : ℚ) :
    (lo ≤ x / s ∧ x / s ≤ hi) ↔ (lo * s ≤ x ∧ x ≤ hi * s) := by
  rw [le_div_iff₀ hs, div_le_iff₀ hs]

theorem mem_div_iff_of_neg {s : ℚ} (hs : s < 0) (x lo hi : ℚ) :
    (lo ≤ x / s ∧ x / s ≤ hi) ↔ (hi * s ≤ x ∧ x ≤ lo * s) := by
  rw [le_div_iff_of_neg hs, div_le_iff_of_neg hs, And.comm]

/-! ## Storing and decoding -/

/-- A value inside integer bounds rounds to a value inside them. -/
theorem round_mem {lo hi : ℤ} {x : ℚ} (h₁ : (lo : ℚ) ≤ x) (h₂ : x ≤ hi) :
    lo ≤ round x ∧ round x ≤ hi := by
  rw [round_eq]
  exact ⟨Int.le_floor.2 (by linarith), Int.floor_le_iff.2 (by linarith)⟩

/-- Decoding the stored value is off by at most half a slope. -/
theorem abs_decode_sub_le {s b v : ℚ} (hs : s ≠ 0) :
    |(round ((v - b) / s) : ℚ) * s + b - v| ≤ |s| / 2 := by
  set x := (v - b) / s
  have hx : x * s = v - b := div_mul_cancel₀ _ hs
  have e : (round x : ℚ) * s + b - v = ((round x : ℚ) - x) * s := by rw [sub_mul, hx]; ring
  have hr : |(round x : ℚ) - x| ≤ 1 / 2 := by rw [abs_sub_comm]; exact abs_sub_round x
  rw [e, abs_mul]
  calc |(round x : ℚ) - x| * |s| ≤ 1 / 2 * |s| := mul_le_mul_of_nonneg_right hr (abs_nonneg s)
    _ = |s| / 2 := by ring

/-- Every value of `[mn, mx]` is stored as an integer of `[lo, hi]` and decodes to within half
a slope of itself. -/
def RoundTrips (lo hi : ℤ) (mn mx slope inter : ℚ) : Prop :=
  ∀ v, mn ≤ v → v ≤ mx →
    lo ≤ round ((v - inter) / slope) ∧ round ((v - inter) / slope) ≤ hi ∧
      |(round ((v - inter) / slope) : ℚ) * slope + inter - v| ≤ |slope| / 2

/-- A transform that maps a range into integer bounds stores and decodes it faithfully. -/
theorem MapsInto.roundTrips {lo hi : ℤ} {mn mx s b : ℚ} (h : MapsInto lo hi mn mx s b)
    (hs : s ≠ 0) : RoundTrips lo hi mn mx s b := fun v h₁ h₂ =>
  ⟨(round_mem (h v h₁ h₂).1 (h v h₁ h₂).2).1, (round_mem (h v h₁ h₂).1 (h v h₁ h₂).2).2,
    abs_decode_sub_le hs⟩

/-! ## The transforms the writers choose -/

theorem mapsInto_one_zero {lo hi mn mx : ℚ} (h : ∀ v, mn ≤ v → v ≤ mx → lo ≤ v ∧ v ≤ hi) :
    MapsInto lo hi mn mx 1 0 := by
  simpa [MapsInto] using h

/-- The sign flip `slope = -1` maps a non-positive range with `-mn ≤ hi` in. -/
theorem mapsInto_signFlip {lo hi mn mx : ℚ} (hmx : mx ≤ 0) (hmn : -mn ≤ hi) (hlo : lo ≤ 0) :
    MapsInto lo hi mn mx (-1) 0 := fun v h₁ h₂ => by
  simp only [sub_zero, div_neg, div_one, neg_neg]
  constructor <;> linarith

/-- The pure offset `inter = mn` maps a range of span at most `hi` in. -/
theorem mapsInto_offset {lo hi mn mx : ℚ} (hspan : mx - mn ≤ hi) (hlo : lo ≤ 0) :
    MapsInto lo hi mn mx 1 mn := fun v h₁ h₂ => by
  simp only [div_one]
  constructor <;> linarith

/-- A constant array decodes to zero with `inter = mn`, whatever the slope. -/
theorem mapsInto_const {lo hi mn s : ℚ} (hlo : lo ≤ 0) (hhi : 0 ≤ hi) :
    MapsInto lo hi mn mn s mn := fun v h₁ h₂ => by
  rw [le_antisymm h₂ h₁, sub_self, zero_div]
  exact ⟨hlo, hhi⟩

/-- The span slope of `SlopeInterArrayWriter._range_scale`, with its intercept. -/
theorem mapsInto_span {smin smax mn mx : ℚ} (hs : smin < smax) (hm : mn < mx) :
    MapsInto smin smax mn mx ((mx - mn) / (smax - smin))
      (mn - smin * ((mx - mn) / (smax - smin))) := fun v h₁ h₂ => by
  have hpos : 0 < (mx - mn) / (smax - smin) := div_pos (by linarith) (by linarith)
  have hk : (smax - smin) * ((mx - mn) / (smax - smin)) = mx - mn :=
    mul_div_cancel₀ _ (by linarith)
  rw [mem_div_iff_of_pos hpos]
  constructor <;> linarith

/-- The one-sided slope `mn / smax` for a non-positive range and an unsigned target. -/
theorem mapsInto_div_nonpos {smax mn mx : ℚ} (hsmax : 0 < smax) (hmn : mn < 0) (hmx : mx ≤ 0) :
    MapsInto 0 smax mn mx (mn / smax) 0 := fun v h₁ h₂ => by
  have hk : smax * (mn / smax) = mn := mul_div_cancel₀ _ hsmax.ne'
  rw [sub_zero, mem_div_iff_of_neg (div_neg_of_neg_of_pos hmn hsmax), hk]
  constructor <;> linarith

/-- The one-sided slope `mx / smax` for a non-negative range and an unsigned target. -/
theorem mapsInto_div_pos {smax mn mx : ℚ} (hsmax : 0 < smax) (hmn : 0 ≤ mn) (hmx : 0 < mx) :
    MapsInto 0 smax mn mx (mx / smax) 0 := fun v h₁ h₂ => by
  have hk : smax * (mx / smax) = mx := mul_div_cancel₀ _ hsmax.ne'
  rw [sub_zero, mem_div_iff_of_pos (div_pos hmx hsmax), hk]
  constructor <;> linarith

/-- The larger of `mx / smax` and `mn / smin` is positive unless the range is `[0, 0]`. -/
theorem maxSlope_pos {smin smax mn mx : ℚ} (hsmin : smin < 0) (hsmax : 0 < smax) (hm : mn ≤ mx)
    (h0 : ¬(mn = 0 ∧ mx = 0)) : 0 < max (mx / smax) (mn / smin) := by
  rcases lt_or_le mn 0 with hmn | hmn
  · exact lt_max_of_lt_right (div_pos_of_neg_of_neg hmn hsmin)
  · have hmx : 0 < mx := lt_of_le_of_ne (hmn.trans hm) fun h => h0 ⟨by linarith, h.symm⟩
    exact lt_max_of_lt_left (div_pos hmx hsmax)

/-- The slope of `SlopeArrayWriter._range_scale` for a signed target. -/
theorem mapsInto_maxSlope {smin smax mn mx : ℚ} (hsmin : smin < 0) (hsmax : 0 < smax)
    (hm : mn ≤ mx) (h0 : ¬(mn = 0 ∧ mx = 0)) :
    MapsInto smin smax mn mx (max (mx / smax) (mn / smin)) 0 := fun v h₁ h₂ => by
  have hpos := maxSlope_pos hsmin hsmax hm h0
  have hmx : mx ≤ smax * max (mx / smax) (mn / smin) := by
    rw [← div_le_iff₀' hsmax]; exact le_max_left _ _
  have hmn : smin * max (mx / smax) (mn / smin) ≤ mn := by
    rw [← div_le_iff_of_neg' hsmin]; exact le_max_right _ _
  rw [sub_zero, mem_div_iff_of_pos hpos]
  constructor <;> linarith

/-! ## No smaller slope fits -/

/-- Any admissible slope spreads `[mn, mx]` over at most `[lo, hi]`. -/
theorem sub_le_mul_abs {lo hi mn mx s b : ℚ} (hs : s ≠ 0) (hm : mn ≤ mx)
    (h : MapsInto lo hi mn mx s b) : mx - mn ≤ (hi - lo) * |s| := by
  obtain ⟨h₁, h₂⟩ := h mn le_rfl hm
  obtain ⟨h₃, h₄⟩ := h mx hm le_rfl
  have e : mx - mn = ((mx - b) / s - (mn - b) / s) * s := by
    rw [← sub_div, div_mul_cancel₀ _ hs]; ring
  have hd : |(mx - b) / s - (mn - b) / s| ≤ hi - lo := abs_sub_le_iff.2 ⟨by linarith, by linarith⟩
  calc mx - mn ≤ |mx - mn| := le_abs_self _
    _ = |(mx - b) / s - (mn - b) / s| * |s| := by rw [e, abs_mul]
    _ ≤ (hi - lo) * |s| := mul_le_mul_of_nonneg_right hd (abs_nonneg s)

/-- The span slope is the least slope that admits some intercept. -/
theorem span_le_abs {smin smax mn mx s b : ℚ} (hs : s ≠ 0) (hsr : smin < smax) (hm : mn ≤ mx)
    (h : MapsInto smin smax mn mx s b) : (mx - mn) / (smax - smin) ≤ |s| := by
  rw [div_le_iff₀' (by linarith)]
  exact sub_le_mul_abs hs hm h

/-- No slope alone maps a range that straddles zero onto an unsigned range. -/
theorem not_mapsInto_straddle {hi mn mx s : ℚ} (hs : s ≠ 0) (hmn : mn < 0) (hmx : 0 < mx) :
    ¬MapsInto 0 hi mn mx s 0 := fun h => by
  have h₁ := (h mn le_rfl (by linarith)).1
  have h₃ := (h mx (by linarith) le_rfl).1
  rw [sub_zero] at h₁ h₃
  rcases hs.lt_or_lt with hneg | hpos
  · exact absurd h₃ (not_le.2 (div_neg_of_pos_of_neg hmx hneg))
  · exact absurd h₁ (not_le.2 (div_neg_of_neg_of_pos hmn hpos))

/-- For a non-positive range, `mn / smax` is the least slope onto `[0, smax]`. -/
theorem abs_div_nonpos_le {smax mn mx s : ℚ} (hsmax : 0 < smax) (hs : s ≠ 0) (hmn : mn < 0)
    (hm : mn ≤ mx) (h : MapsInto 0 smax mn mx s 0) : |mn / smax| ≤ |s| := by
  obtain ⟨h₁, h₂⟩ := h mn le_rfl hm
  rw [sub_zero] at h₁ h₂
  have hneg : s < 0 := hs.lt_or_lt.resolve_right fun hpos =>
    absurd h₁ (not_le.2 (div_neg_of_neg_of_pos hmn hpos))
  rw [div_le_iff_of_neg hneg] at h₂
  rw [abs_of_neg (div_neg_of_neg_of_pos hmn hsmax), abs_of_neg hneg, neg_le_neg_iff,
    le_div_iff₀ hsmax]
  linarith [mul_comm s smax]

/-- For a positive maximum, `mx / smax` is the least slope onto `[0, smax]`. -/
theorem div_pos_le_abs {smax mn mx s : ℚ} (hsmax : 0 < smax) (hs : s ≠ 0) (hmx : 0 < mx)
    (hm : mn ≤ mx) (h : MapsInto 0 smax mn mx s 0) : |mx / smax| ≤ |s| := by
  obtain ⟨h₁, h₂⟩ := h mx hm le_rfl
  rw [sub_zero] at h₁ h₂
  have hpos : 0 < s := hs.lt_or_lt.resolve_left fun hneg =>
    absurd h₁ (not_le.2 (div_neg_of_pos_of_neg hmx hneg))
  rw [div_le_iff₀ hpos] at h₂
  rw [abs_of_pos (div_pos hmx hsmax), abs_of_pos hpos, div_le_iff₀ hsmax]
  linarith [mul_comm s smax]

/-- Over positive slopes, the larger of `mx / smax` and `mn / smin` is the least onto
`[smin, smax]`. -/
theorem maxSlope_le {smin smax mn mx s : ℚ} (hsmin : smin < 0) (hsmax : 0 < smax) (hs : 0 < s)
    (hm : mn ≤ mx) (h : MapsInto smin smax mn mx s 0) : max (mx / smax) (mn / smin) ≤ s := by
  have h₁ := (h mn le_rfl hm).1
  have h₂ := (h mx hm le_rfl).2
  rw [sub_zero, le_div_iff₀ hs] at h₁
  rw [sub_zero, div_le_iff₀ hs] at h₂
  refine max_le ?_ ?_
  · rw [div_le_iff₀ hsmax]; linarith [mul_comm s smax]
  · rw [div_le_iff_of_neg hsmin]; linarith [mul_comm s smin]

end Nibabel.ArrayWriters
