import Mathlib.Data.Rat.Floor
import Mathlib.Tactic.Linarith

set_option autoImplicit false

/-!
# Numpy dtypes, as the array writers inspect them

`arraywriters.py` never looks inside a dtype beyond three questions: its `kind` character
(`'b'`, `'u'`, `'i'`, `'f'`, `'c'`, `'V'`), the range `np.iinfo` gives for an integer type, and
whether `np.can_cast` allows a safe cast.  A dtype here is therefore a kind and a width in bits;
byte order, which the writers hand to `array_to_file` untouched, is not modelled.

Widths are arbitrary naturals: numpy's integer types are the widths 8, 16, 32 and 64, and every
result below holds for each width, not only for those four.
-/

namespace Nibabel.Numpy

/-- A numpy dtype, by kind and width in bits. -/
inductive DType where
  | bool
  | uint (bits : Nat)
  | int (bits : Nat)
  | float (bits : Nat)
  | complex (bits : Nat)
  /-- a structured or opaque (`np.void`) type -/
  | void (bits : Nat)
  deriving DecidableEq, Repr, Inhabited

namespace DType

/-- `dtype.kind`. -/
def kind : DType → Char
  | bool => 'b'
  | uint _ => 'u'
  | int _ => 'i'
  | float _ => 'f'
  | complex _ => 'c'
  | void _ => 'V'

/-- `dtype.kind in 'iu'`: the integer types `np.iinfo` describes. -/
def isInt (t : DType) : Bool := t.kind = 'u' || t.kind = 'i'

/-- Integer-valued types: `bool` and the integer types. -/
def isInteger (t : DType) : Bool := t.kind = 'b' || t.isInt

/-- `np.iinfo(t).min` for an integer type (`False` for `bool`). -/
def min : DType → ℤ
  | int b => -2 ^ (b - 1)
  | _ => 0

/-- `np.iinfo(t).max` for an integer type (`True` for `bool`). -/
def max : DType → ℤ
  | bool => 1
  | uint b => 2 ^ b - 1
  | int b => 2 ^ (b - 1) - 1
  | _ => 0

@[simp] theorem kind_uint (b : Nat) : (uint b).kind = 'u' := rfl
@[simp] theorem kind_int (b : Nat) : (int b).kind = 'i' := rfl
@[simp] theorem kind_float (b : Nat) : (float b).kind = 'f' := rfl
@[simp] theorem kind_complex (b : Nat) : (complex b).kind = 'c' := rfl
@[simp] theorem kind_void (b : Nat) : (void b).kind = 'V' := rfl

theorem isInt_iff (t : DType) : t.isInt = true ↔ t.kind = 'u' ∨ t.kind = 'i' := by
  simp [isInt]

theorem isInt_cases {t : DType} (h : t.isInt = true) : (∃ b, t = uint b) ∨ ∃ b, t = int b := by
  cases t <;> simp_all [isInt, kind]

theorem one_le_two_pow (n : Nat) : (1 : ℤ) ≤ 2 ^ n := by
  exact_mod_cast Nat.one_le_two_pow

theorem min_nonpos (t : DType) : t.min ≤ 0 := by
  cases t <;> simp [min]

theorem max_nonneg (t : DType) : 0 ≤ t.max := by
  cases t <;> simp [max, Int.sub_nonneg, one_le_two_pow]

/-- An unsigned type starts at zero. -/
theorem min_eq_zero_of_kind_u {t : DType} (h : t.kind = 'u') : t.min = 0 := by
  cases t <;> simp_all [kind, min]

/-- A signed type reaches below zero. -/
theorem min_neg_of_kind_i {t : DType} (h : t.kind = 'i') : t.min < 0 := by
  cases t <;> simp_all [kind, min, one_le_two_pow]

/-- `np.can_cast(from_, to)` under numpy's default `'safe'` rule.  An integer of `a` bits
casts to a float of `f` bits when `a < f`, and always to a float of at least 64 bits
(numpy accepts `int64 -> float64`); a complex of `c` bits is a pair of `c / 2`-bit floats. -/
def canCast : DType → DType → Bool
  | bool, void _ => false
  | bool, _ => true
  | uint a, uint b => a ≤ b
  | uint a, int b => a < b
  | uint a, float f => a < f || 64 ≤ f
  | uint a, complex c => a < c / 2 || 64 ≤ c / 2
  | int a, int b => a ≤ b
  | int a, float f => a < f || 64 ≤ f
  | int a, complex c => a < c / 2 || 64 ≤ c / 2
  | float a, float b => a ≤ b
  | float a, complex c => a ≤ c / 2
  | complex a, complex b => a ≤ b
  | void a, void b => a = b
  | _, _ => false

theorem canCast_self (t : DType) : canCast t t = true := by
  cases t <;> simp [canCast]

theorem canCast_bool {t : DType} (h : t.kind ≠ 'V') : canCast bool t = true := by
  cases t
  case void => exact absurd rfl h
  all_goals rfl

/-- A safe cast into an integer type keeps the source type's range inside the target's, once
the target holds `True`. -/
theorem canCast_range {s t : DType} (h : canCast s t = true) (ht : t.isInt = true)
    (hpos : 0 < t.max) : s.isInteger = true ∧ t.min ≤ s.min ∧ s.max ≤ t.max := by
  rcases isInt_cases ht with ⟨b, rfl⟩ | ⟨b, rfl⟩ <;> cases s <;>
    simp_all [canCast, isInteger, isInt, kind, min, max]
  -- what is left: `bool` needs `1 ≤ t.max`, and a narrower integer type a smaller power of two
  all_goals first | omega | exact pow_le_pow_right₀ (by norm_num) (by omega)

end DType

end Nibabel.Numpy
