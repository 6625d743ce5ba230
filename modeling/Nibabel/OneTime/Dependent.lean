import Mathlib.Data.Rat.Init
import Nibabel.OneTime

set_option autoImplicit false

/-!
# `onetime.py`: getters that read other attributes

A getter is a method, and `self.x` inside it goes through attribute lookup again: the instance
`__dict__` first, then the class, where another `OneTimeProperty.__get__` may run and cache its own
value before the outer getter returns.  This module models that nesting.  A getter is a tree of
attribute reads (`Getter`).  A read (`readDep`) runs the getter's reads with a budget of `depth`
nested calls, the interpreter's recursion limit, and raises `RecursionError` when the budget
runs out.

* `runDep_toDep`: the flat model of `OneTime` is the case where no getter reads an attribute.
  Every session runs there exactly as it runs here, so `readDep_after_session` carries the
  flat model's session law over to such getters.
* `readDep_cyclic`: a set of auto attributes whose getters each start by reading another member
  of the set, with no instance entry for any of them.  A read of any member raises
  `RecursionError` at every depth and caches nothing.
* `read_after_reset_cycle`: the warning of the `ResetMixin` docstring.  Take a class whose
  one-time properties can each be computed from another, like `UniformTimeSeries`.  After
  `reset()` every one of them raises `RecursionError` at every depth budget, whatever values
  the object was initialised with, because `reset()` deletes the initialising values too.
-/

namespace Nibabel.OneTime

/-- A getter `func(self)`, as the attribute reads it makes: `attr m k` reads `self.m` and goes
on with its value, and an exception from that read propagates.  `done f` computes the result
from the instance `__dict__` as it stands then. -/
inductive Getter (V : Type) where
  | done (f : InstDict V → Except String V)
  | attr (m : String) (k : V → Getter V)

/-- What a class `__dict__` holds under a name, with getters that read attributes. -/
inductive DepAttr (V : Type) where
  | oneTime (name : String) (getter : Getter V)
  | other (v : V)

/-- `isinstance(mval, OneTimeProperty)`. -/
def DepAttr.isOneTime {V : Type} : DepAttr V → Bool
  | .oneTime _ _ => true
  | .other _ => false

/-- A class `__dict__`: its items in order, each name once. -/
structure DepDict (V : Type) where
  items : List (String × DepAttr V)
  nodup : (items.map Prod.fst).Nodup

/-- A class: its own `__dict__` and those of the rest of its MRO, in MRO order. -/
structure DepClass (V : Type) where
  dict : DepDict V
  bases : List (DepDict V)

variable {V : Type}

/-- The class attribute lookup finds for `n`: the first class `__dict__` on the MRO that has it. -/
def DepClass.lookup (C : DepClass V) (n : String) : Option (DepAttr V) :=
  (C.dict :: C.bases).findSome? (·.items.lookup n)

/-- The exception raised when a call would exceed the interpreter's recursion limit. -/
def recursionError : String := "RecursionError"

/-- Run a getter on the object: each `attr m` reads `self.m` with `rd`, which may cache values
in the `__dict__`.  The first exception ends the getter, and what was cached until then stays. -/
def runGetter (rd : InstDict V → String → ReadResult V × InstDict V) :
    InstDict V → Getter V → Except String V × InstDict V
  | d, .done f => (f d, d)
  | d, .attr m k =>
    match rd d m with
    | (⟨.ok v, _⟩, d') => runGetter rd d' (k v)
    | (⟨.error e, _⟩, d') => (.error e, d')

/-- `o.n` with `depth` nested getter calls left before the recursion limit.  As in `read`, the
instance entry comes first.  Otherwise `OneTimeProperty.__get__` calls the getter, whose own
reads run one level deeper, and stores the value under `name` if the getter returns. -/
def readDep (C : DepClass V) : Nat → InstDict V → String → ReadResult V × InstDict V
  | depth, d, n =>
    match d n with
    | some v => (⟨.ok v, false⟩, d)
    | none =>
      match C.lookup n with
      | some (.oneTime name getter) =>
        match depth with
        | 0 => (⟨.error recursionError, false⟩, d)
        | depth + 1 =>
          match runGetter (readDep C depth) d getter with
          | (.ok v, d') => (⟨.ok v, true⟩, d'.set name (some v))
          | (.error e, d') => (⟨.error e, true⟩, d')
      | some (.other v) => (⟨.ok v, false⟩, d)
      | none => (⟨.error "AttributeError", false⟩, d)

/-- One pass of `reset`'s loop, over a class `__dict__` of this model. -/
def resetItemDep (d : InstDict V) (item : String × DepAttr V) : InstDict V :=
  if (d item.1).isSome && item.2.isOneTime then d.set item.1 none else d

/-- `ResetMixin.reset()`: the loop over the items of `self.__class__.__dict__`. -/
def resetDep (C : DepClass V) (d : InstDict V) : InstDict V :=
  C.dict.items.foldl resetItemDep d

/-- One event of a session, with `depth` nested calls available to each read. -/
def stepDep (C : DepClass V) (depth : Nat) (d : InstDict V) :
    Event V → Option (ReadResult V) × InstDict V
  | .read n => ((readDep C depth d n).1, (readDep C depth d n).2)
  | .assign m v => (none, d.set m (some v))
  | .reset => (none, resetDep C d)

/-- A session: each event with its read result, and the `__dict__` at the end. -/
def runDep (C : DepClass V) (depth : Nat) (d : InstDict V) :
    List (Event V) → List (Event V × Option (ReadResult V)) × InstDict V
  | [] => ([], d)
  | e :: es =>
    ((e, (stepDep C depth d e).1) :: (runDep C depth (stepDep C depth d e).2 es).1,
      (runDep C depth (stepDep C depth d e).2 es).2)

/-! ## One read -/

section Read

variable (C : DepClass V) {d : InstDict V} {n : String}

theorem readDep_cached (depth : Nat) {v : V} (h : d n = some v) :
    readDep C depth d n = (⟨.ok v, false⟩, d) := by
  simp only [readDep, h]

/-- An uncached auto attribute with no nested call left raises `RecursionError`. -/
theorem readDep_zero {name : String} {getter : Getter V} (h : d n = none)
    (hl : C.lookup n = some (.oneTime name getter)) :
    readDep C 0 d n = (⟨.error recursionError, false⟩, d) := by
  simp only [readDep, h, hl]

/-- An uncached auto attribute runs its getter one level deeper and caches what it returns. -/
theorem readDep_succ (depth : Nat) {name : String} {getter : Getter V} (h : d n = none)
    (hl : C.lookup n = some (.oneTime name getter)) :
    readDep C (depth + 1) d n = match runGetter (readDep C depth) d getter with
      | (.ok v, d') => (⟨.ok v, true⟩, d'.set name (some v))
      | (.error e, d') => (⟨.error e, true⟩, d') := by
  simp only [readDep, h, hl]

theorem readDep_other (depth : Nat) {v : V} (h : d n = none) (hl : C.lookup n = some (.other v)) :
    readDep C depth d n = (⟨.ok v, false⟩, d) := by
  simp only [readDep, h, hl]

theorem readDep_missing (depth : Nat) (h : d n = none) (hl : C.lookup n = none) :
    readDep C depth d n = (⟨.error "AttributeError", false⟩, d) := by
  simp only [readDep, h, hl]

end Read

/-! ## The flat model is the case without nested reads -/

/-- A getter of the flat model, which reads the instance `__dict__` only, makes no attribute
read. -/
def ClassAttr.toDep : ClassAttr V → DepAttr V
  | .oneTime name getter => .oneTime name (.done getter)
  | .other v => .other v

theorem ClassAttr.isOneTime_toDep (a : ClassAttr V) : a.toDep.isOneTime = a.isOneTime := by
  cases a <;> rfl

/-- The items of a class `__dict__`, with each getter as a getter that makes no attribute
read. -/
def ClassDict.toDep (c : ClassDict V) : DepDict V :=
  ⟨c.items.map fun p => (p.1, p.2.toDep), by rw [List.map_map]; exact c.nodup⟩

/-- A class of the flat model, in this model. -/
def PyClass.toDep (C : PyClass V) : DepClass V :=
  ⟨C.dict.toDep, C.bases.map ClassDict.toDep⟩

theorem lookup_map_toDep (l : List (String × ClassAttr V)) (n : String) :
    (l.map fun p => (p.1, p.2.toDep)).lookup n = (l.lookup n).map ClassAttr.toDep := by
  induction l with
  | nil => rfl
  | cons p l ih =>
    rw [List.map_cons, List.lookup_cons, List.lookup_cons]
    cases n == p.1
    · exact ih
    · rfl

theorem findSome_lookup_toDep (l : List (ClassDict V)) (n : String) :
    (l.map ClassDict.toDep).findSome? (·.items.lookup n) =
      (l.findSome? (·.items.lookup n)).map ClassAttr.toDep := by
  induction l with
  | nil => rfl
  | cons c l ih =>
    rw [List.map_cons, List.findSome?_cons, List.findSome?_cons, ClassDict.toDep,
      lookup_map_toDep]
    cases c.items.lookup n
    · exact ih
    · rfl

theorem PyClass.lookup_toDep (C : PyClass V) (n : String) :
    C.toDep.lookup n = (C.lookup n).map ClassAttr.toDep :=
  findSome_lookup_toDep (C.dict :: C.bases) n

/-- With at least one nested call available, a read in the flat model's class is the flat
model's read. -/
theorem readDep_toDep (C : PyClass V) (depth : Nat) (d : InstDict V) (n : String) :
    readDep C.toDep (depth + 1) d n = read C d n := by
  cases hd : d n with
  | some v => rw [readDep_cached _ _ hd, read_cached C hd]
  | none =>
    cases hl : C.lookup n with
    | none =>
      rw [readDep_missing _ _ hd (by rw [C.lookup_toDep, hl]; rfl)]
      simp only [read, hd, hl]
    | some a =>
      cases a with
      | oneTime name getter =>
        rw [readDep_succ _ _ hd (by rw [C.lookup_toDep, hl]; rfl)]
        simp only [read, hd, hl, runGetter]
        cases getter d <;> rfl
      | other v =>
        rw [readDep_other _ _ hd (by rw [C.lookup_toDep, hl]; rfl)]
        simp only [read, hd, hl]

theorem resetDep_toDep (C : PyClass V) (d : InstDict V) : resetDep C.toDep d = reset C d := by
  simp only [resetDep, reset, PyClass.toDep, ClassDict.toDep, List.foldl_map]
  congr
  funext d p
  simp only [resetItemDep, resetItem, ClassAttr.isOneTime_toDep]

/-- **The flat model embeds.**  Every session on a class of the flat model, whose getters read
the instance `__dict__` only, runs here as it runs in `OneTime`, given one nested call per read:
the same read results and the same `__dict__` at the end. -/
theorem runDep_toDep (C : PyClass V) (depth : Nat) (d : InstDict V) (es : List (Event V)) :
    runDep C.toDep (depth + 1) d es = run C d es := by
  induction es generalizing d with
  | nil => rfl
  | cons e es ih =>
    have hstep : stepDep C.toDep (depth + 1) d e = step C d e := by
      cases e <;> simp only [stepDep, step, readDep_toDep, resetDep_toDep]
    simp only [runDep, run, hstep, ih]

theorem resetItemDep_apply (d : InstDict V) (item : String × DepAttr V) (k : String) :
    resetItemDep d item k = if item.1 = k && item.2.isOneTime then none else d k := by
  unfold resetItemDep
  by_cases hk : item.1 = k
  · subst hk
    cases hd : d item.1 <;> cases item.2.isOneTime <;> simp [hd]
  · by_cases hc : ((d item.1).isSome && item.2.isOneTime) = true <;> simp [hc, hk, Ne.symm hk]

/-- `reset` deletes the instance entry of exactly the names that the own class `__dict__`
holds as a `OneTimeProperty`. -/
theorem resetDep_apply (C : DepClass V) (d : InstDict V) (k : String) :
    resetDep C d k =
      if C.dict.items.any (fun item => item.1 = k && item.2.isOneTime) then none else d k := by
  unfold resetDep
  induction C.dict.items generalizing d with
  | nil => rfl
  | cons item items ih =>
    rw [List.foldl_cons, ih, resetItemDep_apply, List.any_cons]
    cases item.1 = k && item.2.isOneTime
    · simp only [Bool.false_or, Bool.false_eq_true, if_false]
    · simp

/-- A name the own class `__dict__` holds as a `OneTimeProperty` has no entry after `reset`. -/
theorem resetDep_own {C : DepClass V} {n : String} {a : DepAttr V} (hmem : (n, a) ∈ C.dict.items)
    (ha : a.isOneTime = true) (d : InstDict V) : resetDep C d n = none := by
  rw [resetDep_apply, if_pos (List.any_eq_true.2 ⟨_, hmem, by simp [ha]⟩)]

/-! ## Circular dependencies -/

/-- Auto attributes each of whose getters starts by reading a member of `S`. -/
def Cyclic (C : DepClass V) (S : List String) : Prop :=
  ∀ n ∈ S, ∃ name m k, C.lookup n = some (.oneTime name (.attr m k)) ∧ m ∈ S

/-- **A cycle never finishes.**  While no member of a cycle has an instance entry, a read of any
member raises `RecursionError`, whatever the recursion limit, and caches nothing. -/
theorem readDep_cyclic {C : DepClass V} {S : List String} (hS : Cyclic C S) (depth : Nat) :
    ∀ (d : InstDict V), (∀ m ∈ S, d m = none) → ∀ n ∈ S,
      (readDep C depth d n).1.value = .error recursionError ∧ (readDep C depth d n).2 = d := by
  induction depth with
  | zero =>
    intro d hd n hn
    obtain ⟨name, m, k, hl, -⟩ := hS n hn
    rw [readDep_zero C (hd n hn) hl]
    exact ⟨rfl, rfl⟩
  | succ depth ih =>
    intro d hd n hn
    obtain ⟨name, m, k, hl, hm⟩ := hS n hn
    obtain ⟨hv, hd'⟩ := ih d hd m hm
    rcases h : readDep C depth d m with ⟨⟨r, c⟩, d'⟩
    rw [h] at hv hd'
    subst hv hd'
    simp only [readDep_succ C depth (hd n hn) hl, runGetter, h, and_self]

/-- **`reset()` strands a cycle.**  Take a set of one-time properties of the own class, each
computed from another member, as the docstring's `UniformTimeSeries` is.  After `reset()`
every member raises `RecursionError` at every `depth`, and whatever values the object held
before: `reset()` deletes an initialising value stored under such a name along with the
computed ones.  `depth` is the recursion limit as the interpreter enforces it; a limit set
beyond what the C stack holds crashes CPython instead of raising, which the model does not
represent. -/
theorem read_after_reset_cycle {C : DepClass V} {S : List String} (hS : Cyclic C S)
    (hown : ∀ n ∈ S, ∃ a, (n, a) ∈ C.dict.items ∧ a.isOneTime = true) (depth : Nat)
    (d : InstDict V) {n : String} (hn : n ∈ S) :
    (readDep C depth (resetDep C d) n).1.value = .error recursionError := by
  refine (readDep_cyclic hS depth (resetDep C d) (fun m hm => ?_) n hn).1
  obtain ⟨a, hmem, ha⟩ := hown m hm
  exact resetDep_own hmem ha d

/-! ## The docstring's time series -/

/-- A `DepDict` of the docstring's `UniformTimeSeries`, reduced to the cycle: `sampling_rate`
is `1 / sampling_interval` and `sampling_interval` is `1 / sampling_rate`, both auto attributes,
either one set by `__init__`. -/
def timeSeriesDict : DepDict ℚ :=
  ⟨[("sampling_rate", .oneTime "sampling_rate" (.attr "sampling_interval" fun x => .done
      fun _ => .ok (1 / x))),
    ("sampling_interval", .oneTime "sampling_interval" (.attr "sampling_rate" fun x => .done
      fun _ => .ok (1 / x)))], by decide⟩

/-- `class UniformTimeSeries(ResetMixin)`, reduced to its two rates. -/
def timeSeries : DepClass ℚ := ⟨timeSeriesDict, []⟩

/-- A time series initialised with `sampling_rate = 1000`. -/
def timeSeriesInit : InstDict ℚ := InstDict.set (fun _ => none) "sampling_rate" (some 1000)

example : (readDep timeSeries 1 timeSeriesInit "sampling_interval").1.value = .ok (1 / 1000) := by
  simp only [readDep, timeSeriesInit, InstDict.set, timeSeries, timeSeriesDict, DepClass.lookup]
  rfl

theorem read_after_reset_cycle_timeSeries :
    Cyclic timeSeries ["sampling_rate", "sampling_interval"] ∧
    (∀ n ∈ ["sampling_rate", "sampling_interval"],
      ∃ a, (n, a) ∈ timeSeries.dict.items ∧ a.isOneTime = true) ∧
    (readDep timeSeries 1000 (resetDep timeSeries timeSeriesInit) "sampling_interval").1.value =
      .error recursionError := by
  have hS : Cyclic timeSeries ["sampling_rate", "sampling_interval"] := by
    intro n hn
    simp only [List.mem_cons, List.mem_singleton, List.not_mem_nil, or_false] at hn
    rcases hn with rfl | rfl
    · exact ⟨_, _, _, rfl, by simp⟩
    · exact ⟨_, _, _, rfl, by simp⟩
  have hown : ∀ n ∈ ["sampling_rate", "sampling_interval"],
      ∃ a, (n, a) ∈ timeSeries.dict.items ∧ a.isOneTime = true := by
    intro n hn
    simp only [List.mem_cons, List.mem_singleton, List.not_mem_nil, or_false] at hn
    rcases hn with rfl | rfl
    · exact ⟨_, List.mem_cons_self _ _, rfl⟩
    · exact ⟨_, List.mem_cons_of_mem _ (List.mem_singleton_self _), rfl⟩
  exact ⟨hS, hown, read_after_reset_cycle hS hown 1000 timeSeriesInit (by simp)⟩

end Nibabel.OneTime
