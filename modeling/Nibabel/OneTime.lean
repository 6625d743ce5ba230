import Mathlib.Data.List.Basic

set_option autoImplicit false

/-!
# `onetime.py`: one-time properties and `ResetMixin.reset`

`auto_attr` wraps a method in a `OneTimeProperty`, a non-data descriptor: while the instance
`__dict__` has no entry for the name, attribute lookup reaches the descriptor, whose `__get__`
calls the getter and stores the value in the instance `__dict__` under `func.__name__`; from then
on the instance entry answers.  `ResetMixin.reset` deletes those entries again, but it scans
only `self.__class__.__dict__`.

The model keeps what lookup and `reset` read: the instance `__dict__`, each class `__dict__` on
the MRO, and for a `OneTimeProperty` its `name` and its getter, a function of the instance
`__dict__` that returns a value or raises.

* `read_cached`, `read_uncached`: what one read of an auto attribute does.
* `reset_apply`: what `reset` deletes, from the own class `__dict__` only.
* `read_after_session`: for an auto attribute defined on the object's own class, over every
  session of reads, assignments to other names and resets, the instance entry is the value of the
  latest read since the latest reset; so a read calls the getter exactly when there is none, and
  a failed read leaves the `__dict__` alone.  Getters here read the instance `__dict__` only;
  `OneTime.Dependent` models getters that read other attributes, where a failed read may leave
  what its nested reads cached (`readDep_after_session` restates this law there).
* `read_after_reset_inherited`: `reset()` keeps the instance entry of an auto attribute that the
  own class `__dict__` does not hold, so the read after it calls nothing; `reset_keeps_inherited`
  is the docstring's session, run on a subclass that inherits `y`.
-/

namespace Nibabel.OneTime

/-- An instance `__dict__`. -/
abbrev InstDict (V : Type) := String → Option V

/-- What a class `__dict__` holds under a name: a `OneTimeProperty`, with its `name`
(`func.__name__`) and its getter, or any other class attribute. -/
inductive ClassAttr (V : Type) where
  | oneTime (name : String) (getter : InstDict V → Except String V)
  | other (v : V)

/-- `isinstance(mval, OneTimeProperty)`. -/
def ClassAttr.isOneTime {V : Type} : ClassAttr V → Bool
  | .oneTime _ _ => true
  | .other _ => false

/-- A class `__dict__`: its items in order, each name once. -/
structure ClassDict (V : Type) where
  items : List (String × ClassAttr V)
  nodup : (items.map Prod.fst).Nodup

/-- A class: its own `__dict__` and those of the rest of its MRO, in MRO order. -/
structure PyClass (V : Type) where
  dict : ClassDict V
  bases : List (ClassDict V)

/-- The outcome of a read `o.n`: the value or the exception, and whether a getter ran. -/
structure ReadResult (V : Type) where
  value : Except String V
  called : Bool

/-- What an object sees in a session: a read, an assignment, or `reset()`. -/
inductive Event (V : Type) where
  | read (n : String)
  | assign (m : String) (v : V)
  | reset

variable {V : Type}

/-- `d` with `k` set to `v`: `setattr`, or with `none`, `delattr`. -/
def InstDict.set (d : InstDict V) (k : String) (v : Option V) : InstDict V :=
  fun k' => if k' = k then v else d k'

@[simp] theorem InstDict.set_same (d : InstDict V) (k : String) (v : Option V) :
    d.set k v k = v := if_pos rfl

@[simp] theorem InstDict.set_ne (d : InstDict V) {k k' : String} (v : Option V) (h : k' ≠ k) :
    d.set k v k' = d k' := if_neg h

/-- The class attribute lookup finds for `n`: the first class `__dict__` on the MRO that has it. -/
def PyClass.lookup (C : PyClass V) (n : String) : Option (ClassAttr V) :=
  (C.dict :: C.bases).findSome? (·.items.lookup n)

/-- `o.n` on an object of class `C` with `__dict__` `d`.  `OneTimeProperty` is a non-data
descriptor, so an instance entry comes first; otherwise `OneTimeProperty.__get__` calls the
getter and, if it returns, `setattr(obj, self.name, val)`. -/
def read (C : PyClass V) (d : InstDict V) (n : String) : ReadResult V × InstDict V :=
  match d n with
  | some v => (⟨.ok v, false⟩, d)
  | none =>
    match C.lookup n with
    | some (.oneTime name getter) =>
      match getter d with
      | .ok v => (⟨.ok v, true⟩, d.set name (some v))
      | .error e => (⟨.error e, true⟩, d)
    | some (.other v) => (⟨.ok v, false⟩, d)
    | none => (⟨.error "AttributeError", false⟩, d)

/-- One pass of `reset`'s loop: `if mname in instdict and isinstance(mval, OneTimeProperty):
delattr(self, mname)`. -/
def resetItem (d : InstDict V) (item : String × ClassAttr V) : InstDict V :=
  if (d item.1).isSome && item.2.isOneTime then d.set item.1 none else d

/-- `ResetMixin.reset()`: the loop over the items of `self.__class__.__dict__`. -/
def reset (C : PyClass V) (d : InstDict V) : InstDict V :=
  C.dict.items.foldl resetItem d

/-- One event: its read result, if it is a read, and the `__dict__` after it. -/
def step (C : PyClass V) (d : InstDict V) : Event V → Option (ReadResult V) × InstDict V
  | .read n => ((read C d n).1, (read C d n).2)
  | .assign m v => (none, d.set m (some v))
  | .reset => (none, reset C d)

/-- A session: each event with its read result, and the `__dict__` at the end. -/
def run (C : PyClass V) (d : InstDict V) :
    List (Event V) → List (Event V × Option (ReadResult V)) × InstDict V
  | [] => ([], d)
  | e :: es => ((e, (step C d e).1) :: (run C (step C d e).2 es).1, (run C (step C d e).2 es).2)

/-! ## What the property promises -/

/-- After one more event of a session, the value of the latest read of `n` that completed since
the latest `reset()`. -/
def latestStep (n : String) (c : Option V) : Event V × Option (ReadResult V) → Option V
  | (.reset, _) => none
  | (.read m, some ⟨.ok v, _⟩) => if m = n then some v else c
  | _ => c

/-- The value the latest read of `n` returned, among the reads that completed since the session
started or since its latest `reset()`; `none` if there is no such read. -/
def latestRead (n : String) (h : List (Event V × Option (ReadResult V))) : Option V :=
  h.foldl (latestStep n) none

/-! ## One read -/

/-- A read of a name with an instance entry returns it and calls nothing. -/
theorem read_cached (C : PyClass V) {d : InstDict V} {n : String} {v : V} (h : d n = some v) :
    read C d n = (⟨.ok v, false⟩, d) := by
  simp [read, h]

/-- A read of an auto attribute without an instance entry calls the getter; the value is stored
if the getter returns, and nothing changes if it raises. -/
theorem read_uncached {C : PyClass V} {d : InstDict V} {n : String}
    {getter : InstDict V → Except String V} (hl : C.lookup n = some (.oneTime n getter))
    (h : d n = none) :
    read C d n = match getter d with
      | .ok v => (⟨.ok v, true⟩, d.set n (some v))
      | .error e => (⟨.error e, true⟩, d) := by
  simp only [read, h, hl]

/-! ## What `reset` deletes -/

/-- One pass of the loop deletes the name it visits if that name holds a `OneTimeProperty`. -/
theorem resetItem_apply (d : InstDict V) (item : String × ClassAttr V) (k : String) :
    resetItem d item k = if item.1 = k && item.2.isOneTime then none else d k := by
  unfold resetItem
  by_cases hk : item.1 = k
  · subst hk
    cases hd : d item.1 <;> cases item.2.isOneTime <;> simp [hd]
  · by_cases hc : ((d item.1).isSome && item.2.isOneTime) = true <;> simp [hc, hk, Ne.symm hk]

theorem foldl_resetItem_apply (d : InstDict V) (items : List (String × ClassAttr V)) (k : String) :
    items.foldl resetItem d k =
      if items.any (fun item => item.1 = k && item.2.isOneTime) then none else d k := by
  induction items generalizing d with
  | nil => rfl
  | cons item items ih =>
    rw [List.foldl_cons, ih, resetItem_apply, List.any_cons]
    cases item.1 = k && item.2.isOneTime
    · simp only [Bool.false_or, Bool.false_eq_true, if_false]
    · simp

/-- `reset` deletes the instance entry of exactly the names that the own class `__dict__`
holds as a `OneTimeProperty`. -/
theorem reset_apply (C : PyClass V) (d : InstDict V) (k : String) :
    reset C d k =
      if C.dict.items.any (fun item => item.1 = k && item.2.isOneTime) then none else d k :=
  foldl_resetItem_apply d C.dict.items k

/-- An auto attribute of the own class `__dict__` has no instance entry after `reset`. -/
theorem reset_own {C : PyClass V} {n : String} {getter : InstDict V → Except String V}
    (hown : (n, .oneTime n getter) ∈ C.dict.items) (d : InstDict V) : reset C d n = none := by
  rw [reset_apply, if_pos (List.any_eq_true.2 ⟨_, hown, by simp [ClassAttr.isOneTime]⟩)]

/-- `reset` leaves the instance entry of a name that the own class `__dict__` does not hold as a
`OneTimeProperty`. -/
theorem reset_of_not_own {C : PyClass V} {n : String}
    (hn : ∀ a, (n, a) ∈ C.dict.items → a.isOneTime = false) (d : InstDict V) :
    reset C d n = d n := by
  rw [reset_apply, if_neg]
  simp only [List.any_eq_true, Bool.and_eq_true, decide_eq_true_eq, not_exists, not_and]
  rintro ⟨k, a⟩ hmem rfl
  simp [hn a hmem]

/-- **`reset()` keeps inherited one-time values.**  For a name that the own class `__dict__` does
not hold as a `OneTimeProperty`, such as an auto attribute inherited from a base class, `reset()`
leaves the instance entry, and the next read returns the value cached before `reset()` without
calling the getter. -/
theorem read_after_reset_inherited {C : PyClass V} {n : String}
    (hn : ∀ a, (n, a) ∈ C.dict.items → a.isOneTime = false) {d : InstDict V} {v : V}
    (hv : d n = some v) :
    reset C d n = d n ∧ read C (reset C d) n = (⟨.ok v, false⟩, reset C d) :=
  ⟨reset_of_not_own hn d, read_cached C ((reset_of_not_own hn d).trans hv)⟩

/-- A class `__dict__` answers for each of its names with that name's item. -/
theorem ClassDict.lookup_of_mem {l : List (String × ClassAttr V)} (hnd : (l.map Prod.fst).Nodup)
    {n : String} {a : ClassAttr V} (h : (n, a) ∈ l) : l.lookup n = some a := by
  induction l with
  | nil => cases h
  | cons p l ih =>
    obtain ⟨k, b⟩ := p
    rw [List.map_cons, List.nodup_cons] at hnd
    rcases List.mem_cons.1 h with he | hl
    · cases he
      exact List.lookup_cons_self
    · have hne : n ≠ k := by
        rintro rfl
        exact hnd.1 (List.mem_map.2 ⟨_, hl, rfl⟩)
      rw [List.lookup_cons, beq_false_of_ne hne, ih hnd.2 hl]

/-- A name of the own class `__dict__` is looked up there. -/
theorem lookup_own {C : PyClass V} {n : String} {a : ClassAttr V} (h : (n, a) ∈ C.dict.items) :
    C.lookup n = some a := by
  simp [PyClass.lookup, List.findSome?_cons, ClassDict.lookup_of_mem C.dict.nodup h]

/-- Every `OneTimeProperty` the MRO resolves a name to stores its value under that name, as
`auto_attr` makes it: `self.name = func.__name__`. -/
def AutoAttrs (C : PyClass V) : Prop :=
  ∀ k name getter, C.lookup k = some (.oneTime name getter) → name = k

/-- A read of one name leaves the instance entries of the other names alone. -/
theorem read_entry_ne {C : PyClass V} (hwf : AutoAttrs C) (d : InstDict V) {m n : String}
    (hm : m ≠ n) : (read C d m).2 n = d n := by
  unfold read
  split
  · rfl
  · split
    · rename_i name getter hl
      cases hwf m name getter hl
      split <;> simp [Ne.symm hm]
    · rfl
    · rfl

theorem latestStep_read_ne {n m : String} (hm : m ≠ n) (c : Option V)
    (r : Option (ReadResult V)) : latestStep n c (.read m, r) = c := by
  rcases r with _ | ⟨_ | v, _⟩ <;> simp [latestStep, hm]

/-! ## A whole session -/

section Session

variable {C : PyClass V} {n : String} {getter : InstDict V → Except String V}

/-- **The instance entry is the latest read.**  For an auto attribute `n` defined on the
object's own class, over any session without an assignment to `n`: at every point the instance
entry of `n` is the value of the latest read of `n` since the latest `reset()`. -/
theorem run_entry (hwf : AutoAttrs C) (hown : (n, .oneTime n getter) ∈ C.dict.items)
    (d : InstDict V)
    (c : Option V) (hd : d n = c) (es : List (Event V)) (hes : ∀ v, .assign n v ∉ es) :
    (run C d es).2 n = (run C d es).1.foldl (latestStep n) c := by
  induction es generalizing d c with
  | nil => exact hd
  | cons e es ih =>
    refine ih _ _ ?_ fun v hv => hes v (List.mem_cons_of_mem _ hv)
    cases e with
    | read m =>
      by_cases hm : m = n
      · subst hm
        cases hc : d m with
        | some v => simp [step, latestStep, read_cached C hc, ← hd, hc]
        | none =>
          rw [← hd, hc]
          simp only [step, read_uncached (lookup_own hown) hc]
          cases getter d <;> simp [latestStep, hc]
      · simp only [step, read_entry_ne hwf d hm, latestStep_read_ne hm, hd]
    | assign m v =>
      have hm : m ≠ n := fun h => hes v (h ▸ List.mem_cons_self _ _)
      simp [step, latestStep, hd, Ne.symm hm]
    | reset => simp [step, latestStep, reset_own hown]

/-- **One-time properties over a session.**  For an auto attribute `n` defined on the object's
own class: after any session that starts without an entry for `n` and assigns nothing to `n`,
the entry for `n` is the value of the latest read of `n` since the latest `reset()`.  So the next
read of `n` calls the getter exactly when no read of `n` has completed since the session started
or since its latest `reset()`, returns that read's value without a call otherwise, and leaves the
`__dict__` as it was if the getter raises. -/
theorem read_after_session (hwf : AutoAttrs C) (hown : (n, .oneTime n getter) ∈ C.dict.items)
    {d₀ : InstDict V} (h₀ : d₀ n = none) (es : List (Event V)) (hes : ∀ v, .assign n v ∉ es) :
    (run C d₀ es).2 n = latestRead n (run C d₀ es).1 ∧
    (read C (run C d₀ es).2 n).1.called = (latestRead n (run C d₀ es).1).isNone ∧
    (∀ v, latestRead n (run C d₀ es).1 = some v →
      read C (run C d₀ es).2 n = (⟨.ok v, false⟩, (run C d₀ es).2)) ∧
    (∀ e, (read C (run C d₀ es).2 n).1.value = .error e →
      (read C (run C d₀ es).2 n).2 = (run C d₀ es).2) := by
  have hent : (run C d₀ es).2 n = latestRead n (run C d₀ es).1 :=
    run_entry hwf hown d₀ none h₀ es hes
  generalize (run C d₀ es).2 = d at hent ⊢
  generalize latestRead n (run C d₀ es).1 = c at hent ⊢
  refine ⟨hent, ?_, fun v hv => read_cached C (hent.trans hv), fun e he => ?_⟩
  · cases c with
    | some v => rw [read_cached C hent]; rfl
    | none =>
      rw [read_uncached (lookup_own hown) hent]
      cases getter d <;> rfl
  · cases c with
    | some v => rw [read_cached C hent] at he; cases he
    | none =>
      rw [read_uncached (lookup_own hown) hent] at he ⊢
      cases hg : getter d <;> simp only [hg] at he ⊢
      cases he

end Session

/-! ## The docstring's class, and a subclass -/

/-- The `__dict__` of the docstring's `class A(ResetMixin)`: `y` is `x / 2`, an auto
attribute. -/
def halfDict : ClassDict ℕ :=
  ⟨[("y", .oneTime "y" fun d => .ok ((d "x").getD 0 / 2))], by decide⟩

/-- `class A(ResetMixin)` of the docstring. -/
def classA : PyClass ℕ := ⟨halfDict, []⟩

/-- `class B(A): pass`: `y` is inherited. -/
def classB : PyClass ℕ := ⟨⟨[], by decide⟩, [halfDict]⟩

/-- The docstring's session: `a.x = 10; a.y; a.x = 20; a.reset(); a.y`. -/
def docSession : List (Event ℕ) := [.assign "x" 10, .read "y", .assign "x" 20, .reset, .read "y"]

/-- `A.y` is stored under its own name. -/
theorem classA_autoAttrs : AutoAttrs classA := by
  intro k name getter hl
  by_cases hk : k = "y"
  · subst hk
    simp only [PyClass.lookup, classA, halfDict, List.findSome?_cons, List.lookup_cons_self] at hl
    cases hl
    rfl
  · have hb : (k == "y") = false := beq_false_of_ne hk
    simp [PyClass.lookup, classA, halfDict, List.lookup_cons, hb] at hl

/-- **`reset()` misses inherited auto attributes.**  The docstring's session recomputes `y` on
`A`: after `reset()` the read calls the getter and gives `10`.  On `B(A)` the same session keeps
the stale `5`: `reset` scans only `B.__dict__`, which has no `y`, so the entry survives and the
read after `reset()` calls nothing. -/
theorem reset_keeps_inherited :
    ((run classA (fun _ => none) docSession).1.map Prod.snd).map (Option.map ReadResult.called) =
      [none, some true, none, none, some true] ∧
    ((run classA (fun _ => none) docSession).1.map Prod.snd).map
      (Option.map ReadResult.value) = [none, some (.ok 5), none, none, some (.ok 10)] ∧
    ((run classB (fun _ => none) docSession).1.map Prod.snd).map (Option.map ReadResult.called) =
      [none, some true, none, none, some false] ∧
    ((run classB (fun _ => none) docSession).1.map Prod.snd).map
      (Option.map ReadResult.value) = [none, some (.ok 5), none, none, some (.ok 5)] ∧
    latestRead "y" ((run classB (fun _ => none) docSession).1.take 4) = none :=
  ⟨rfl, rfl, rfl, rfl, rfl⟩

theorem read_after_reset_inherited_classB :
    (∀ a, ("y", a) ∈ classB.dict.items → a.isOneTime = false) ∧
    (run classB (fun _ => none) (docSession.take 3)).2 "y" = some 5 ∧
    reset classB (run classB (fun _ => none) (docSession.take 3)).2 "y" =
      (run classB (fun _ => none) (docSession.take 3)).2 "y" ∧
    read classB (reset classB (run classB (fun _ => none) (docSession.take 3)).2) "y" =
      (⟨.ok 5, false⟩, reset classB (run classB (fun _ => none) (docSession.take 3)).2) := by
  have hn : ∀ a, ("y", a) ∈ classB.dict.items → a.isOneTime = false := fun _ h => by cases h
  have hv : (run classB (fun _ => none) (docSession.take 3)).2 "y" = some 5 := rfl
  exact ⟨hn, hv, read_after_reset_inherited hn hv⟩

end Nibabel.OneTime
