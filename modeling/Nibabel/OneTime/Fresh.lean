import Nibabel.OneTime.Dependent

set_option autoImplicit false

/-!
# Caching is invisible when every change is followed by `reset()`

The `ResetMixin` docstring gives the contract: auto attributes are computed once and kept, and a
user who changes the state of the object calls `reset()` so that they are computed again.  The
model of that contract is an object that caches nothing.  On it a read evaluates the attribute
afresh from the instance `__dict__` as the assignments and `reset()` calls left it (`evalDep`),
with `none` when the nested calls do not fit in the recursion limit.

* `readDep_sound`: starting from a coherent `__dict__`, which holds only values a fresh
  evaluation gives, a read keeps it coherent.  Whatever it returns, short of `RecursionError`,
  is what a fresh evaluation returns.
* `readDep_complete`: whenever a fresh evaluation finishes, the cached read returns the same.
  Caching never costs recursion depth.
* `read_after_settled_session`: over every session in which each assignment is followed by
  `reset()` before the next read, on a class whose auto attributes are all its own (`reset()`
  scans only the own class `__dict__`), the next read answers as the uncached object does.

The hypotheses that carry weight: getters reach other auto attributes only by reading them
(`AutoAttrs.plain`), auto attributes are stored under their own name (`AutoAttrs.names`), and
the class defines every auto attribute itself (`OwnAutos`).
-/

namespace Nibabel.OneTime

variable {V : Type}

/-! ## Fresh evaluation -/

/-- A getter run on an object that caches nothing: each attribute read is `ev`, and the
`__dict__` stays `d`.  `none` means the nested calls ran out. -/
def evalGetter (ev : String → Option (Except String V)) (d : InstDict V) :
    Getter V → Option (Except String V)
  | .done f => some (f d)
  | .attr m k =>
    match ev m with
    | some (.ok v) => evalGetter ev d (k v)
    | some (.error e) => some (.error e)
    | none => none

/-- `o.n` on an object that caches nothing, with `depth` nested getter calls left: the lookup of
`readDep`, where an auto attribute is computed again at every read. -/
def evalDep (C : DepClass V) : Nat → InstDict V → String → Option (Except String V)
  | depth, d, n =>
    match d n with
    | some v => some (.ok v)
    | none =>
      match C.lookup n with
      | some (.oneTime _ getter) =>
        match depth with
        | 0 => none
        | depth + 1 => evalGetter (evalDep C depth d) d getter
      | some (.other v) => some (.ok v)
      | none => some (.error "AttributeError")

section Eval

variable (C : DepClass V) {d : InstDict V} {n : String}

theorem evalDep_cached (depth : Nat) {v : V} (h : d n = some v) :
    evalDep C depth d n = some (.ok v) := by
  simp only [evalDep, h]

theorem evalDep_zero {name : String} {getter : Getter V} (h : d n = none)
    (hl : C.lookup n = some (.oneTime name getter)) : evalDep C 0 d n = none := by
  simp only [evalDep, h, hl]

theorem evalDep_succ (depth : Nat) {name : String} {getter : Getter V} (h : d n = none)
    (hl : C.lookup n = some (.oneTime name getter)) :
    evalDep C (depth + 1) d n = evalGetter (evalDep C depth d) d getter := by
  simp only [evalDep, h, hl]

theorem evalDep_other (depth : Nat) {v : V} (h : d n = none) (hl : C.lookup n = some (.other v)) :
    evalDep C depth d n = some (.ok v) := by
  simp only [evalDep, h, hl]

theorem evalDep_missing (depth : Nat) (h : d n = none) (hl : C.lookup n = none) :
    evalDep C depth d n = some (.error "AttributeError") := by
  simp only [evalDep, h, hl]

end Eval

/-- A getter gives the same result with attribute reads that finish whenever `ev`'s do. -/
theorem evalGetter_mono {ev ev' : String → Option (Except String V)}
    (h : ∀ m r, ev m = some r → ev' m = some r) (d : InstDict V) (g : Getter V) :
    ∀ r, evalGetter ev d g = some r → evalGetter ev' d g = some r := by
  induction g with
  | done f => exact fun _ hr => hr
  | attr m k ih =>
    intro r hr
    rw [evalGetter] at hr ⊢
    cases hm : ev m with
    | none => rw [hm] at hr; cases hr
    | some res =>
      rw [hm] at hr
      rw [h m _ hm]
      cases res with
      | ok v => exact ih v r hr
      | error e => exact hr

/-- **More depth changes nothing that finished.** -/
theorem evalDep_mono (C : DepClass V) (d : InstDict V) {depth depth' : Nat} (hle : depth ≤ depth')
    {n : String} {r : Except String V} (h : evalDep C depth d n = some r) :
    evalDep C depth' d n = some r := by
  induction depth generalizing depth' n r with
  | zero =>
    cases hd : d n with
    | some v => rwa [evalDep_cached C _ hd] at h ⊢
    | none =>
      cases hl : C.lookup n with
      | none => rwa [evalDep_missing C _ hd hl] at h ⊢
      | some a =>
        cases a with
        | oneTime name getter => rw [evalDep_zero C hd hl] at h; cases h
        | other v => rwa [evalDep_other C _ hd hl] at h ⊢
  | succ depth ih =>
    obtain ⟨depth', rfl⟩ := Nat.exists_eq_add_of_le' (Nat.lt_of_lt_of_le (Nat.succ_pos depth) hle)
    cases hd : d n with
    | some v => rwa [evalDep_cached C _ hd] at h ⊢
    | none =>
      cases hl : C.lookup n with
      | none => rwa [evalDep_missing C _ hd hl] at h ⊢
      | some a =>
        cases a with
        | oneTime name getter =>
          rw [evalDep_succ C _ hd hl] at h ⊢
          exact evalGetter_mono (fun m r => ih (Nat.le_of_succ_le_succ hle)) d getter r h
        | other v => rwa [evalDep_other C _ hd hl] at h ⊢

/-- Fresh evaluations that finish agree, whatever their depths. -/
theorem evalDep_det (C : DepClass V) (d : InstDict V) {depth depth' : Nat} {n : String}
    {r r' : Except String V} (h : evalDep C depth d n = some r)
    (h' : evalDep C depth' d n = some r') : r = r' := by
  rcases le_total depth depth' with hle | hle
  · exact Option.some_injective _ ((evalDep_mono C d hle h).symm.trans h')
  · exact Option.some_injective _ (h.symm.trans (evalDep_mono C d hle h'))

/-! ## Coherent caches -/

/-- Whether the MRO resolves `k` to a `OneTimeProperty`. -/
def DepClass.isAuto (C : DepClass V) (k : String) : Bool :=
  (C.lookup k).any DepAttr.isOneTime

theorem DepClass.isAuto_of_lookup {C : DepClass V} {k name : String} {getter : Getter V}
    (hl : C.lookup k = some (.oneTime name getter)) : C.isAuto k = true := by
  simp only [DepClass.isAuto, hl, Option.any_some, DepAttr.isOneTime]

/-- The `done` steps of a getter read the instance entries of names in `P` only. -/
def Getter.ReadsOnly (P : String → Prop) : Getter V → Prop
  | .done f => ∀ d d' : InstDict V, (∀ k, P k → d k = d' k) → f d = f d'
  | .attr _ k => ∀ v, (k v).ReadsOnly P

/-- The auto attributes of a class as `auto_attr` makes them: each stores its value under its
own name (`self.name = func.__name__`), and its getter reaches other auto attributes only
through attribute reads, never in the instance `__dict__` directly. -/
structure DepClass.AutoAttrs (C : DepClass V) : Prop where
  names : ∀ k name getter, C.lookup k = some (.oneTime name getter) → name = k
  plain : ∀ k name (getter : Getter V), C.lookup k = some (.oneTime name getter) →
    getter.ReadsOnly (fun k => C.isAuto k = false)

/-- `d` is the uncached `__dict__` `b` with some values cached: it differs from `b` only at auto
attributes that have no entry in `b`, and there it holds what a fresh evaluation gives. -/
def Coherent (C : DepClass V) (b d : InstDict V) : Prop :=
  ∀ k, d k = b k ∨
    (C.isAuto k = true ∧ b k = none ∧ ∃ depth v, d k = some v ∧ evalDep C depth b k = some (.ok v))

section Coherent

variable {C : DepClass V} {b d : InstDict V}

theorem Coherent.refl (C : DepClass V) (b : InstDict V) : Coherent C b b := fun _ => Or.inl rfl

theorem Coherent.eq_of_isAuto_false (h : Coherent C b d) {k : String} (hk : C.isAuto k = false) :
    d k = b k :=
  (h k).resolve_right fun h' => by rw [hk] at h'; exact Bool.false_ne_true h'.1

theorem Coherent.none_of_none (h : Coherent C b d) {k : String} (hk : d k = none) : b k = none := by
  rcases h k with h' | h'
  · rw [← h', hk]
  · exact h'.2.1

/-- Caching a fresh value of an auto attribute keeps the `__dict__` coherent. -/
theorem Coherent.set (h : Coherent C b d) {n : String} (hauto : C.isAuto n = true)
    (hb : b n = none) {depth : Nat} {v : V} (hv : evalDep C depth b n = some (.ok v)) :
    Coherent C b (d.set n (some v)) := by
  intro k
  by_cases hk : k = n
  · subst hk
    exact Or.inr ⟨hauto, hb, depth, v, InstDict.set_same _ _ _, hv⟩
  · rw [InstDict.set_ne _ _ hk]
    exact h k

/-- A cached entry is a value some fresh evaluation gives. -/
theorem Coherent.eval_of_some (h : Coherent C b d) {n : String} {v : V} (hv : d n = some v) :
    ∃ depth, evalDep C depth b n = some (.ok v) := by
  rcases h n with h' | ⟨-, -, depth, v', hv', hev⟩
  · exact ⟨0, evalDep_cached C 0 (h'.symm.trans hv)⟩
  · rw [hv] at hv'
    cases hv'
    exact ⟨depth, hev⟩

/-- A `done` step reads the same values from a coherent `__dict__` as from the uncached one. -/
theorem Coherent.done_eq (h : Coherent C b d) {f : InstDict V → Except String V}
    (hf : (Getter.done f).ReadsOnly (fun k => C.isAuto k = false)) : f d = f b :=
  hf d b fun _ hk => h.eq_of_isAuto_false hk

end Coherent

/-! ## A read agrees with fresh evaluation -/

section Read

variable {C : DepClass V} {b : InstDict V}

/-- What a read does for the getters that call it: it keeps the `__dict__` coherent, and
returns, short of `RecursionError`, what a fresh evaluation returns. -/
def SoundRead (C : DepClass V) (b : InstDict V)
    (rd : InstDict V → String → ReadResult V × InstDict V) : Prop :=
  ∀ d n, Coherent C b d → Coherent C b (rd d n).2 ∧
    ((rd d n).1.value ≠ .error recursionError →
      ∃ depth, evalDep C depth b n = some (rd d n).1.value)

theorem runGetter_sound {rd : InstDict V → String → ReadResult V × InstDict V}
    (hrd : SoundRead C b rd) (g : Getter V) (hg : g.ReadsOnly (fun k => C.isAuto k = false)) :
    ∀ d, Coherent C b d →
      Coherent C b (runGetter rd d g).2 ∧ ((runGetter rd d g).1 ≠ .error recursionError →
        ∃ depth, evalGetter (evalDep C depth b) b g = some (runGetter rd d g).1) := by
  induction g with
  | done f => exact fun d hd => ⟨hd, fun _ => ⟨0, congrArg some (hd.done_eq hg).symm⟩⟩
  | attr m k ih =>
    intro d hd
    obtain ⟨hd₁, hm⟩ := hrd d m hd
    rcases hrm : rd d m with ⟨⟨_ | v, c⟩, d₁⟩ <;> rw [hrm] at hd₁ hm <;>
      simp only [runGetter, hrm]
    case error e =>
      refine ⟨hd₁, fun he => ?_⟩
      obtain ⟨depth, hev⟩ := hm he
      exact ⟨depth, by simp only [evalGetter, hev]⟩
    case ok =>
      obtain ⟨hd₂, hk⟩ := ih v (hg v) d₁ hd₁
      refine ⟨hd₂, fun he => ?_⟩
      obtain ⟨depth₁, hev₁⟩ := hm (fun h => Except.noConfusion h)
      obtain ⟨depth₂, hev₂⟩ := hk he
      refine ⟨depth₁ + depth₂, ?_⟩
      simp only [evalGetter, evalDep_mono C b (Nat.le_add_right _ _) hev₁]
      exact evalGetter_mono (fun _ _ => evalDep_mono C b (Nat.le_add_left _ _)) b _ _ hev₂

/-- **A read is sound.**  From a coherent `__dict__`, a read leaves it coherent and returns,
short of `RecursionError`, what a fresh evaluation with enough depth returns. -/
theorem readDep_sound (hC : C.AutoAttrs) (depth : Nat) : SoundRead C b (readDep C depth) := by
  induction depth using Nat.strong_induction_on with
  | _ depth ih =>
  intro d n hd
  cases hdn : d n with
  | some v =>
    rw [readDep_cached C depth hdn]
    exact ⟨hd, fun _ => hd.eval_of_some hdn⟩
  | none =>
    have hb := hd.none_of_none hdn
    cases hl : C.lookup n with
    | none =>
      rw [readDep_missing C depth hdn hl]
      exact ⟨hd, fun _ => ⟨0, evalDep_missing C 0 hb hl⟩⟩
    | some a =>
      cases a with
      | other v =>
        rw [readDep_other C depth hdn hl]
        exact ⟨hd, fun _ => ⟨0, evalDep_other C 0 hb hl⟩⟩
      | oneTime name getter =>
        cases depth with
        | zero =>
          rw [readDep_zero C hdn hl]
          exact ⟨hd, fun h => absurd rfl h⟩
        | succ depth =>
          obtain ⟨hd', hr⟩ := runGetter_sound (ih depth (Nat.lt_succ_self _)) getter
            (hC.plain n name getter hl) d hd
          cases hC.names n name getter hl
          rcases hrun : runGetter (readDep C depth) d getter with ⟨_ | v, d'⟩ <;>
            rw [hrun] at hd' hr <;> rw [readDep_succ C depth hdn hl, hrun]
          case error e =>
            refine ⟨hd', fun he => ?_⟩
            obtain ⟨D, hD⟩ := hr he
            exact ⟨D + 1, (evalDep_succ C D hb hl).trans hD⟩
          case ok =>
            obtain ⟨D, hD⟩ := hr (fun h => Except.noConfusion h)
            have hev : evalDep C (D + 1) b n = some (.ok v) := (evalDep_succ C D hb hl).trans hD
            exact ⟨hd'.set (DepClass.isAuto_of_lookup hl) hb hev, fun _ => ⟨D + 1, hev⟩⟩

theorem runGetter_complete {rd : InstDict V → String → ReadResult V × InstDict V}
    {ev : String → Option (Except String V)} (hrd : SoundRead C b rd)
    (hcomp : ∀ d m r, Coherent C b d → ev m = some r → (rd d m).1.value = r) (g : Getter V)
    (hg : g.ReadsOnly (fun k => C.isAuto k = false)) :
    ∀ d r, Coherent C b d → evalGetter ev b g = some r → (runGetter rd d g).1 = r := by
  induction g with
  | done f =>
    intro d r hd h
    rw [evalGetter] at h
    exact (hd.done_eq hg).trans (Option.some_injective _ h)
  | attr m k ih =>
    intro d r hd h
    rw [evalGetter] at h
    cases hm : ev m with
    | none => rw [hm] at h; cases h
    | some res =>
      rw [hm] at h
      have hv := hcomp d m res hd hm
      have hd₁ := (hrd d m hd).1
      rcases hrm : rd d m with ⟨⟨e | v, c⟩, d₁⟩ <;> rw [hrm] at hv hd₁ <;> subst hv <;>
        simp only [runGetter, hrm]
      · exact Option.some_injective _ h
      · exact ih v (hg v) d₁ r hd₁ h

/-- **A read is complete.**  From a coherent `__dict__`, whenever a fresh evaluation finishes
within the recursion limit, the cached read returns the same: caching never needs more depth. -/
theorem readDep_complete (hC : C.AutoAttrs) (depth : Nat) :
    ∀ d n r, Coherent C b d → evalDep C depth b n = some r → (readDep C depth d n).1.value = r := by
  induction depth using Nat.strong_induction_on with
  | _ depth ih =>
  intro d n r hd h
  cases hdn : d n with
  | some v =>
    rw [readDep_cached C depth hdn]
    obtain ⟨D, hD⟩ := hd.eval_of_some hdn
    exact evalDep_det C b hD h
  | none =>
    have hb := hd.none_of_none hdn
    cases hl : C.lookup n with
    | none =>
      rw [readDep_missing C depth hdn hl]
      rw [evalDep_missing C depth hb hl] at h
      exact Option.some_injective _ h
    | some a =>
      cases a with
      | other v =>
        rw [readDep_other C depth hdn hl]
        rw [evalDep_other C depth hb hl] at h
        exact Option.some_injective _ h
      | oneTime name getter =>
        cases depth with
        | zero => rw [evalDep_zero C hb hl] at h; cases h
        | succ depth =>
          rw [evalDep_succ C depth hb hl] at h
          have hrun := runGetter_complete (readDep_sound hC depth) (ih depth (Nat.lt_succ_self _))
            getter (hC.plain n name getter hl) d r hd h
          rw [readDep_succ C depth hdn hl]
          rcases hrun' : runGetter (readDep C depth) d getter with ⟨_ | v, d'⟩ <;>
            rw [hrun'] at hrun <;> exact hrun

end Read

/-! ## Sessions -/

/-- The uncached object after one more event: an assignment sets the entry, `reset()` deletes
as on the cached object, and a read changes nothing. -/
def freshStep (C : DepClass V) (b : InstDict V) : Event V → InstDict V
  | .read _ => b
  | .assign m v => b.set m (some v)
  | .reset => resetDep C b

/-- The uncached object's `__dict__` after a session. -/
def freshState (C : DepClass V) (b : InstDict V) (es : List (Event V)) : InstDict V :=
  es.foldl (freshStep C) b

/-- Whether each assignment of a session is followed by `reset()` before the next read and
before the session ends; `pending` says an assignment already waits for its `reset()`. -/
def resetsAfterAssign (pending : Bool) : List (Event V) → Bool
  | [] => !pending
  | .read _ :: es => !pending && resetsAfterAssign false es
  | .assign _ _ :: es => resetsAfterAssign true es
  | .reset :: es => resetsAfterAssign false es

/-- Every auto attribute is a `OneTimeProperty` of the own class `__dict__`, the only one that
`reset()` scans. -/
def DepClass.OwnAutos (C : DepClass V) : Prop :=
  ∀ k, C.isAuto k = true → ∃ a, (k, a) ∈ C.dict.items ∧ a.isOneTime = true

/-- The cached and the uncached `__dict__` during a session: coherent, or, while an assignment
waits for its `reset()`, equal off the auto attributes. -/
def SessionInv (C : DepClass V) : Bool → InstDict V → InstDict V → Prop
  | false, b, d => Coherent C b d
  | true, b, d => ∀ k, C.isAuto k = false → d k = b k

section Session

variable {C : DepClass V}

theorem SessionInv.agree {p : Bool} {b d : InstDict V} (h : SessionInv C p b d) {k : String}
    (hk : C.isAuto k = false) : d k = b k := by
  cases p
  · exact Coherent.eq_of_isAuto_false h hk
  · exact h k hk

/-- `reset()` on a class that defines every auto attribute itself forgets all that sets two
`__dict__`s apart off the auto attributes. -/
theorem resetDep_eq_of_agree (hown : C.OwnAutos) {b d : InstDict V}
    (h : ∀ k, C.isAuto k = false → d k = b k) : resetDep C d = resetDep C b := by
  funext k
  rw [resetDep_apply, resetDep_apply]
  split_ifs with hk
  · rfl
  · cases ha : C.isAuto k
    · exact h k ha
    · obtain ⟨a, hmem, hone⟩ := hown k ha
      exact absurd (List.any_eq_true.2 ⟨_, hmem, by simp [hone]⟩) hk

/-- **Coherence over a session.**  Along a session in which each assignment is followed by
`reset()` before the next read, the cached `__dict__` stays coherent with the uncached one. -/
theorem runDep_coherent (hC : C.AutoAttrs) (hown : C.OwnAutos) (depth : Nat)
    (es : List (Event V)) :
    ∀ (p : Bool) (b d : InstDict V), SessionInv C p b d → resetsAfterAssign p es = true →
      Coherent C (freshState C b es) (runDep C depth d es).2 := by
  induction es with
  | nil =>
    intro p b d hinv hes
    cases p
    · exact hinv
    · cases hes
  | cons e es ih =>
    intro p b d hinv hes
    cases e with
    | read n =>
      obtain ⟨hp, hes⟩ := Bool.and_eq_true_iff.1 hes
      cases p
      · exact ih false b _ (readDep_sound hC depth d n hinv).1 hes
      · cases hp
    | assign m v =>
      refine ih true _ _ (fun k hk => ?_) hes
      by_cases hkm : k = m
      · subst hkm
        simp only [stepDep, InstDict.set_same, freshStep]
      · simp only [stepDep, freshStep, InstDict.set_ne _ _ hkm, hinv.agree hk]
    | reset =>
      refine ih false _ _ ?_ hes
      show Coherent C (resetDep C b) (resetDep C d)
      rw [resetDep_eq_of_agree hown fun _ hk => hinv.agree hk]
      exact Coherent.refl C _

/-- **Caching is invisible after `reset()`.**  On a class whose auto attributes are all its own,
take any session in which each assignment is followed by `reset()` before the next read.  At
every read, the session so far is such a session.  After it, the next read returns what the
object without a cache returns whenever the latter finishes within the recursion limit.  Short
of `RecursionError`, it returns nothing a fresh evaluation would not. -/
theorem read_after_settled_session (hC : C.AutoAttrs) (hown : C.OwnAutos) (depth : Nat)
    (d₀ : InstDict V) (es : List (Event V)) (hes : resetsAfterAssign false es = true) (n : String) :
    (∀ r, evalDep C depth (freshState C d₀ es) n = some r →
      (readDep C depth (runDep C depth d₀ es).2 n).1.value = r) ∧
    ((readDep C depth (runDep C depth d₀ es).2 n).1.value ≠ .error recursionError →
      ∃ depth', evalDep C depth' (freshState C d₀ es) n =
        some (readDep C depth (runDep C depth d₀ es).2 n).1.value) := by
  have hcoh := runDep_coherent hC hown depth es false d₀ d₀ (Coherent.refl C d₀) hes
  exact ⟨fun r h => readDep_complete hC depth _ n r hcoh h, (readDep_sound hC depth _ n hcoh).2⟩

end Session

/-! ## The docstring's class -/

/-- The `__dict__` of the docstring's `class A(ResetMixin)`, with the getter of `y` reading
`self.x` as the source does. -/
def halfDepDict : DepDict ℕ :=
  ⟨[("y", .oneTime "y" (.attr "x" fun x => .done fun _ => .ok (x / 2)))], by decide⟩

/-- `class A(ResetMixin)` of the docstring. -/
def classADep : DepClass ℕ := ⟨halfDepDict, []⟩

/-- The docstring's session with `reset()` after each assignment. -/
def settledSession : List (Event ℕ) :=
  [.assign "x" 10, .reset, .read "y", .assign "x" 20, .reset]

theorem read_after_settled_session_classA :
    classADep.AutoAttrs ∧ classADep.OwnAutos ∧ resetsAfterAssign false settledSession = true ∧
    (∀ r, evalDep classADep 1 (freshState classADep (fun _ => none) settledSession) "y" = some r →
      (readDep classADep 1 (runDep classADep 1 (fun _ => none) settledSession).2 "y").1.value =
        r) ∧
    ((readDep classADep 1 (runDep classADep 1 (fun _ => none) settledSession).2 "y").1.value ≠
        .error recursionError →
      ∃ depth',
        evalDep classADep depth' (freshState classADep (fun _ => none) settledSession) "y" =
          some (readDep classADep 1
            (runDep classADep 1 (fun _ => none) settledSession).2 "y").1.value) := by
  have hl : ∀ k a, classADep.lookup k = some a →
      k = "y" ∧ a = .oneTime "y" (.attr "x" fun x => .done fun _ => .ok (x / 2)) := by
    intro k a h
    by_cases hk : k = "y"
    · subst hk
      cases h
      exact ⟨rfl, rfl⟩
    · simp [DepClass.lookup, classADep, halfDepDict, List.lookup_cons, beq_false_of_ne hk] at h
  have hC : classADep.AutoAttrs := by
    constructor
    · intro k name getter h
      obtain ⟨rfl, he⟩ := hl k _ h
      cases he
      rfl
    · intro k name getter h
      obtain ⟨rfl, he⟩ := hl k _ h
      cases he
      exact fun _ _ _ _ => rfl
  have hown : classADep.OwnAutos := by
    intro k hk
    cases h : classADep.lookup k with
    | none => simp [DepClass.isAuto, h] at hk
    | some a =>
      obtain ⟨rfl, rfl⟩ := hl k a h
      exact ⟨_, List.mem_singleton_self _, rfl⟩
  exact ⟨hC, hown, rfl, read_after_settled_session hC hown 1 (fun _ => none) settledSession rfl "y"⟩

example : (readDep classADep 1 (runDep classADep 1 (fun _ => none) settledSession).2 "y").1.value =
    .ok 10 := rfl

end Nibabel.OneTime
