import Mathlib.Tactic.Common
import Mathlib.Tactic.Tauto
import ScriptHost.Builtin.Arguments
import ScriptHost.Host

/-!
# Actions that do not panic

What an action needs so as not to panic, worked out from its end backwards: a rule for each of the
steps of which actions are made turns the question into one about the steps before.  What is asked
of the answer is carried along, so that a check of the arguments is remembered where one of them is
taken.

## Main definitions

* `NoPanic` : from a state, an action does not panic, and something holds of its answer.

## Main results

* `noPanic_bind` : one action after another.
* `Builtin.noPanic_expect`, `Builtin.noPanic_argument` : checking and taking an argument.
-/

namespace ScriptHost

variable {σ α β : Type}

/-- From the state `s`, an action does not panic, and `post` holds of its answer and of the state
that it leaves. -/
def NoPanic (a : EStateM Abort σ α) (s : σ) (post : α → σ → Prop) : Prop :=
  match a s with
  | .ok x s => post x s
  | .error (.failed _) _ => True
  | .error .panicked _ => False

variable {a : EStateM Abort σ α} {s : σ} {post : α → σ → Prop}

/-- An action that does not panic may be asked for less. -/
theorem NoPanic.mono {post' : α → σ → Prop} (h : NoPanic a s post)
    (hpost : ∀ x s, post x s → post' x s) : NoPanic a s post' := by
  unfold NoPanic at h ⊢
  split at h
  · exact hpost _ _ h
  · exact h
  · exact h

/-- An action panics, or nothing is wrong with it. -/
theorem noPanic_true_iff : NoPanic a s (fun _ _ ↦ True) ↔ ¬∃ s', a s = .error .panicked s' := by
  unfold NoPanic
  rcases a s with ⟨x, s'⟩ | ⟨⟨m⟩ | _, s'⟩ <;> simp

/-! ### Steps -/

@[simp]
theorem noPanic_pure (x : α) : NoPanic (pure x : EStateM Abort σ α) s post ↔ post x s := Iff.rfl

/-- What the second action needs is what the first one has to leave. -/
@[simp]
theorem noPanic_bind (f : α → EStateM Abort σ β) {post : β → σ → Prop} :
    NoPanic (a >>= f) s post ↔ NoPanic a s fun x s ↦ NoPanic (f x) s post := by
  have hbind : (a >>= f) s = EStateM.bind a f s := rfl
  unfold NoPanic
  rw [hbind, EStateM.bind]
  rcases a s with ⟨x, s'⟩ | ⟨⟨m⟩ | _, s'⟩ <;> rfl

@[simp]
theorem noPanic_map (f : α → β) {post : β → σ → Prop} :
    NoPanic (f <$> a) s post ↔ NoPanic a s fun x ↦ post (f x) := by
  rw [← bind_pure_comp, noPanic_bind]
  rfl

@[simp]
theorem noPanic_get {post : σ → σ → Prop} :
    NoPanic (get : EStateM Abort σ σ) s post ↔ post s s := Iff.rfl

@[simp]
theorem noPanic_modify (f : σ → σ) {post : PUnit → σ → Prop} :
    NoPanic (modify f : EStateM Abort σ PUnit) s post ↔ post ⟨⟩ (f s) := Iff.rfl

@[simp]
theorem noPanic_modifyGet (f : σ → α × σ) :
    NoPanic (modifyGet f : EStateM Abort σ α) s post ↔ post (f s).1 (f s).2 := Iff.rfl

@[simp]
theorem noPanic_failed (message : String) :
    NoPanic (throw (.failed message) : EStateM Abort σ α) s post := True.intro

/-- One after another of the same kind. -/
theorem noPanic_mapM {γ : Type} {f : γ → EStateM Abort σ β}
    (hf : ∀ x s, NoPanic (f x) s fun _ _ ↦ True) (xs : List γ) (s : σ) :
    NoPanic (xs.mapM f) s fun _ _ ↦ True := by
  induction xs generalizing s with
  | nil => simp
  | cons x xs ih =>
    rw [List.mapM_cons, noPanic_bind]
    refine (hf x s).mono fun y s _ ↦ ?_
    simpa using ih s

/-- Of an action after which nothing matters, no more is asked. -/
theorem NoPanic.bind {f : α → EStateM Abort σ β} {post : β → σ → Prop}
    (h : NoPanic a s fun _ _ ↦ True) (hf : ∀ x s, NoPanic (f x) s post) :
    NoPanic (a >>= f) s post :=
  (noPanic_bind f).2 (h.mono fun x s _ ↦ hf x s)

/-! ### Actions on the world -/

namespace Action

variable {w : World} {post : α → World → Prop}

@[simp]
theorem noPanic_fail (message : String) : NoPanic (fail message : Action α) w post := True.intro

@[simp]
theorem not_noPanic_panic : ¬NoPanic (panic : Action α) w post := id

@[simp]
theorem noPanic_log (level : Log.Level) (source : Log.Source) (message : String)
    {post : Unit → World → Prop} :
    NoPanic (log level source message) w post ↔
      post () { w with log := w.log.push ⟨level, source, message⟩ } := Iff.rfl

@[simp]
theorem noPanic_inspect (f : Heap → α) : NoPanic (inspect f) w post ↔ post (f w.heap) w := Iff.rfl

@[simp]
theorem noPanic_onHeap (f : Heap → α × Heap) :
    NoPanic (onHeap f) w post ↔ post (f w.heap).1 { w with heap := (f w.heap).2 } := Iff.rfl

@[simp]
theorem noPanic_make (o : Object Value) {post : Value → World → Prop} :
    NoPanic (make o) w post ↔
      post (.object (w.heap.alloc o).1) { w with heap := (w.heap.alloc o).2 } := Iff.rfl

@[simp]
theorem noPanic_print (text : String) {post : Unit → World → Prop} :
    NoPanic (print text) w post ↔ post () { w with printed := w.printed ++ text } := Iff.rfl

/-- A variable that the system takes can be set. -/
@[simp]
theorem noPanic_setVariable {name value : String} {post : Unit → World → Prop} :
    NoPanic (setVariable name value) w post ↔
      (name ≠ "" ∧ '=' ∉ name.toList ∧ '\x00' ∉ name.toList ∧ '\x00' ∉ value.toList) ∧
        post () { w with environment := Members.put name value w.environment } := by
  unfold setVariable
  split_ifs with h
  · simp only [not_noPanic_panic, false_iff]
    tauto
  · rw [noPanic_modify]
    tauto

end Action

/-- What an action on the world needs, seen from the host. -/
@[simp]
theorem Native.noPanic_ofAction (a : Action α) {host : Host} {post : α → Host → Prop} :
    NoPanic (Native.ofAction a) host post ↔
      NoPanic a host.world fun x w ↦ post x { host with world := w } := by
  unfold NoPanic Native.ofAction
  rcases a host.world with ⟨x, w⟩ | ⟨⟨m⟩ | _, w⟩ <;> rfl

/-! ### Arguments -/

namespace Builtin

variable {w : World} {args : List Value}

@[simp]
theorem noPanic_expect (name : String) (n : Nat) {post : Unit → World → Prop} :
    NoPanic (expect name args n) w post ↔ (n ≤ args.length → post () w) := by
  unfold expect
  by_cases h : args.length < n
  · rw [if_pos h]
    exact iff_of_true True.intro fun hle ↦ absurd hle (Nat.not_le.2 h)
  · rw [if_neg h, noPanic_pure, forall_prop_of_true (Nat.not_lt.1 h)]

/-- An argument may be taken if it is there. -/
@[simp]
theorem noPanic_argument (i : Nat) {post : Value → World → Prop} :
    NoPanic (argument args i) w post ↔ i < args.length ∧ post (arg args i) w := by
  unfold argument arg
  by_cases h : i < args.length
  · simp [h]
  · simp [h]

/-- After the check for one argument it is there. -/
theorem noPanic_expect_one {α : Type} {name : String} {f : Unit → Action α}
    {post : α → World → Prop} (hf : 0 < args.length → NoPanic (f ()) w post) :
    NoPanic (expect name args 1 >>= f) w post :=
  (noPanic_bind f).2 ((noPanic_expect name 1).2 hf)

/-- After the check for two arguments they are there. -/
theorem noPanic_expect_two {α : Type} {name : String} {f : Unit → Action α}
    {post : α → World → Prop}
    (hf : 0 < args.length → 1 < args.length → NoPanic (f ()) w post) :
    NoPanic (expect name args 2 >>= f) w post :=
  (noPanic_bind f).2 ((noPanic_expect name 2).2 fun h ↦ hf (Nat.zero_lt_of_lt h) h)

@[simp]
theorem noPanic_toText (v : Value) {post : String → World → Prop} :
    NoPanic (toText v) w post ↔ ∀ s, v = .string s → post s w := by
  cases v <;> simp [toText]

@[simp]
theorem noPanic_toNumber (v : Value) {post : Double → World → Prop} :
    NoPanic (toNumber v) w post ↔ ∀ n, v = .number n → post n w := by
  cases v <;> simp [toNumber]

@[simp]
theorem noPanic_toIndex (v : Value) {post : Nat → World → Prop} :
    NoPanic (toIndex v) w post ↔ ∀ i, index? v = some i → post i w := by
  unfold toIndex
  cases v with
  | number n => cases hn : n.floor? <;> simp [index?, hn]
  | _ => simp [index?]

@[simp]
theorem noPanic_rejected (name : String) {post : Value → World → Prop} :
    NoPanic (rejected name) w post ↔ post (.boolean false)
      { w with log := w.log.push ⟨.debug, .arguments, name ++ ": Bad arguments"⟩ } := Iff.rfl

end Builtin

end ScriptHost
