import Mathlib.Tactic.SplitIfs
import ScriptHost.Builtin.Arguments
import ScriptHost.Proofs.Foreign.Frame
import ScriptHost.Proofs.Tree.Realization

/-!
# Actions that leave objects as they are

A sparing action makes new objects at most: those that were there stay as they are, whatever comes
of it, and the tracked memory is neither read nor written.  Actions that are put together from
sparing ones are sparing, so a rule is given for each of the steps of which actions are made.

## Main definitions

* `stateAfter` : the state that an action leaves.
* `Sparing` : an action leaves objects and the tracked memory alone.

## Main results

* `sparing_bind`, `sparing_get_bind` : one action after another, and looking at the state first.
* `Action.sparing_onHeap` : work on the heap that only adds to it.
* `Builtin.sparing_one`, `Builtin.sparing_two` : an action after a check of its arguments.
-/

namespace ScriptHost

variable {σ α β : Type}

/-- The state that an action leaves, whether it gives a value or not. -/
def stateAfter (a : EStateM Abort σ α) (s : σ) : σ :=
  match a s with
  | .ok _ s => s
  | .error _ s => s

/-- What one action after another leaves. -/
theorem stateAfter_bind (a : EStateM Abort σ α) (f : α → EStateM Abort σ β) (s : σ) :
    stateAfter (a >>= f) s = stateAfter a s ∨
      ∃ x, stateAfter (a >>= f) s = stateAfter (f x) (stateAfter a s) := by
  have hbind : (a >>= f) s = EStateM.bind a f s := rfl
  unfold stateAfter
  rw [hbind, EStateM.bind]
  cases a s with
  | ok x s => exact .inr ⟨x, rfl⟩
  | error e s => exact .inl rfl

/-- What an action on the world leaves of the host. -/
theorem Native.stateAfter_ofAction (a : Action α) (host : Host) :
    stateAfter (ofAction a) host = { host with world := stateAfter a host.world } := by
  unfold stateAfter ofAction
  cases a host.world <;> rfl

/-- Work on the heap, seen from the host. -/
theorem Native.ofAction_onHeap (f : Heap → α × Heap) (host : Host) :
    ofAction (Action.onHeap f) host =
      .ok (f host.world.heap).1
        { host with world := { host.world with heap := (f host.world.heap).2 } } := rfl

/-- An action makes new objects at most, and leaves the tracked memory alone. -/
structure Sparing (a : Action α) : Prop where
  ignores (memory : Tracker) : Ignores (World.setMemory memory) a
  heap_extends (w : World) : w.heap.Extends (stateAfter a w).heap

variable {a : Action α}

/-! ### Steps -/

theorem sparing_pure (x : α) : Sparing (pure x) :=
  ⟨fun _ ↦ ignores_pure x, fun w ↦ .refl w.heap⟩

theorem sparing_throw (e : Abort) : Sparing (throw e : Action α) :=
  ⟨fun _ ↦ ignores_throw e, fun w ↦ .refl w.heap⟩

theorem sparing_bind {f : α → Action β} (ha : Sparing a) (hf : ∀ x, Sparing (f x)) :
    Sparing (a >>= f) where
  ignores memory := ignores_bind (ha.ignores memory) fun x ↦ (hf x).ignores memory
  heap_extends w := by
    have hfirst := ha.heap_extends w
    obtain hafter | ⟨x, hafter⟩ := stateAfter_bind a f w
    · rwa [hafter]
    · rw [hafter]
      exact hfirst.trans ((hf x).heap_extends _)

theorem sparing_map {f : α → β} (ha : Sparing a) : Sparing (f <$> a) := by
  rw [← bind_pure_comp]
  exact sparing_bind ha fun x ↦ sparing_pure (f x)

/-- What is looked at must not be the tracked memory. -/
theorem sparing_get_bind {f : World → Action β} (hf : ∀ w, Sparing (f w))
    (hsame : ∀ memory w, f (w.setMemory memory) = f w) : Sparing (get >>= f) :=
  ⟨fun memory ↦ ignores_get_bind (fun w ↦ (hf w).ignores memory) (hsame memory),
    fun w ↦ (hf w).heap_extends w⟩

/-- What is modified must be neither the tracked memory nor the heap. -/
theorem sparing_modify {f : World → World}
    (hmemory : ∀ memory w, f (w.setMemory memory) = (f w).setMemory memory)
    (hheap : ∀ w, (f w).heap = w.heap) : Sparing (modify f) where
  ignores memory := ignores_modify (hmemory memory)
  heap_extends w := by
    have hafter : stateAfter (modify f : Action PUnit) w = f w := rfl
    rw [hafter, hheap]
    exact .refl w.heap

/-- One after another of the same kind. -/
theorem sparing_mapM {γ : Type} {f : γ → Action β} (hf : ∀ x, Sparing (f x)) (xs : List γ) :
    Sparing (xs.mapM f) := by
  induction xs with
  | nil => exact sparing_pure []
  | cons x xs ih =>
    rw [List.mapM_cons]
    exact sparing_bind (hf x) fun y ↦ sparing_bind ih fun ys ↦ sparing_pure (y :: ys)

/-- A look at something other than the tracked memory. -/
theorem sparing_look {f : World → α} (hsame : ∀ memory w, f (w.setMemory memory) = f w) :
    Sparing (do return f (← get)) :=
  sparing_get_bind (fun _ ↦ sparing_pure _) fun memory w ↦ congrArg pure (hsame memory w)

/-! ### Actions on the world -/

namespace Action

theorem sparing_fail (message : String) : Sparing (fail message : Action α) := sparing_throw _

theorem sparing_panic : Sparing (panic : Action α) := sparing_throw _

theorem sparing_log (level : Log.Level) (source : Log.Source) (message : String) :
    Sparing (log level source message) := sparing_modify (fun _ _ ↦ rfl) fun _ ↦ rfl

theorem sparing_inspect (f : Heap → α) : Sparing (inspect f) := sparing_look fun _ _ ↦ rfl

/-- Work on the heap that leaves the objects of the heap as they are. -/
theorem sparing_onHeap {f : Heap → α × Heap} (hf : ∀ heap : Heap, heap.Extends (f heap).2) :
    Sparing (onHeap f) :=
  ⟨fun _ ↦ ignores_modifyGet fun _ ↦ rfl, fun w ↦ hf w.heap⟩

theorem sparing_make (o : Object Value) : Sparing (make o) :=
  sparing_onHeap fun heap ↦ heap.extends_alloc o

theorem sparing_print (text : String) : Sparing (print text) :=
  sparing_modify (fun _ _ ↦ rfl) fun _ ↦ rfl

theorem sparing_setVariable (name value : String) : Sparing (setVariable name value) := by
  unfold setVariable
  split_ifs
  · exact sparing_panic
  · exact sparing_modify (fun _ _ ↦ rfl) fun _ ↦ rfl

end Action

/-! ### Arguments -/

namespace Builtin

variable {args : List Value} {name : String} {n : Nat}

theorem sparing_expect (name : String) (n : Nat) : Sparing (expect name args n) := by
  unfold expect
  split
  · exact Action.sparing_fail _
  · exact sparing_pure ()

theorem sparing_argument (i : Nat) : Sparing (argument args i) := by
  unfold argument
  split
  · exact sparing_pure _
  · exact Action.sparing_panic

theorem sparing_toText (v : Value) : Sparing (toText v) := by
  cases v with
  | string s => exact sparing_pure s
  | _ => exact sparing_get_bind (fun _ ↦ Action.sparing_fail _) fun _ _ ↦ rfl

theorem sparing_toNumber (v : Value) : Sparing (toNumber v) := by
  cases v with
  | number n => exact sparing_pure n
  | _ => exact sparing_get_bind (fun _ ↦ Action.sparing_fail _) fun _ _ ↦ rfl

theorem sparing_toIndex (v : Value) : Sparing (toIndex v) := by
  refine sparing_bind (sparing_toNumber v) fun n ↦ ?_
  split
  · exact sparing_pure _
  · exact Action.sparing_fail _

theorem sparing_rejected (name : String) : Sparing (rejected name) :=
  sparing_bind (Action.sparing_log _ _ _) fun _ ↦ sparing_pure _

/-- A check and one argument. -/
theorem sparing_one {f : Value → Action α} (hf : ∀ v, Sparing (f v)) :
    Sparing (do expect name args n; f (← argument args 0)) :=
  sparing_bind (sparing_expect name n) fun _ ↦ sparing_bind (sparing_argument 0) hf

/-- A check and two arguments. -/
theorem sparing_two {f : Value → Value → Action α} (hf : ∀ u v, Sparing (f u v)) :
    Sparing (do expect name args n; let u ← argument args 0; let v ← argument args 1; f u v) :=
  sparing_one fun u ↦ sparing_bind (sparing_argument 1) (hf u)

/-- A check and one argument that must be a string. -/
theorem sparing_oneText {f : String → Action α} (hf : ∀ s, Sparing (f s)) :
    Sparing (do expect name args n; f (← toText (← argument args 0))) :=
  sparing_one fun v ↦ sparing_bind (sparing_toText v) hf

/-- A check and two arguments that must be strings. -/
theorem sparing_twoTexts {f : String → String → Action α} (hf : ∀ s t, Sparing (f s t)) :
    Sparing (do
      expect name args n
      let s ← toText (← argument args 0)
      let t ← toText (← argument args 1)
      f s t) :=
  sparing_oneText fun s ↦ sparing_bind (sparing_argument 1) fun v ↦
    sparing_bind (sparing_toText v) (hf s)

end Builtin

end ScriptHost
