import ScriptHost.Proofs.Callback.Calls

/-!
# Actions that leave the tracked memory alone

An action ignores a change of the state if it makes no difference whether the change is made before
the action or after it.  What ignores every change of the tracked memory neither reads that memory
nor writes to it.  A rule is given for each of the steps of which actions are made.

## Main definitions

* `Ignores` : an action ignores a change of the state.
* `World.setMemory`, `Host.setMemory` : the world and the host with another tracked memory.

## Main results

* `ignores_bind`, `ignores_get_bind` : one action after another, and looking at the state first.
* `Native.ignores_ofAction` : an action on the world within one on the host.
-/

namespace ScriptHost

variable {σ α β : Type}

/-- An answer with the state changed. -/
def mapState (change : σ → σ) : EStateM.Result Abort σ α → EStateM.Result Abort σ α
  | .ok x s => .ok x (change s)
  | .error e s => .error e (change s)

/-- It makes no difference whether the state is changed before the action or after it. -/
def Ignores (change : σ → σ) (a : EStateM Abort σ α) : Prop :=
  ∀ s, a (change s) = mapState change (a s)

variable {change : σ → σ} {a : EStateM Abort σ α}

/-! ### Steps -/

theorem ignores_pure (x : α) : Ignores change (pure x : EStateM Abort σ α) := fun _ ↦ rfl

theorem ignores_throw (e : Abort) : Ignores change (throw e : EStateM Abort σ α) := fun _ ↦ rfl

theorem ignores_bind {f : α → EStateM Abort σ β} (ha : Ignores change a)
    (hf : ∀ x, Ignores change (f x)) : Ignores change (a >>= f) := by
  intro s
  change EStateM.bind a f (change s) = mapState change (EStateM.bind a f s)
  rw [EStateM.bind, EStateM.bind, ha s]
  cases a s with
  | ok x s => exact hf x s
  | error e s => rfl

/-- What is looked at must not be changed. -/
theorem ignores_get_bind {f : σ → EStateM Abort σ β} (hf : ∀ s, Ignores change (f s))
    (hsame : ∀ s, f (change s) = f s) : Ignores change (get >>= f) := by
  intro s
  change f (change s) (change s) = mapState change (f s s)
  rw [hsame]
  exact hf s s

theorem ignores_modify {f : σ → σ} (h : ∀ s, f (change s) = change (f s)) :
    Ignores change (modify f : EStateM Abort σ PUnit) := fun s ↦
  congrArg (EStateM.Result.ok PUnit.unit) (h s)

theorem ignores_modifyGet {f : σ → α × σ}
    (h : ∀ s, f (change s) = ((f s).1, change (f s).2)) :
    Ignores change (modifyGet f : EStateM Abort σ α) := by
  intro s
  change EStateM.Result.ok (f (change s)).1 (f (change s)).2 = .ok (f s).1 (change (f s).2)
  rw [h s]

/-! ### The world -/

/-- The world with another tracked memory. -/
def World.setMemory (memory : Tracker) (w : World) : World := { w with memory }

namespace World

variable (memory : Tracker) (w : World)

@[simp] theorem setMemory_heap : (w.setMemory memory).heap = w.heap := rfl

@[simp] theorem setMemory_memory : (w.setMemory memory).memory = memory := rfl


@[simp] theorem setMemory_files : (w.setMemory memory).files = w.files := rfl

@[simp] theorem setMemory_clock : (w.setMemory memory).clock = w.clock := rfl

@[simp] theorem setMemory_entropy : (w.setMemory memory).entropy = w.entropy := rfl

@[simp] theorem setMemory_network : (w.setMemory memory).network = w.network := rfl

@[simp] theorem setMemory_setting? (name : String) :
    (w.setMemory memory).setting? name = w.setting? name := rfl

@[simp] theorem setMemory_setMemory (memory' : Tracker) :
    (w.setMemory memory).setMemory memory' = w.setMemory memory' := rfl

end World

/-! ### The host -/

/-- The host with another tracked memory. -/
def Host.setMemory (memory : Tracker) (host : Host) : Host :=
  { host with world := host.world.setMemory memory }

namespace Native

variable {memory : Tracker}

/-- An action on the world within one on the host. -/
theorem ignores_ofAction {a : Action α} (ha : Ignores (World.setMemory memory) a) :
    Ignores (Host.setMemory memory) (ofAction a) := by
  intro host
  rw [ofAction, ofAction, Host.setMemory, ha host.world]
  cases a host.world <;> rfl

end Native

end ScriptHost
