import ScriptHost.Proofs.Builtin.Panics
import ScriptHost.Proofs.Builtin.SparingActions

/-!
# Builtins leave the tracked memory alone

None of the standard builtins reads the tracked memory or writes to it, save that the two that run
callbacks do what the callbacks do.

## Main definitions

* `Builtin.RunsCallbacks` : the names of these two.

## Main results

* `Builtin.ignores_of_mem_standardActions` : the builtins on the world.
* `Builtins.ignores_call_standard` : calls by name.
-/

namespace ScriptHost

namespace Builtin

variable {memory : Tracker} (args : List Value)

/-! ### The builtins on the world -/

@[simp]
theorem ignores_setMember : Ignores (World.setMemory memory) (setMember args) := by
  unfold setMember
  split
  · exact fun _ ↦ rfl
  · exact ignores_pure _

@[simp]
theorem ignores_arraySet : Ignores (World.setMemory memory) (arraySet args) := by
  unfold arraySet
  split
  · exact fun _ ↦ rfl
  · exact (sparing_rejected _).ignores memory

@[simp]
theorem ignores_arrayPush : Ignores (World.setMemory memory) (arrayPush args) := by
  unfold arrayPush
  split
  · exact fun _ ↦ rfl
  · exact (sparing_rejected _).ignores memory

/-- The builtins that write a member leave the memory alone. -/
theorem ignores_of_mem_memberWriters : ∀ f ∈ standardActions, f.1 ∈ memberWriters →
    ∀ args, Ignores (World.setMemory memory) (f.2 args) := by
  simp [standardActions, memberWriters]

/-- The builtins on the world leave the memory alone. -/
theorem ignores_of_mem_standardActions {f : String × (List Value → Action Value)}
    (hf : f ∈ standardActions) : Ignores (World.setMemory memory) (f.2 args) := by
  by_cases hwriter : f.1 ∈ memberWriters
  · exact ignores_of_mem_memberWriters f hf hwriter args
  · exact (sparing_of_mem_standardActions f hf hwriter args).ignores memory

/-! ### The builtins that need the host -/

/-- The builtins that run callbacks of the program. -/
def RunsCallbacks (name : String) : Prop := name = "blaze_run" ∨ name = "thread_spawn"

instance : DecidablePred RunsCallbacks := fun _ ↦ inferInstanceAs (Decidable (_ ∨ _))

/-- A sparing action on the world within one on the host. -/
theorem ignores_liftM {α : Type} {a : Action α} (ha : Sparing a) :
    Ignores (Host.setMemory memory) (liftM a : Native α) :=
  Native.ignores_ofAction (ha.ignores memory)

theorem ignores_takeThread (handle : String) :
    Ignores (Host.setMemory memory) (takeThread handle) :=
  ignores_modifyGet fun _ ↦ rfl

theorem ignores_threadJoin : Ignores (Host.setMemory memory) (threadJoin args) := by
  refine ignores_bind (ignores_liftM (sparing_expect _ _)) fun _ ↦ ?_
  refine ignores_bind (ignores_liftM (sparing_argument 0)) fun v ↦ ?_
  refine ignores_bind (ignores_liftM (sparing_toText v)) fun handle ↦ ?_
  refine ignores_bind (ignores_takeThread handle) fun outcome? ↦ ?_
  split
  · exact ignores_pure _
  · exact ignores_pure _
  · exact ignores_bind (ignores_liftM (Action.sparing_log _ _ _)) fun _ ↦ ignores_pure _

theorem ignores_threadDetach : Ignores (Host.setMemory memory) (threadDetach args) := by
  unfold threadDetach
  split
  · exact ignores_bind (ignores_takeThread _) fun _ ↦ ignores_pure _
  · exact ignores_liftM (sparing_rejected _)

theorem ignores_of_mem_standard {name : String} {f : Builtin} (hf : (name, f) ∈ standard)
    (hname : ¬RunsCallbacks name) : Ignores (Host.setMemory memory) (f args) := by
  rcases List.mem_append.1 hf with hf | hf
  · obtain ⟨⟨_, g⟩, hg, heq⟩ := List.mem_map.1 hf
    obtain ⟨rfl, rfl⟩ := Prod.mk.inj heq
    exact Native.ignores_ofAction (ignores_of_mem_standardActions args hg)
  · simp only [standardNatives, List.mem_cons, Prod.mk.injEq, List.not_mem_nil, or_false] at hf
    rcases hf with ⟨rfl, -⟩ | ⟨rfl, -⟩ | ⟨-, rfl⟩ | ⟨-, rfl⟩
    · exact absurd (.inl rfl) hname
    · exact absurd (.inr rfl) hname
    · exact ignores_threadJoin args
    · exact ignores_threadDetach args

end Builtin

namespace Builtins

variable {memory : Tracker} {name : String}

/-- A failure is logged without the memory. -/
theorem ignores_call {builtins : Builtins} {args : List Value}
    (h : Ignores (Host.setMemory memory) (builtins.tryCall name args)) :
    Ignores (Host.setMemory memory) (builtins.call name args) := by
  intro host
  rw [call, call, h host]
  rcases builtins.tryCall name args host with ⟨v, host⟩ | ⟨⟨message⟩ | _, host⟩ <;> rfl

/-- Calls by name leave the memory alone, also those of names under which there is nothing. -/
theorem ignores_call_standard (hname : ¬Builtin.RunsCallbacks name) (args : List Value) :
    Ignores (Host.setMemory memory) (standard.call name args) := by
  refine ignores_call ?_
  unfold tryCall
  split
  · rename_i f hf
    exact Builtin.ignores_of_mem_standard args (mem_of_get?_standard hf) hname
  · exact ignores_throw _

end Builtins

end ScriptHost
