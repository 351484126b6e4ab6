import ScriptHost.Proofs.Builtin.Panics
import ScriptHost.Proofs.Builtin.SparingActions
import ScriptHost.Proofs.Object.Slots

/-!
# Builtins that write a member

Four builtins write to objects.  Each answers with a flag: true when it has written one member of
the object passed first, and false when there was nothing that it might write, and then it has left
the heap as it was.  No other builtin changes an object that is there, whatever comes of it, unless
it runs a callback or waits for one.

## Main definitions

* `Heap.ChangesOnly` : one object of a heap changes.
* `Builtin.FlagsChange` : a flag tells whether the object passed first was changed.
* `Builtin.SetsMember`, `Builtin.ReplacesElement`, `Builtin.PushesElement` : the changes.
* `Builtins.WriteAtMostOne` : what calls by name do to objects.

## Main results

* `Builtin.flagsChange_setMember`, `Builtin.flagsChange_arraySet`,
  `Builtin.flagsChange_arrayPush` : the four builtins.
* `Builtins.writeAtMostOne_standard` : the whole table.
-/

namespace ScriptHost

/-! ### One object of a heap -/

/-- The object that a handle names is changed in this way, if there is one, and no other is. -/
structure Heap.ChangesOnly (h : Handle) (change : Object Value → Object Value → Prop)
    (heap heap' : Heap) : Prop where
  size_eq : heap'.size = heap.size
  get_eq (g : Handle) (hg : g ≠ h) : heap'.get g = heap.get g
  changed (hh : h.index < heap.size) : change (heap.get h) (heap'.get h)

/-- Replacing an object changes it only. -/
theorem Heap.changesOnly_write {heap : Heap} {h : Handle}
    {change : Object Value → Object Value → Prop} {o : Object Value}
    (ho : change (heap.get h) o) : heap.ChangesOnly h change (heap.write h o) where
  size_eq := Array.size_setIfInBounds
  get_eq _ hg := get_write_of_ne hg
  changed hh := by rwa [get_write_self hh]

namespace Builtin

/-! ### Flags -/

/-- What comes of a flag that changes the object passed first, where `change` tells which changes
the arguments ask for: it is true and the object was so changed, or it is false, no such change can
be made and the heap is as it was. -/
inductive FlagsChange (change : List Value → Object Value → Object Value → Prop)
    (args : List Value) (host : Host) : EStateM.Result Abort Host Value → Prop
  | changed {h : Handle} {host' : Host} (hfirst : arg args 0 = .object h)
      (honly : host.world.heap.ChangesOnly h (change args) host'.world.heap) :
      FlagsChange change args host (.ok (.boolean true) host')
  | unchanged {host' : Host} (hheap : host'.world.heap = host.world.heap)
      (hnone : ∀ h, arg args 0 = .object h → ∀ o, ¬change args (host.world.heap.get h) o) :
      FlagsChange change args host (.ok (.boolean false) host')

/-- The member named second has the value passed third. -/
def SetsMember (args : List Value) (o p : Object Value) : Prop :=
  ∃ name, arg args 1 = .string name ∧ Object.WritesOne name (arg args 2) o p

/-- The member at the position passed second has the value passed third, and there are as many
members as before. -/
def ReplacesElement (args : List Value) (o p : Object Value) : Prop :=
  p.size = o.size ∧
    ∃ i name, index? (arg args 1) = some i ∧ Object.Replaces i name (arg args 2) o p

/-- The member named after how many there are has the value passed second. -/
def PushesElement (args : List Value) (o p : Object Value) : Prop :=
  Object.WritesOne (indexKey o.size) (arg args 1) o p

variable (args : List Value) (host : Host)

theorem flagsChange_setMember :
    FlagsChange SetsMember args host (ofAction setMember args host) := by
  change FlagsChange SetsMember args host (Native.ofAction (setMember args) host)
  unfold setMember
  split
  · rename_i h name hobject hname
    exact .changed hobject
      (Heap.changesOnly_write ⟨name, hname, Object.writesOne_set _ name (arg args 2)⟩)
  · rename_i hnot
    exact .unchanged rfl fun h hobject _ ⟨name, hname, _⟩ ↦ hnot h name hobject hname

theorem flagsChange_arrayPush :
    FlagsChange PushesElement args host (ofAction arrayPush args host) := by
  change FlagsChange PushesElement args host (Native.ofAction (arrayPush args) host)
  unfold arrayPush
  split
  · rename_i h hobject
    exact .changed hobject (Heap.changesOnly_write (Object.writesOne_set _ _ (arg args 1)))
  · rename_i hnot
    exact .unchanged rfl fun h hobject ↦ absurd hobject (hnot h)

/-- A position at which there is no element is refused. -/
theorem flagsChange_arraySet :
    FlagsChange ReplacesElement args host (ofAction arraySet args host) := by
  change FlagsChange ReplacesElement args host (Native.ofAction (arraySet args) host)
  unfold arraySet
  split
  · rename_i h i hobject hindex
    rw [Native.ofAction_onHeap]
    cases hreplace : (host.world.heap.get h).replaceAt i (arg args 2) with
    | some o =>
      obtain ⟨name, hreplaces⟩ := Object.replaces_replaceAt hreplace
      exact .changed hobject
        (Heap.changesOnly_write ⟨hreplaces.size_eq, i, name, hindex, hreplaces⟩)
    | none =>
      refine .unchanged rfl fun g hobject' o ⟨_, j, name, hindex', hreplaces⟩ ↦ ?_
      obtain rfl := Value.object.inj (hobject.symm.trans hobject')
      obtain rfl := Option.some.inj (hindex.symm.trans hindex')
      exact Object.not_replaces_of_replaceAt_eq_none hreplace hreplaces
  · rename_i hnot
    exact .unchanged rfl fun h hobject _ ⟨_, i, _, hindex, _⟩ ↦ hnot h i hobject hindex

/-! ### The other builtins -/

/-- The builtins that run callbacks of the program or wait for them. -/
def callbackRunners : List String := ["thread_spawn", "thread_join", "blaze_run"]

theorem heap_extends_threadDetach :
    host.world.heap.Extends (stateAfter (threadDetach args) host).world.heap := by
  unfold threadDetach
  split
  · exact .refl host.world.heap
  · exact (sparing_rejected "thread_detach").heap_extends host.world

theorem heap_extends_of_mem_standard {name : String} {f : Builtin} (hf : (name, f) ∈ standard)
    (hwriter : name ∉ memberWriters) (hcallback : name ∉ callbackRunners) :
    host.world.heap.Extends (stateAfter (f args) host).world.heap := by
  rcases List.mem_append.1 hf with hf | hf
  · obtain ⟨⟨_, g⟩, hg, heq⟩ := List.mem_map.1 hf
    obtain ⟨rfl, rfl⟩ := Prod.mk.inj heq
    change host.world.heap.Extends (stateAfter (Native.ofAction (g args)) host).world.heap
    rw [Native.stateAfter_ofAction]
    exact (sparing_of_mem_standardActions _ hg hwriter args).heap_extends host.world
  · simp only [standardNatives, List.mem_cons, Prod.mk.injEq, List.not_mem_nil, or_false] at hf
    rcases hf with ⟨rfl, -⟩ | ⟨rfl, -⟩ | ⟨rfl, -⟩ | ⟨-, rfl⟩
    · exact absurd (by decide) hcallback
    · exact absurd (by decide) hcallback
    · exact absurd (by decide) hcallback
    · exact heap_extends_threadDetach args host

end Builtin

/-! ### Calls by name -/

namespace Builtins

open Builtin

/-- What calls by name do to objects: those under four names write one member of the object passed
first or nothing, and those under others leave every object as it is, whatever comes of them, save
where callbacks run. -/
structure WriteAtMostOne (run : String → Builtin) : Prop where
  jsonSet (args : List Value) (host : Host) :
    FlagsChange SetsMember args host (run "json_set" args host)
  setMember (args : List Value) (host : Host) :
    FlagsChange SetsMember args host (run "s_set_member" args host)
  arraySet (args : List Value) (host : Host) :
    FlagsChange ReplacesElement args host (run "sjson_arr_set" args host)
  arrayPush (args : List Value) (host : Host) :
    FlagsChange PushesElement args host (run "sjson_arr_push" args host)
  others {name : String} (hwriter : name ∉ memberWriters) (hcallback : name ∉ callbackRunners)
    (args : List Value) (host : Host) :
    host.world.heap.Extends (stateAfter (run name args) host).world.heap

variable {name : String} {f : Builtin}

theorem tryCall_standard_of_eq (hf : Builtin.standard.reverse.lookup name = some f) :
    standard.tryCall name = f := by
  funext args
  rw [tryCall, get?_standard, hf]

theorem writeAtMostOne_tryCall_standard : WriteAtMostOne standard.tryCall where
  jsonSet args host := by
    rw [tryCall_standard_of_eq rfl]
    exact flagsChange_setMember args host
  setMember args host := by
    rw [tryCall_standard_of_eq rfl]
    exact flagsChange_setMember args host
  arraySet args host := by
    rw [tryCall_standard_of_eq rfl]
    exact flagsChange_arraySet args host
  arrayPush args host := by
    rw [tryCall_standard_of_eq rfl]
    exact flagsChange_arrayPush args host
  others {name} hwriter hcallback args host := by
    unfold tryCall
    split
    · rename_i f hf
      exact heap_extends_of_mem_standard args host (mem_of_get?_standard hf) hwriter hcallback
    · exact .refl host.world.heap

/-- A failure is logged, and that is all that becomes of it. -/
theorem heap_stateAfter_call (builtins : Builtins) (name : String) (args : List Value)
    (host : Host) :
    (stateAfter (builtins.call name args) host).world.heap =
      (stateAfter (builtins.tryCall name args) host).world.heap := by
  unfold stateAfter call
  rcases builtins.tryCall name args host with ⟨v, host'⟩ | ⟨⟨message⟩ | _, host'⟩ <;> rfl

/-- A flag that is called gives its answer. -/
theorem flagsChange_call {builtins : Builtins}
    {change : List Value → Object Value → Object Value → Prop} {args : List Value} {host : Host}
    (h : FlagsChange change args host (builtins.tryCall name args host)) :
    FlagsChange change args host (builtins.call name args host) := by
  unfold Builtins.call
  generalize builtins.tryCall name args host = answer at h ⊢
  cases h with
  | changed hfirst honly => exact .changed hfirst honly
  | unchanged hheap hnone => exact .unchanged hheap hnone

theorem WriteAtMostOne.call {builtins : Builtins} (h : WriteAtMostOne builtins.tryCall) :
    WriteAtMostOne builtins.call where
  jsonSet args host := flagsChange_call (h.jsonSet args host)
  setMember args host := flagsChange_call (h.setMember args host)
  arraySet args host := flagsChange_call (h.arraySet args host)
  arrayPush args host := flagsChange_call (h.arrayPush args host)
  others hwriter hcallback args host := by
    rw [heap_stateAfter_call]
    exact h.others hwriter hcallback args host

/-- The builtins that write to objects change one member of the object passed first and answer true,
or change nothing and answer false; all others leave every object as it is, save where callbacks
run.  This holds for any heap and any arguments, also of too few arguments, and where the value that
is written is the object itself. -/
theorem writeAtMostOne_standard :
    WriteAtMostOne standard.tryCall ∧ WriteAtMostOne standard.call :=
  ⟨writeAtMostOne_tryCall_standard, writeAtMostOne_tryCall_standard.call⟩

end Builtins

end ScriptHost
