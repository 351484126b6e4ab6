import Mathlib.Data.List.Basic
import Mathlib.Tactic.Common
import ScriptHost.Builtin.Registry
import ScriptHost.Callbacks

/-!
# What is registered

A table of operations answers with what was registered last under a name.  A table of callbacks, in
whatever order functions were bound and unbound, has valid names only.

## Main definitions

* `Registry.Indexed` : the index of a table points to entries of the names it is asked for.
* `Callbacks.Reached` : the tables that binding and unbinding lead to.

## Main results

* `Registry.get?_registerAll` : what is found in a table.
* `Callbacks.Reached.isValidName` : the names in a table of callbacks are valid.
-/

namespace ScriptHost

namespace Registry

variable {β : Type} {r : Registry β}

/-- The index points to entries of the names it is asked for. -/
def Indexed (r : Registry β) : Prop :=
  ∀ (name : String) (i : Nat), r.positions[name]? = some i → ∃ f, r.entries[i]? = some (name, f)

theorem indexed_empty : (empty : Registry β).Indexed := by
  intro name i h
  simp [empty] at h

/-- Registering an operation keeps the index. -/
theorem Indexed.register (h : r.Indexed) (name : String) (f : β) : (r.register name f).Indexed := by
  intro k j hj
  unfold Registry.register at hj ⊢
  split at hj
  · rename_i i hi
    obtain ⟨g, hg⟩ := h k j hj
    by_cases hij : i = j
    · exact ⟨f, by simp [Array.getElem?_modify, hij, hg]⟩
    · exact ⟨g, by simp [Array.getElem?_modify, hij, hg]⟩
  · rw [Std.HashMap.getElem?_insert] at hj
    split_ifs at hj with hk
    · obtain rfl := Option.some.inj hj
      obtain rfl : name = k := by simpa using hk
      exact ⟨f, by simp⟩
    · obtain ⟨g, hg⟩ := h k j hj
      have hlt : j < r.entries.size := (Array.getElem?_eq_some_iff.1 hg).1
      exact ⟨g, by simp [Array.getElem?_push, Nat.ne_of_lt hlt, hg]⟩

/-- What is found after an operation was registered. -/
theorem get?_register (h : r.Indexed) (name : String) (f : β) (k : String) :
    (r.register name f).get? k = if k = name then some f else r.get? k := by
  unfold Registry.register get?
  split
  · rename_i i hi
    obtain ⟨g, hg⟩ := h name i hi
    by_cases hk : k = name
    · subst hk
      simp [hi, Array.getElem?_modify, hg]
    · rw [if_neg hk]
      cases hj : r.positions[k]? with
      | none => simp
      | some j =>
        obtain ⟨g', hg'⟩ := h k j hj
        have hij : i ≠ j := by
          rintro rfl
          rw [hg] at hg'
          exact hk (congrArg Prod.fst (Option.some.inj hg')).symm
        simp [Array.getElem?_modify, hij]
  · by_cases hk : k = name
    · subst hk
      simp
    · rw [if_neg hk, Std.HashMap.getElem?_insert, if_neg (by simpa using Ne.symm hk)]
      cases hj : r.positions[k]? with
      | none => rfl
      | some j =>
        obtain ⟨g, hg⟩ := h k j hj
        have hlt : j < r.entries.size := (Array.getElem?_eq_some_iff.1 hg).1
        simp [Array.getElem?_push, Nat.ne_of_lt hlt]

/-- What is found after operations were registered: the last one of that name. -/
theorem get?_registerAll (h : r.Indexed) (fs : List (String × β)) (k : String) :
    (r.registerAll fs).get? k = (fs.reverse.lookup k).or (r.get? k) := by
  induction fs generalizing r with
  | nil => rfl
  | cons f fs ih =>
    have hstep : r.registerAll (f :: fs) = (r.register f.1 f.2).registerAll fs := rfl
    rw [hstep, ih (h.register f.1 f.2), get?_register h, List.reverse_cons, List.lookup_append,
      Option.or_assoc]
    congr 1
    rw [List.lookup_cons, List.lookup_nil]
    by_cases hk : k = f.1
    · simp [hk]
    · simp [hk, beq_eq_false_iff_ne.2 hk]

theorem get?_registerAll_empty (history : List (String × β)) (name : String) :
    (empty.registerAll history).get? name = history.reverse.lookup name := by
  rw [get?_registerAll indexed_empty, get?, empty, Std.HashMap.getElem?_empty, Option.bind_none,
    Option.or_none]

end Registry

namespace Callbacks

/-- The tables that binding and unbinding functions lead to. -/
inductive Reached : Callbacks → Prop
  | empty : Reached .empty
  | register {cs cs' : Callbacks} {name : String} {cb : Callback} (h : Reached cs)
      (hregister : cs.register name cb = .ok cs') : Reached cs'
  | unregister {cs : Callbacks} (name : String) (h : Reached cs) : Reached (cs.unregister name).2

/-- The names under which something is found. -/
def HasValidNames (cs : Callbacks) : Prop :=
  ∀ name cb, cs.get? name = some cb → isValidName name = true

theorem HasValidNames.erase {cs : Callbacks} (h : cs.HasValidNames) (name : String) :
    (cs.erase name).HasValidNames := by
  intro k cb hk
  rw [get?_erase] at hk
  split_ifs at hk
  exact h k cb hk

/-- Only valid names are bound. -/
theorem HasValidNames.register {cs cs' : Callbacks} (h : cs.HasValidNames) {name : String}
    {cb : Callback} (hregister : cs.register name cb = .ok cs') : cs'.HasValidNames := by
  have hcons {cs : Callbacks} (h : cs.HasValidNames) (hname : isValidName name = true) :
      (Callbacks.mk ((name, cb) :: cs.entries)).HasValidNames := by
    intro k cb' hk
    rw [get?, List.lookup_cons] at hk
    split at hk
    · rename_i heq
      rwa [eq_of_beq heq]
    · exact h k cb' hk
  unfold Callbacks.register at hregister
  split_ifs at hregister with hname
  split at hregister
  · split_ifs at hregister
    obtain rfl := Except.ok.inj hregister
    exact hcons (h.erase name) hname
  · obtain rfl := Except.ok.inj hregister
    exact hcons h hname

/-- The names in a table of callbacks are valid. -/
theorem Reached.isValidName {cs : Callbacks} (h : cs.Reached) : cs.HasValidNames := by
  induction h with
  | empty => exact fun name cb hget ↦ absurd hget (by simp [get?, Callbacks.empty])
  | register _ hregister ih => exact ih.register hregister
  | unregister name _ ih => exact ih.erase name

end Callbacks

end ScriptHost
