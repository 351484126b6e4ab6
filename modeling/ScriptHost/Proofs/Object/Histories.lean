import Mathlib.Data.List.Induction
import Mathlib.Tactic.Common
import ScriptHost.Members

/-!
# Members written one after another

Writing members one after another leaves each name at the place of its first writing with the value
of its last one.

## Main results

* `Members.keys_foldl_put` : the names in the order of their first writing.
* `Members.find?_foldl_put` : what was written last is found.
-/

namespace ScriptHost.Members

variable {α : Type}

theorem find?_eq_lookup (name : String) (ms : List (String × α)) :
    find? name ms = ms.lookup name := by
  induction ms with
  | nil => rfl
  | cons m ms ih =>
    rcases m with ⟨k, v⟩
    rw [find?, List.lookup_cons, ih]
    by_cases hk : k = name
    · simp [hk]
    · simp [hk, beq_eq_false_iff_ne.2 (Ne.symm hk)]

/-- The names in the order of their first writing. -/
theorem keys_foldl_put (written : List (String × α)) :
    keys (written.foldl (fun ms m ↦ put m.1 m.2 ms) []) = (keys written).eraseDups := by
  induction written using List.reverseRecOn with
  | nil => rfl
  | append_singleton written m ih =>
    rw [List.foldl_append, List.foldl_cons, List.foldl_nil, keys_put, ih]
    simp only [keys, List.map_append, List.map_cons, List.map_nil, List.eraseDups_append,
      List.mem_eraseDups]
    by_cases hm : m.1 ∈ written.map Prod.fst
    · rw [if_pos hm]
      simp [List.removeAll, hm]
    · rw [if_neg hm]
      simp [List.removeAll, hm, List.eraseDups_cons]

/-- What was written last is found. -/
theorem find?_foldl_put (written : List (String × α)) (name : String) :
    find? name (written.foldl (fun ms m ↦ put m.1 m.2 ms) []) =
      written.reverse.lookup name := by
  induction written using List.reverseRecOn with
  | nil => rfl
  | append_singleton written m ih =>
    rw [List.foldl_append, List.foldl_cons, List.foldl_nil, find?_put, ih, List.reverse_append,
      List.reverse_singleton, List.singleton_append, List.lookup_cons]
    by_cases hname : name = m.1
    · simp [hname]
    · simp [hname, beq_eq_false_iff_ne.2 hname]

end ScriptHost.Members
