import Mathlib.Data.List.Nodup
import ScriptHost.Builtin.Registry.Checked
import ScriptHost.Proofs.Builtin.Registration
import ScriptHost.Proofs.Object.Histories
import ScriptHost.Proofs.Object.Writes

/-!
# The index of a table

A table keeps its operations in a list and, beside it, the position of each name.  Registering an
operation writes a member of the list, in place or at its end, and keeps the index in step with it:
a position that is found under a name is the one at which the list has that name.  So no position is
ever behind the last entry, and the table shows the registrations made so far: the names in the
order of their first registration, and under each the operation registered last.

## Main definitions

* `Registry.InStep` : the index has the names of the entries, each with its one position.
* `Registry.Reflects` : the table shows some registrations.

## Main results

* `Registry.InStep.register` : one registration keeps the index in step.
* `Registry.InStep.checked_registerAll` : no registration looks behind the last entry.
* `Registry.reflects_foldl_registerAll` : what a table shows after any registrations.
-/

namespace ScriptHost.Registry

variable {β : Type} {r : Registry β} {name : String} {f : β} {i : Nat}

theorem names_eq_keys (r : Registry β) : r.names = Members.keys r.entries.toList := rfl

/-- The index has the names of the entries and no others, each with the one position at which it
stands. -/
def InStep (r : Registry β) : Prop :=
  ∀ (name : String) (i : Nat), r.positions[name]? = some i ↔ r.names[i]? = some name

theorem inStep_empty : (empty : Registry β).InStep := by
  intro name i
  simp [empty, names]

/-! ### What the index says of the entries -/

namespace InStep

/-- No name stands at two positions. -/
theorem nodup_names (h : r.InStep) : r.names.Nodup := by
  rw [List.nodup_iff_getElem?_ne_getElem?]
  intro i j hij hj heq
  have hname := List.getElem?_eq_getElem hj
  have hi := (h _ i).2 (heq.trans hname)
  rw [(h _ j).2 hname] at hi
  exact Nat.ne_of_lt hij (Option.some.inj hi).symm

theorem positions_eq_none_iff (h : r.InStep) : r.positions[name]? = none ↔ name ∉ r.names := by
  rw [List.mem_iff_getElem?, not_exists, Option.eq_none_iff_forall_ne_some]
  exact forall_congr' fun i ↦ not_congr (h name i)

theorem indexed (h : r.InStep) : r.Indexed := by
  intro name i hi
  have hname := (h name i).1 hi
  rw [names, List.getElem?_map, Array.getElem?_toList] at hname
  obtain ⟨e, he, rfl⟩ := Option.map_eq_some_iff.1 hname
  exact ⟨e.2, he⟩

end InStep

/-! ### One registration -/

/-- What stands in a list with one element more. -/
theorem getElem?_concat_eq_some_iff {α : Type} {xs : List α} {x y : α} {i : Nat} :
    (xs ++ [x])[i]? = some y ↔ xs[i]? = some y ∨ i = xs.length ∧ x = y := by
  rcases Nat.lt_trichotomy i xs.length with hlt | rfl | hgt
  · rw [List.getElem?_append_left hlt, or_iff_left fun h ↦ Nat.ne_of_lt hlt h.1]
  · rw [List.getElem?_concat_length, List.getElem?_eq_none le_rfl]
    simp
  · have hlength : (xs ++ [x]).length ≤ i := by rwa [List.length_append]
    rw [List.getElem?_eq_none hlength, List.getElem?_eq_none hgt.le,
      or_iff_left fun h ↦ Nat.ne_of_gt hgt h.1]

theorem register_of_some (hi : r.positions[name]? = some i) (f : β) :
    r.register name f = { r with entries := r.entries.modify i fun e ↦ (e.1, f) } := by
  rw [register, hi]

theorem register_of_none (hnone : r.positions[name]? = none) (f : β) :
    r.register name f = ⟨r.entries.push (name, f), r.positions.insert name r.entries.size⟩ := by
  rw [register, hnone]

namespace InStep

/-- Registering an operation writes a member. -/
theorem entries_register (h : r.InStep) (name : String) (f : β) :
    (r.register name f).entries.toList = Members.put name f r.entries.toList := by
  cases hpos : r.positions[name]? with
  | some i =>
    obtain ⟨g, hg⟩ := h.indexed name i hpos
    have hmember : r.entries.toList[i]? = some (name, g) := by rwa [Array.getElem?_toList]
    rw [register_of_some hpos, Array.toList_modify]
    exact Members.replaceAt_eq_put h.nodup_names hmember
  | none =>
    rw [register_of_none hpos, Array.toList_push]
    exact (Members.put_of_notMem (h.positions_eq_none_iff.1 hpos)).symm

/-- The names after a registration: a name that is there keeps its position, and a new one goes to
the end. -/
theorem names_register (h : r.InStep) (name : String) (f : β) :
    (r.register name f).names = if name ∈ r.names then r.names else r.names ++ [name] := by
  rw [names_eq_keys, h.entries_register, Members.keys_put]
  rfl

/-- A registration keeps the index in step with the entries. -/
theorem register (h : r.InStep) (name : String) (f : β) : (r.register name f).InStep := by
  intro k j
  rw [h.names_register]
  cases hpos : r.positions[name]? with
  | some i =>
    have hmem : name ∈ r.names := List.mem_of_getElem? ((h name i).1 hpos)
    rw [register_of_some hpos, if_pos hmem]
    exact h k j
  | none =>
    have hnotMem := h.positions_eq_none_iff.1 hpos
    rw [register_of_none hpos, if_neg hnotMem, Std.HashMap.getElem?_insert]
    have hlength : r.names.length = r.entries.size := by
      rw [names, List.length_map, Array.length_toList]
    -- the position behind the last entry is that of the new name and of no other
    by_cases hk : name = k
    · subst hk
      have hne : r.names[j]? ≠ some name := fun hj ↦ hnotMem (List.mem_of_getElem? hj)
      rw [if_pos BEq.rfl, Option.some.injEq, getElem?_concat_eq_some_iff, or_iff_right hne,
        and_iff_left rfl, hlength, eq_comm]
    · rw [if_neg (mt eq_of_beq hk), getElem?_concat_eq_some_iff, or_iff_left fun hj ↦ hk hj.2]
      exact h k j

end InStep

/-! ### Any number of registrations -/

namespace InStep

theorem registerAll (h : r.InStep) (fs : List (String × β)) : (r.registerAll fs).InStep := by
  induction fs generalizing r with
  | nil => exact h
  | cons f fs ih => exact ih (h.register f.1 f.2)

/-- Registering operations writes members one after another. -/
theorem entries_registerAll (h : r.InStep) (fs : List (String × β)) :
    (r.registerAll fs).entries.toList =
      fs.foldl (fun ms m ↦ Members.put m.1 m.2 ms) r.entries.toList := by
  induction fs generalizing r with
  | nil => rfl
  | cons f fs ih =>
    rw [List.foldl_cons, ← h.entries_register]
    exact ih (h.register f.1 f.2)

end InStep

/-- Operations registered in several lists are registered in one. -/
theorem foldl_registerAll (r : Registry β) (providers : List (List (String × β))) :
    providers.foldl registerAll r = r.registerAll providers.flatten := by
  rw [registerAll, List.foldl_flatten]
  rfl

/-! ### Positions are never behind the last entry -/

/-- Putting an operation at a position leaves the name there. -/
theorem set_eq_modify {entries : Array (String × β)} (hi : i < entries.size) (f : β) :
    entries.set i (entries[i].1, f) hi = entries.modify i fun e ↦ (e.1, f) := by
  refine Array.ext (by simp) fun j hj _ ↦ ?_
  rw [Array.getElem_set, Array.getElem_modify]
  split
  · rename_i heq
    subst heq
    rfl
  · rfl

namespace InStep

theorem lt_size (h : r.InStep) (hi : r.positions[name]? = some i) : i < r.entries.size := by
  obtain ⟨f, hf⟩ := h.indexed name i hi
  exact (Array.getElem?_eq_some_iff.1 hf).1

theorem checked_register (h : r.InStep) (name : String) (f : β) :
    Checked.register r name f = some (r.register name f) := by
  unfold Checked.register
  split
  · rename_i i hi
    rw [dif_pos (h.lt_size hi), register_of_some hi, set_eq_modify]
  · rename_i hnone
    rw [register_of_none hnone]

theorem checked_registerAll (h : r.InStep) (fs : List (String × β)) :
    Checked.registerAll r fs = some (r.registerAll fs) := by
  induction fs generalizing r with
  | nil => rfl
  | cons f fs ih =>
    rw [Checked.registerAll, List.foldlM_cons, h.checked_register]
    exact ih (h.register f.1 f.2)

theorem checked_get? (h : r.InStep) (name : String) :
    Checked.get? r name = some (r.get? name) := by
  unfold Checked.get? get?
  split
  · rename_i i hi
    have hlt := h.lt_size hi
    rw [dif_pos hlt, hi, Option.bind_some, Array.getElem?_eq_getElem hlt]
    rfl
  · rename_i hnone
    rw [hnone]
    rfl

end InStep

/-! ### What a table shows -/

/-- A table shows the registrations made so far. -/
structure Reflects (r : Registry β) (history : List (String × β)) : Prop where
  /-- The index has the names of the entries, each with its one position. -/
  inStep : r.InStep
  /-- A registration takes an entry that is there. -/
  checked_register : ∀ name f, Checked.register r name f = some (r.register name f)
  /-- A search takes an entry that is there. -/
  checked_get? : ∀ name, Checked.get? r name = some (r.get? name)
  /-- The operation registered last under a name is found. -/
  get?_eq_some_iff : ∀ name f, r.get? name = some f ↔
    ∃ before after, history = before ++ (name, f) :: after ∧ name ∉ Members.keys after
  /-- Nothing is found under a name that was never registered. -/
  get?_eq_none_iff : ∀ name, r.get? name = none ↔ name ∉ Members.keys history
  contains_eq : ∀ name, r.contains name = (r.get? name).isSome
  /-- The names stand in the order of their first registration. -/
  names_eq : r.names = (Members.keys history).eraseDups
  nodup_names : r.names.Nodup
  size_eq : r.size = r.names.length

/-- What was registered last under a name. -/
theorem lookup_reverse_eq_some_iff {history : List (String × β)} :
    history.reverse.lookup name = some f ↔
      ∃ before after, history = before ++ (name, f) :: after ∧ name ∉ Members.keys after := by
  rw [List.lookup_eq_some_iff]
  constructor
  · rintro ⟨after, before, hreverse, hafter⟩
    refine ⟨before.reverse, after.reverse, ?_, fun hmem ↦ ?_⟩
    · rw [← List.reverse_reverse history, hreverse]
      simp
    · obtain ⟨m, hm, rfl⟩ := List.mem_map.1 hmem
      exact absurd rfl (bne_iff_ne.1 (hafter m (List.mem_reverse.1 hm)))
  · rintro ⟨before, after, rfl, hafter⟩
    refine ⟨after.reverse, before.reverse, by simp, fun m hm ↦ bne_iff_ne.2 fun heq ↦ hafter ?_⟩
    exact heq ▸ Members.mem_keys_of_mem (List.mem_reverse.1 hm)

theorem InStep.contains_eq (h : r.InStep) (name : String) :
    r.contains name = (r.get? name).isSome := by
  rw [contains, Std.HashMap.contains_eq_isSome_getElem?, get?]
  cases hpos : r.positions[name]? with
  | none => rfl
  | some i =>
    obtain ⟨f, hf⟩ := h.indexed name i hpos
    rw [Option.bind_some, hf]
    rfl

/-- A table shows the operations that were registered with it, in whatever order. -/
theorem reflects_registerAll (history : List (String × β)) :
    (empty.registerAll history).Reflects history := by
  have hinStep := inStep_empty.registerAll history
  refine
    { inStep := hinStep
      checked_register := hinStep.checked_register
      checked_get? := hinStep.checked_get?
      get?_eq_some_iff := fun name f ↦ ?_
      get?_eq_none_iff := fun name ↦ ?_
      contains_eq := hinStep.contains_eq
      names_eq := ?_
      nodup_names := hinStep.nodup_names
      size_eq := ?_ }
  -- the search in the table is a search from the latest registration on
  · rw [get?_registerAll_empty, lookup_reverse_eq_some_iff]
  · rw [get?_registerAll_empty, ← Members.find?_foldl_put, Members.find?_eq_none_iff,
      Members.keys_foldl_put, List.mem_eraseDups]
  · rw [names_eq_keys, inStep_empty.entries_registerAll]
    exact Members.keys_foldl_put history
  · rw [size, names, List.length_map, Array.length_toList]

/-- Whatever operations are registered, in lists that are installed one after another, no
registration looks behind the last entry, and the table shows all of them. -/
theorem reflects_foldl_registerAll (providers : List (List (String × β))) :
    Checked.registerAll empty providers.flatten = some (providers.foldl registerAll empty) ∧
      (providers.foldl registerAll empty).Reflects providers.flatten := by
  rw [foldl_registerAll]
  exact ⟨inStep_empty.checked_registerAll _, reflects_registerAll _⟩

end ScriptHost.Registry
