import ScriptHost.Object

/-!
# One member of an object

A write touches one member: it replaces the value at a position and leaves the name there, or it
puts a member of a new name behind the others.  All that stands before or after is as it was, in its
order, and so is the shape.

## Main definitions

* `Object.Replaces` : the member at a position has another value.
* `Object.Appends` : a member of a new name follows the others.
* `Object.WritesOne` : the one or the other.

## Main results

* `Object.writesOne_set` : setting a member writes one.
* `Object.replaces_replaceAt`, `Object.not_replaces_of_replaceAt_eq_none` : replacing the value at a
  position, and where there is none.
-/

namespace ScriptHost

variable {α : Type} {name : String} {value : α}

/-- A member is put in the place of one of its name or behind all others. -/
theorem Members.put_cases (name : String) (value : α) (ms : List (String × α)) :
    (∃ before old after, ms = before ++ (name, old) :: after ∧
        put name value ms = before ++ (name, value) :: after) ∨
      name ∉ keys ms := by
  induction ms with
  | nil => exact .inr List.not_mem_nil
  | cons m ms ih =>
    by_cases hname : m.1 = name
    · subst hname
      exact .inl ⟨[], m.2, ms, rfl, if_pos rfl⟩
    · have hput : put name value (m :: ms) = m :: put name value ms := if_neg hname
      obtain ⟨before, old, after, rfl, hafter⟩ | hnew := ih
      · exact .inl ⟨m :: before, old, after, rfl, hput.trans (congrArg (m :: ·) hafter)⟩
      · refine .inr fun hmem ↦ ?_
        rcases List.mem_cons.1 hmem with rfl | hmem
        · exact hname rfl
        · exact hnew hmem

namespace Object

/-- The member at position `i`, of this name, has this value now, and all else is as it was. -/
structure Replaces (i : Nat) (name : String) (value : α) (o p : Object α) : Prop where
  shape_eq : p.shape = o.shape
  members_eq : ∃ before old after, before.length = i ∧
    o.members = before ++ (name, old) :: after ∧ p.members = before ++ (name, value) :: after

/-- A member of a new name follows the others, and all else is as it was. -/
structure Appends (name : String) (value : α) (o p : Object α) : Prop where
  shape_eq : p.shape = o.shape
  notMem_keys : name ∉ Members.keys o.members
  members_eq : p.members = o.members ++ [(name, value)]

/-- One member was written: in its place, or behind the others if its name is new. -/
def WritesOne (name : String) (value : α) (o p : Object α) : Prop :=
  (∃ i, Replaces i name value o p) ∨ Appends name value o p

variable {i : Nat} {o p : Object α}

/-- What is replaced was there. -/
theorem Replaces.lt_size (h : Replaces i name value o p) : i < o.size := by
  obtain ⟨before, old, after, rfl, hmembers, -⟩ := h.members_eq
  rw [size, hmembers, List.length_append, List.length_cons]
  exact Nat.lt_add_of_pos_right (Nat.succ_pos _)

/-- Replacing does not change how many members there are. -/
theorem Replaces.size_eq (h : Replaces i name value o p) : p.size = o.size := by
  obtain ⟨before, old, after, -, hmembers, hafter⟩ := h.members_eq
  rw [size, size, hmembers, hafter, List.length_append, List.length_append, List.length_cons,
    List.length_cons]

theorem writesOne_set (o : Object α) (name : String) (value : α) :
    WritesOne name value o (o.set name value) := by
  obtain ⟨before, old, after, hmembers, hafter⟩ | hnew := Members.put_cases name value o.members
  · exact .inl ⟨before.length, rfl, before, old, after, rfl, hmembers, hafter⟩
  · exact .inr ⟨rfl, hnew, Members.put_of_notMem hnew⟩

theorem replaces_replaceAt (h : o.replaceAt i value = some p) :
    ∃ name, Replaces i name value o p := by
  unfold replaceAt at h
  split at h
  · rename_i hi
    obtain rfl := Option.some.inj h
    have hi : i < o.members.length := hi
    refine ⟨o.members[i].1, rfl, o.members.take i, o.members[i].2, o.members.drop (i + 1),
      List.length_take_of_le (Nat.le_of_lt hi), ?_, ?_⟩
    · change o.members = o.members.take i ++ o.members[i] :: o.members.drop (i + 1)
      rw [List.getElem_cons_drop, List.take_append_drop]
    · exact List.modify_eq_take_cons_drop hi
  · cases h

/-- Nothing is replaced at a position that has no value. -/
theorem not_replaces_of_replaceAt_eq_none (h : o.replaceAt i value = none) :
    ¬Replaces i name value o p := by
  intro hreplaces
  rw [replaceAt, if_pos hreplaces.lt_size] at h
  cases h

end Object

end ScriptHost
