import ScriptHost.Members
import Std.Data.HashMap

/-!
# Gathering members

Many members written one after another, with the value under each name at hand, so that a write
does not go through the members before it.  What is gathered are the members that the same writes
give one by one.

## Main definitions

* `Gathering` : the names in order, and the value under each.
* `Gathering.put`, `Gathering.push` : the writes.
* `Gathering.Holds` : which members a gathering stands for.
-/

namespace ScriptHost

/-- Names in the order of their first writing, and the value under each. -/
structure Gathering (α : Type) where
  names : Array String
  values : Std.HashMap String α

namespace Gathering

variable {α : Type}

/-- Nothing is gathered yet. -/
def empty : Gathering α := ⟨#[], {}⟩

/-- Writes a member: in place if its name is there, at the end otherwise. -/
def put (g : Gathering α) (name : String) (value : α) : Gathering α :=
  ⟨if g.values.contains name then g.names else g.names.push name, g.values.insert name value⟩

/-- Writes a member named after the number of names. -/
def push (g : Gathering α) (value : α) : Gathering α := g.put (indexKey g.names.size) value

/-- Writes members in order. -/
def putAll (g : Gathering α) (members : List (String × α)) : Gathering α :=
  members.foldl (fun g m ↦ g.put m.1 m.2) g

/-- Pushes values in order. -/
def pushAll (g : Gathering α) (values : List α) : Gathering α := values.foldl push g

/-- The gathering of members. -/
def ofMembers (members : List (String × α)) : Gathering α := empty.putAll members

/-- What was gathered. -/
def members (g : Gathering α) : List (String × α) :=
  g.names.toList.filterMap fun name ↦ g.values[name]?.map fun value ↦ (name, value)

/-- A gathering stands for members when it has their names and finds what is found among them. -/
structure Holds (g : Gathering α) (ms : List (String × α)) : Prop where
  names_eq : g.names.toList = Members.keys ms
  values_eq : ∀ name, g.values[name]? = Members.find? name ms
  nodup : (Members.keys ms).Nodup

theorem holds_empty : (empty : Gathering α).Holds [] where
  names_eq := rfl
  values_eq name := by simp [empty, Members.find?]
  nodup := List.nodup_nil

namespace Holds

variable {g : Gathering α} {ms : List (String × α)}

/-- A name is there exactly when it is the name of a member. -/
theorem contains_iff (h : g.Holds ms) {name : String} :
    g.values.contains name = true ↔ name ∈ Members.keys ms := by
  rw [Std.HashMap.contains_eq_isSome_getElem?, h.values_eq name, Option.isSome_iff_ne_none, ne_eq,
    Members.find?_eq_none_iff, Decidable.not_not]

theorem put (h : g.Holds ms) (name : String) (value : α) :
    (g.put name value).Holds (Members.put name value ms) where
  names_eq := by
    rw [Members.keys_put, ← h.names_eq]
    by_cases hn : g.values.contains name = true
    · have hm : name ∈ g.names.toList := h.names_eq ▸ h.contains_iff.1 hn
      rw [if_pos hm, Gathering.put, if_pos hn]
    · have hm : name ∉ g.names.toList := fun hm ↦ hn (h.contains_iff.2 (h.names_eq ▸ hm))
      rw [if_neg hm, Gathering.put, if_neg hn, Array.toList_push]
  values_eq k := by
    rw [Members.find?_put, Gathering.put, Std.HashMap.getElem?_insert, h.values_eq k]
    by_cases hk : k = name
    · rw [if_pos hk, if_pos (beq_iff_eq.2 hk.symm)]
    · rw [if_neg hk, if_neg fun he ↦ hk (beq_iff_eq.1 he).symm]
  nodup := Members.nodup_keys_put h.nodup

theorem size_names (h : g.Holds ms) : g.names.size = ms.length := by
  rw [← Array.length_toList, h.names_eq, Members.keys, List.length_map]

theorem push (h : g.Holds ms) (value : α) : (g.push value).Holds (Members.push ms value) := by
  rw [Gathering.push, h.size_names]
  exact h.put _ value

theorem putAll (h : g.Holds ms) (members : List (String × α)) :
    (g.putAll members).Holds (members.foldl (fun ms m ↦ Members.put m.1 m.2 ms) ms) := by
  induction members generalizing g ms with
  | nil => exact h
  | cons m members ih => exact ih (h.put m.1 m.2)

theorem pushAll (h : g.Holds ms) (values : List α) :
    (g.pushAll values).Holds (values.foldl Members.push ms) := by
  induction values generalizing g ms with
  | nil => exact h
  | cons v values ih => exact ih (h.push v)

/-- The members of a gathering are those that it stands for. -/
theorem members_eq (h : g.Holds ms) : g.members = ms := by
  have hfound : ∀ l : List (String × α), (∀ m ∈ l, Members.find? m.1 ms = some m.2) →
      (Members.keys l).filterMap
        (fun name ↦ (Members.find? name ms).map fun value ↦ (name, value)) = l := by
    intro l hl
    induction l with
    | nil => rfl
    | cons m l ih =>
      rw [Members.keys, List.map_cons, List.filterMap_cons, hl m List.mem_cons_self]
      exact congrArg (m :: ·) (ih fun x hx ↦ hl x (List.mem_cons_of_mem m hx))
  simp only [members, h.names_eq, h.values_eq]
  exact hfound ms fun m hm ↦ Members.find?_of_mem h.nodup hm

/-- The members of a gathering have distinct names. -/
theorem nodup_members (h : g.Holds ms) : (Members.keys g.members).Nodup :=
  h.members_eq ▸ h.nodup

end Holds

/-- Members with distinct names are what gathering them gives. -/
theorem holds_ofMembers {ms : List (String × α)} (h : (Members.keys ms).Nodup) :
    (ofMembers ms).Holds ms := by
  have hms := holds_empty.putAll ms
  rwa [Members.foldl_put_of_nodup h] at hms

end Gathering

end ScriptHost
