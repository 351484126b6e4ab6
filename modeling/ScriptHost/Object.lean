import ScriptHost.Members.Gathering

/-!
# Ordered objects

The one container of the language: members under distinct names, kept in the order in which the
names were first written.  An object whose names are `"0"`, `"1"`, … in order is an array; an empty
one is what it was made as.

## Main definitions

* `Object` : members with distinct names, and the shape they were made with.
* `Object.set`, `Object.push`, `Object.assign`, `Object.replaceAt` : the writes.
* `Object.setAll`, `Object.pushAll` : many writes at once.
* `Object.isArray` : whether an object counts as an array.
-/

namespace ScriptHost

/-- How an object was made.  It decides for empty objects alone. -/
inductive Shape where
  | map
  | array
deriving DecidableEq

/-- Members under distinct names, in the order of their first writing. -/
structure Object (α : Type) where
  shape : Shape
  members : List (String × α)
  nodup : (Members.keys members).Nodup

namespace Object

variable {α : Type}

/-- Objects of one shape with the same members are equal. -/
theorem ext {o p : Object α} (hs : o.shape = p.shape) (hm : o.members = p.members) : o = p := by
  cases o
  cases p
  cases hs
  cases hm
  rfl

/-- The object without members. -/
def empty (shape : Shape) : Object α := ⟨shape, [], List.nodup_nil⟩

instance : Inhabited (Object α) := ⟨empty .map⟩

/-- An object without members that has room for `n` of them, where room for `most` can be had. -/
def withRoom? (most n : Nat) : Option (Object α) := if n ≤ most then some (empty .map) else none

/-- An object is made exactly if there can be so much room, and the room does not show in it. -/
theorem withRoom?_eq_some_iff {most n : Nat} {o : Object α} :
    withRoom? most n = some o ↔ n ≤ most ∧ o = empty .map := by
  rw [withRoom?, Option.ite_none_right_eq_some, Option.some.injEq, eq_comm (a := empty _)]

/-- Writes a member: in place if its name is there, at the end otherwise. -/
def set (o : Object α) (name : String) (value : α) : Object α :=
  ⟨o.shape, Members.put name value o.members, Members.nodup_keys_put o.nodup⟩

/-- The members written one after another. -/
def setAll (o : Object α) (members : List (String × α)) : Object α :=
  ⟨o.shape, ((Gathering.ofMembers o.members).putAll members).members,
    ((Gathering.holds_ofMembers o.nodup).putAll members).nodup_members⟩

theorem members_setAll {o : Object α} {members : List (String × α)} :
    (o.setAll members).members =
      members.foldl (fun ms m ↦ Members.put m.1 m.2 ms) o.members :=
  ((Gathering.holds_ofMembers o.nodup).putAll members).members_eq

/-- Writing members at once is writing one after another. -/
theorem setAll_eq_foldl (o : Object α) (members : List (String × α)) :
    o.setAll members = members.foldl (fun o m ↦ o.set m.1 m.2) o := by
  have hstep : ∀ (ms : List (String × α)) (o : Object α),
      (ms.foldl (fun o m ↦ o.set m.1 m.2) o).members =
        ms.foldl (fun ms m ↦ Members.put m.1 m.2 ms) o.members ∧
      (ms.foldl (fun o m ↦ o.set m.1 m.2) o).shape = o.shape := by
    intro ms
    induction ms with
    | nil => exact fun o ↦ ⟨rfl, rfl⟩
    | cons m ms ih => exact fun o ↦ ih (o.set m.1 m.2)
  exact ext (hstep members o).2.symm (members_setAll.trans (hstep members o).1.symm)

/-- How many members there are. -/
def size (o : Object α) : Nat := o.members.length

/-- Writes a member named after the current size. -/
def push (o : Object α) (value : α) : Object α := o.set (indexKey o.size) value

/-- The values written one after another, each under the name of the size that it meets. -/
def pushAll (o : Object α) (values : List α) : Object α :=
  ⟨o.shape, ((Gathering.ofMembers o.members).pushAll values).members,
    ((Gathering.holds_ofMembers o.nodup).pushAll values).nodup_members⟩

/-- Pushing values at once is pushing one after another. -/
theorem pushAll_eq_foldl (o : Object α) (values : List α) :
    o.pushAll values = values.foldl push o := by
  have hstep : ∀ (vs : List α) (o : Object α),
      (vs.foldl push o).members = vs.foldl Members.push o.members ∧
      (vs.foldl push o).shape = o.shape := by
    intro vs
    induction vs with
    | nil => exact fun o ↦ ⟨rfl, rfl⟩
    | cons v vs ih => exact fun o ↦ ih (o.push v)
  exact ext (hstep values o).2.symm
    (((Gathering.holds_ofMembers o.nodup).pushAll values).members_eq.trans
      (hstep values o).1.symm)

/-- An array of values. -/
def ofValues (values : List α) : Object α := (empty .array).pushAll values

/-- The member with this name. -/
def get? (o : Object α) (name : String) : Option α := Members.find? name o.members

/-- Writing a member changes what is found under its own name and under no other. -/
theorem get?_set {o : Object α} {name k : String} {value : α} :
    (o.set name value).get? k = if k = name then some value else o.get? k :=
  Members.find?_put

/-- Whether there is a member with this name. -/
def contains (o : Object α) (name : String) : Bool := (Members.keys o.members).contains name

/-- An object with these names, all with one value; a repeated name keeps its first place. -/
def ofKeys (names : List String) (value : α) : Object α :=
  (empty .map).setAll (names.map fun name ↦ (name, value))

/-- The name and the value at a position. -/
def entryAt? (o : Object α) (i : Nat) : Option (String × α) := o.members[i]?

/-- The value at a position. -/
def valueAt? (o : Object α) (i : Nat) : Option α := (o.entryAt? i).map Prod.snd

/-- The position of a name. -/
def position? (o : Object α) (name : String) : Option Nat :=
  (Members.keys o.members).findIdx? (· == name)

/-- Writes a member only if its name is there. -/
def assign (o : Object α) (name : String) (value : α) : Option (Object α) :=
  if o.contains name then some (o.set name value) else none

/-- Replaces the value at a position, if it has one. -/
def replaceAt (o : Object α) (i : Nat) (value : α) : Option (Object α) :=
  if i < o.size then
    some ⟨o.shape, Members.replaceAt i value o.members,
      by rw [Members.keys_replaceAt]; exact o.nodup⟩
  else none

/-- Every member is named after its position. -/
def isDense (o : Object α) : Bool := Members.isDense o.members

/-- Whether the object counts as an array. -/
def isArray (o : Object α) : Bool :=
  if o.members.isEmpty then o.shape == .array else o.isDense

end Object

end ScriptHost
