import Mathlib.Data.List.Infix
import Mathlib.Tactic.Common
import ScriptHost.Object
import ScriptHost.Proofs.Object.Positions

/-!
# Writing to an object

An object is made and then written to, any number of times and in any mixture of the four writes.
Whichever write it is, it puts a value under one name or does nothing; what was put is kept in a
chronicle beside the object.  The names of the object are those that were appended, in order, and
under each is found what was put there last.  So an object is dense as long as every name that was
appended was that of its position.

## Main definitions

* `Object.Maker`, `Object.Write` : how objects are made and written to.
* `Object.Chronicle` : what was put into an object.
* `Object.ViewsAgree` : all ways to look into an object show one list of members.

## Main results

* `Object.members_apply` : every write puts one value under one name, or nothing.
* `Object.Chronicle.explains_of` : the chronicle of an object tells its names and values.
* `Object.explains_foldl_apply` : what holds of an object after any writes.
-/

namespace ScriptHost

/-! ### Putting a value under a name -/

namespace Members

variable {α : Type} {name : String} {value : α} {ms : List (String × α)}

theorem mem_keys_of_mem {m : String × α} (h : m ∈ ms) : m.1 ∈ keys ms := List.mem_map_of_mem h

theorem mem_of_find? (h : find? name ms = some value) : (name, value) ∈ ms := by
  induction ms with
  | nil => cases h
  | cons m ms ih =>
    obtain ⟨k, v⟩ := m
    rw [find?] at h
    split_ifs at h with hk
    · rw [← Option.some.inj h, hk]
      exact List.mem_cons_self
    · exact List.mem_cons_of_mem _ (ih h)

/-- A name that is there keeps its place, and so does every other member. -/
theorem put_of_mem (hnodup : (keys ms).Nodup) (h : name ∈ keys ms) :
    put name value ms = ms.map fun m ↦ if m.1 = name then (name, value) else m := by
  induction ms with
  | nil => exact absurd h List.not_mem_nil
  | cons m ms ih =>
    obtain ⟨hm, hnodup⟩ := List.nodup_cons.1 hnodup
    by_cases hname : m.1 = name
    · subst hname
      have hrest : ∀ l ∈ ms, (if l.1 = m.1 then (m.1, value) else l) = l := by
        intro l hl
        have hne : l.1 ≠ m.1 := fun heq ↦ hm (heq ▸ mem_keys_of_mem hl)
        exact if_neg hne
      rw [List.map_cons, if_pos rfl, List.map_congr_left hrest, List.map_id', put, if_pos rfl]
    · have hmem : name ∈ keys ms := (List.mem_cons.1 h).resolve_left (Ne.symm hname)
      rw [List.map_cons, if_neg hname, put, if_neg hname, ih hnodup hmem]

/-- Replacing the value at a position is writing the member of that name. -/
theorem replaceAt_eq_put {i : Nat} {m : String × α} (hnodup : (keys ms).Nodup)
    (hm : ms[i]? = some m) : replaceAt i value ms = put m.1 value ms := by
  induction ms generalizing i with
  | nil => simp at hm
  | cons l ms ih =>
    obtain ⟨hl, hnodup⟩ := List.nodup_cons.1 hnodup
    cases i with
    | zero =>
      obtain rfl : l = m := by simpa using hm
      simp [replaceAt, put]
    | succ i =>
      have hne : l.1 ≠ m.1 := fun heq ↦ hl (heq ▸ mem_keys_of_mem (List.mem_of_getElem? hm))
      rw [put, if_neg hne, ← ih hnodup hm]
      rfl

/-- The names only grow at the end. -/
theorem keys_prefix_keys_put : keys ms <+: keys (put name value ms) := by
  rw [keys_put]
  split_ifs
  · exact List.prefix_rfl
  · exact List.prefix_append ..

end Members

namespace Object

variable {α : Type} {o : Object α}

/-! ### Makers and writes -/

/-- The writes to an object. -/
inductive Write (α : Type) where
  | set (name : String) (value : α)
  | push (value : α)
  | replaceAt (i : Nat) (value : α)
  | assign (name : String) (value : α)

namespace Write

/-- The object after a write.  It stays as it is when there is nothing to replace. -/
def apply (o : Object α) : Write α → Object α
  | set name value => o.set name value
  | push value => o.push value
  | replaceAt i value => (o.replaceAt i value).getD o
  | assign name value => (o.assign name value).getD o

/-- The name that a write puts its value under, and the value; none if it does nothing. -/
def put? (o : Object α) : Write α → Option (String × α)
  | set name value => some (name, value)
  | push value => some (indexKey o.size, value)
  | replaceAt i value => (o.entryAt? i).map fun m ↦ (m.1, value)
  | assign name value => if o.contains name then some (name, value) else none

end Write

/-- The ways to make an object. -/
inductive Maker (α : Type) where
  | ofShape (shape : Shape)
  | withRoom (most n : Nat)
  | ofKeys (names : List String) (value : α)
  | ofValues (values : List α)

namespace Maker

/-- What is made; nothing if there is no such room. -/
def make? : Maker α → Option (Object α)
  | ofShape shape => some (.empty shape)
  | withRoom most n => Object.withRoom? most n
  | ofKeys names value => some (.ofKeys names value)
  | ofValues values => some (.ofValues values)

/-- The shape of what is made. -/
def shape : Maker α → Shape
  | ofShape shape => shape
  | withRoom _ _ => .map
  | ofKeys _ _ => .map
  | ofValues _ => .array

/-- The writes that make it of an object without members. -/
def writes : Maker α → List (Write α)
  | ofShape _ => []
  | withRoom _ _ => []
  | ofKeys names value => names.map fun name ↦ .set name value
  | ofValues values => values.map .push

end Maker

/-- What is made is an object without members that was written to. -/
theorem Maker.eq_foldl_apply {maker : Maker α} (h : maker.make? = some o) :
    o = maker.writes.foldl Write.apply (.empty maker.shape) := by
  cases maker with
  | ofShape shape => exact (Option.some.inj h).symm
  | withRoom most n => exact (withRoom?_eq_some_iff.1 h).2
  | ofKeys names value =>
    rw [← Option.some.inj h, Object.ofKeys, setAll_eq_foldl, writes, List.foldl_map, List.foldl_map]
    rfl
  | ofValues values =>
    rw [← Option.some.inj h, Object.ofValues, pushAll_eq_foldl, writes, List.foldl_map]
    rfl

/-- Whichever write it is, it puts its value under one name, or does nothing. -/
theorem members_apply (w : Write α) :
    (w.apply o).members = match w.put? o with
      | some m => Members.put m.1 m.2 o.members
      | none => o.members := by
  cases w with
  | set name value => rfl
  | push value => rfl
  | replaceAt i value =>
    rw [Write.apply, Write.put?, Object.replaceAt]
    by_cases hi : i < o.size
    · have hget : o.members[i]? = some o.members[i] := List.getElem?_eq_getElem hi
      rw [if_pos hi, show o.entryAt? i = some o.members[i] from hget]
      show Members.replaceAt i value o.members = Members.put o.members[i].1 value o.members
      exact Members.replaceAt_eq_put o.nodup hget
    · rw [if_neg hi, show o.entryAt? i = none from List.getElem?_eq_none (Nat.not_lt.1 hi)]
      rfl
  | assign name value =>
    rw [Write.apply, Write.put?, Object.assign]
    split_ifs <;> rfl

theorem contains_iff {name : String} : o.contains name = true ↔ name ∈ Members.keys o.members :=
  List.contains_iff_mem

theorem length_keys_members : (Members.keys o.members).length = o.size := Members.length_keys _

/-! ### What was put into an object -/

/-- What was put into an object: every value with its name, and the names that were appended, each
with the position that it was given. -/
structure Chronicle (α : Type) where
  written : List (String × α)
  appended : List (String × Nat)

namespace Chronicle

/-- Nothing was put yet. -/
def empty : Chronicle α := ⟨[], []⟩

/-- What was put when a member is written to an object. -/
def record (c : Chronicle α) (o : Object α) (m : String × α) : Chronicle α where
  written := c.written ++ [m]
  appended := if o.contains m.1 then c.appended else c.appended ++ [(m.1, o.size)]

/-- What was put after some writes to an object. -/
def extend (c : Chronicle α) (o : Object α) : List (Write α) → Chronicle α
  | [] => c
  | w :: ws => (((w.put? o).map (c.record o)).getD c).extend (w.apply o) ws

/-- What was put when an object was made and written to. -/
def of (maker : Maker α) (ws : List (Write α)) : Chronicle α :=
  empty.extend (.empty maker.shape) (maker.writes ++ ws)

/-- The names of an object are those that were appended, each at the position that it was given; and
under a name is found what was put there last. -/
structure Explains (c : Chronicle α) (o : Object α) : Prop where
  keys_eq : Members.keys o.members = c.appended.map Prod.fst
  positions_eq : List.range o.size = c.appended.map Prod.snd
  get?_eq : ∀ name, o.get? name = c.written.reverse.lookup name

theorem explains_empty (shape : Shape) : (empty : Chronicle α).Explains (.empty shape) where
  keys_eq := rfl
  positions_eq := rfl
  get?_eq _ := rfl

namespace Explains

variable {c : Chronicle α}

/-- What was put when a member was written explains the object with that member. -/
theorem record (h : c.Explains o) (name : String) (value : α) :
    (c.record o (name, value)).Explains (o.set name value) := by
  have hkeys : Members.keys (o.set name value).members = _ := Members.keys_put
  constructor
  · rw [hkeys, Chronicle.record]
    by_cases hname : name ∈ Members.keys o.members
    · rw [if_pos hname, if_pos (contains_iff.2 hname), h.keys_eq]
    · rw [if_neg hname, if_neg (mt contains_iff.1 hname), List.map_append, ← h.keys_eq]
      rfl
  · rw [← length_keys_members, hkeys, Chronicle.record]
    by_cases hname : name ∈ Members.keys o.members
    · rw [if_pos hname, if_pos (contains_iff.2 hname), length_keys_members, h.positions_eq]
    · rw [if_neg hname, if_neg (mt contains_iff.1 hname), List.map_append, ← h.positions_eq,
        List.length_append, length_keys_members]
      exact List.range_succ
  · intro k
    rw [get?_set, h.get?_eq, Chronicle.record, List.reverse_append, List.reverse_singleton,
      List.singleton_append, List.lookup_cons]
    by_cases hk : k = name
    · simp [hk]
    · simp [hk, beq_eq_false_iff_ne.2 hk]

/-- What was put by a write explains the object after it. -/
theorem apply (h : c.Explains o) (w : Write α) :
    (((w.put? o).map (c.record o)).getD c).Explains (w.apply o) := by
  have hmembers := members_apply (o := o) w
  cases hput : w.put? o with
  | none =>
    rw [hput] at hmembers
    have hsize : (w.apply o).size = o.size := congrArg List.length hmembers
    exact ⟨hmembers ▸ h.keys_eq, hsize ▸ h.positions_eq, fun name ↦
      (congrArg (Members.find? name) hmembers).trans (h.get?_eq name)⟩
  | some m =>
    rw [hput] at hmembers
    have hset := h.record m.1 m.2
    have hsize : (w.apply o).size = (o.set m.1 m.2).size := congrArg List.length hmembers
    exact ⟨hmembers ▸ hset.keys_eq, hsize ▸ hset.positions_eq, fun name ↦
      (congrArg (Members.find? name) hmembers).trans (hset.get?_eq name)⟩

theorem foldl_apply (h : c.Explains o) (ws : List (Write α)) :
    (c.extend o ws).Explains (ws.foldl Write.apply o) := by
  induction ws generalizing c o with
  | nil => exact h
  | cons w ws ih => exact ih (h.apply w)

/-- The object is dense exactly if every name was appended at the position that it names. -/
theorem isDense_iff (h : c.Explains o) :
    o.isDense = true ↔ ∀ a ∈ c.appended, a.1 = indexKey a.2 := by
  have hnames : Members.isDense o.members = true ↔
      c.appended.map Prod.fst = c.appended.map (indexKey ∘ Prod.snd) := by
    rw [Members.isDense_iff, h.keys_eq, ← List.map_map, ← h.positions_eq]
    rfl
  exact hnames.trans List.map_inj_left

end Explains

/-- What was put when an object was made and written to explains it. -/
theorem explains_of {maker : Maker α} (h : maker.make? = some o) (ws : List (Write α)) :
    (of maker ws).Explains (ws.foldl Write.apply o) := by
  have hall := (explains_empty (α := α) maker.shape).foldl_apply (maker.writes ++ ws)
  rwa [List.foldl_append, ← Maker.eq_foldl_apply h] at hall

end Chronicle

/-! ### Looking into an object -/

/-- All ways to look into an object show one list of members. -/
structure ViewsAgree (o : Object α) (ms : List (String × α)) : Prop where
  members_eq : o.members = ms
  size_eq : o.size = ms.length
  entryAt?_eq : ∀ i, o.entryAt? i = ms[i]?
  valueAt?_eq : ∀ i, o.valueAt? i = ms[i]?.map Prod.snd
  position?_eq_some_iff : ∀ name i, o.position? name = some i ↔ ms[i]?.map Prod.fst = some name
  get?_eq_some_iff : ∀ name value, o.get? name = some value ↔ (name, value) ∈ ms
  contains_iff : ∀ name, o.contains name = true ↔ name ∈ Members.keys ms

/-- The position of a name is the one place where it stands. -/
theorem position?_eq_some_iff {name : String} {i : Nat} :
    o.position? name = some i ↔ o.members[i]?.map Prod.fst = some name := by
  rw [← List.getElem?_map, position?, List.findIdx?_eq_some_iff_getElem, List.getElem?_eq_some_iff]
  constructor
  · rintro ⟨hi, hname, -⟩
    exact ⟨hi, beq_iff_eq.1 hname⟩
  · rintro ⟨hi, hname⟩
    refine ⟨hi, beq_iff_eq.2 hname, fun j hj hbefore ↦ ?_⟩
    have heq : j = i := o.nodup.getElem_inj_iff.1 ((beq_iff_eq.1 hbefore).trans hname.symm)
    omega

/-- What is found under a name is the value of the one member of that name. -/
theorem get?_eq_some_iff {name : String} {value : α} :
    o.get? name = some value ↔ (name, value) ∈ o.members :=
  ⟨Members.mem_of_find?, Members.find?_of_mem o.nodup⟩

theorem viewsAgree (o : Object α) : o.ViewsAgree o.members where
  members_eq := rfl
  size_eq := rfl
  entryAt?_eq _ := rfl
  valueAt?_eq _ := rfl
  position?_eq_some_iff _ _ := position?_eq_some_iff
  get?_eq_some_iff _ _ := get?_eq_some_iff
  contains_iff _ := contains_iff

/-! ### Writing in place and at the end -/

/-- A member whose name is there is written in place, and any other at the end. -/
theorem members_set (o : Object α) (name : String) (value : α) :
    (o.set name value).members =
      if o.contains name then o.members.map fun m ↦ if m.1 = name then (name, value) else m
      else o.members ++ [(name, value)] := by
  by_cases hname : name ∈ Members.keys o.members
  · rw [if_pos (contains_iff.2 hname)]
    exact Members.put_of_mem o.nodup hname
  · rw [if_neg (mt contains_iff.1 hname)]
    exact Members.put_of_notMem hname

/-- The names only grow at the end. -/
theorem keys_prefix_keys_apply (w : Write α) :
    Members.keys o.members <+: Members.keys (w.apply o).members := by
  rw [members_apply]
  split
  · exact Members.keys_prefix_keys_put
  · exact List.prefix_rfl

theorem keys_prefix_keys_foldl (ws : List (Write α)) :
    Members.keys o.members <+: Members.keys (ws.foldl Write.apply o).members := by
  induction ws generalizing o with
  | nil => exact List.prefix_rfl
  | cons w ws ih => exact (keys_prefix_keys_apply w).trans ih

/-- The names that an object began with are dense if all of them are. -/
theorem isDense_of_isPrefix {p : Object α}
    (h : Members.keys o.members <+: Members.keys p.members) (hp : p.isDense = true) :
    o.isDense = true := by
  have hlength : o.size ≤ p.members.length := by simpa [Members.keys, size] using h.length_le
  have hkeys := List.prefix_iff_eq_take.1 h
  rw [Members.isDense_iff.1 hp, length_keys_members, ← List.map_take, List.take_range,
    Nat.min_eq_left hlength] at hkeys
  exact Members.isDense_iff.2 hkeys

/-- A push to a dense object appends, and keeps it dense. -/
theorem push_of_isDense (h : o.isDense = true) (value : α) :
    (o.push value).members = o.members ++ [(indexKey o.size, value)] ∧
      (o.push value).isDense = true := by
  have hmembers : (o.push value).members = o.members ++ [(indexKey o.size, value)] :=
    Members.put_of_notMem (Members.indexKey_length_notMem h)
  refine ⟨hmembers, Members.isDense_iff.2 ?_⟩
  rw [hmembers, Members.keys, List.map_append, List.length_append, List.length_singleton,
    List.range_succ, List.map_append]
  exact congrArg (· ++ [indexKey o.size]) (Members.isDense_iff.1 h)

/-- An object after any writes.  Its names are those that were appended, in order and without
repetition; under each is found what was put there last, and all ways to look into the object agree.
Setting and pushing write in place when the name is there and append otherwise, so the names only
grow at the end, whatever is written later.  The object is dense exactly if every name was appended
at the position that it names; then a push appends and leaves it dense, and once it is not dense it
is not dense later. -/
theorem explains_foldl_apply {maker : Maker α} {made : Object α} (hmake : maker.make? = some made)
    (ws later : List (Write α)) :
    let o := ws.foldl Write.apply made
    let c := Chronicle.of maker ws
    (Members.keys o.members).Nodup ∧ c.Explains o ∧ o.ViewsAgree o.members ∧
      Members.keys o.members <+: Members.keys (later.foldl Write.apply o).members ∧
      (∀ name value, (o.set name value).members =
        if o.contains name then o.members.map fun m ↦ if m.1 = name then (name, value) else m
        else o.members ++ [(name, value)]) ∧
      (∀ value, o.push value = o.set (indexKey o.size) value) ∧
      (o.isDense = true ↔ ∀ a ∈ c.appended, a.1 = indexKey a.2) ∧
      (o.isDense = true → ∀ value,
        (o.push value).members = o.members ++ [(indexKey o.size, value)] ∧
          (o.push value).isDense = true) ∧
      (o.isDense = false → (later.foldl Write.apply o).isDense = false) := by
  intro o c
  have hexplains : c.Explains o := Chronicle.explains_of hmake ws
  have hgrows := keys_prefix_keys_foldl (o := o) later
  refine ⟨o.nodup, hexplains, o.viewsAgree, hgrows, o.members_set, fun _ ↦ rfl,
    hexplains.isDense_iff, push_of_isDense, fun hsparse ↦ ?_⟩
  rw [Bool.eq_false_iff] at hsparse ⊢
  exact fun hlater ↦ hsparse (isDense_of_isPrefix hgrows hlater)

/-- A name that was set stands where a push would append: the push writes in place, and the object
is not dense, then or later. -/
theorem explains_foldl_apply_collision :
    let o : Object Nat := [.set "1" 10, .push 20].foldl Write.apply (.empty .map)
    (Maker.ofShape .map : Maker Nat).make? = some (.empty .map) ∧
      (Chronicle.of (.ofShape .map) [.set "1" 10, .push 20]).Explains o ∧
      o.members = [("1", 20)] ∧ o.isDense = false ∧
      ([.replaceAt 0 30, .push 40].foldl Write.apply o).isDense = false := by
  intro o
  have hmake : (Maker.ofShape .map : Maker Nat).make? = some (.empty .map) := rfl
  obtain ⟨-, hexplains, -, -, -, -, -, -, hsparse⟩ := explains_foldl_apply hmake
    [.set "1" 10, .push 20] [.replaceAt 0 30, .push 40]
  have hdense : o.isDense = false := by decide
  exact ⟨hmake, hexplains, by decide, hdense, hsparse hdense⟩

end Object

end ScriptHost
