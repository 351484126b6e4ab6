/-!
# Named members

Lists of values under names, in the order in which the names were first written.

## Main definitions

* `indexKey` : the name of a position.
* `Members.put` : writing a member, in place if its name is there and at the end otherwise.
* `Members.push` : writing a member named after the number of members.
* `Members.find?` : the value under a name.
* `Members.ofValues`, `Members.isDense` : values under the names of their positions.
-/

namespace ScriptHost

/-- The name of the member at a position of an array. -/
def indexKey (i : Nat) : String := Nat.repr i

namespace Members

variable {α β : Type}

/-- The names of the members. -/
def keys (ms : List (String × α)) : List String := ms.map Prod.fst

/-- Writes a member: in place if its name is there, at the end otherwise. -/
def put (name : String) (value : α) : List (String × α) → List (String × α)
  | [] => [(name, value)]
  | (k, v) :: ms => if k = name then (k, value) :: ms else (k, v) :: put name value ms

/-- The value of the first member with this name. -/
def find? (name : String) : List (String × α) → Option α
  | [] => none
  | (k, v) :: ms => if k = name then some v else find? name ms

/-- Writes a member named after the number of members. -/
def push (ms : List (String × α)) (value : α) : List (String × α) :=
  put (indexKey ms.length) value ms

/-- Replaces the value at a position and leaves its name. -/
def replaceAt (i : Nat) (value : α) (ms : List (String × α)) : List (String × α) :=
  ms.modify i fun m ↦ (m.1, value)

/-- Values under the names of their positions. -/
def ofValues (values : List α) : List (String × α) :=
  values.zipIdx.map fun (v, i) ↦ (indexKey i, v)

/-- Every member is named after its position. -/
def isDense (ms : List (String × α)) : Bool := ms.zipIdx.all fun (m, i) ↦ m.1 == indexKey i

/-- A name that is there keeps its place, and a new one goes to the end. -/
theorem keys_put {name : String} {value : α} {ms : List (String × α)} :
    keys (put name value ms) = if name ∈ keys ms then keys ms else keys ms ++ [name] := by
  induction ms with
  | nil => simp [put, keys]
  | cons m ms ih =>
    rcases m with ⟨k, v⟩
    by_cases hk : k = name
    · subst hk; simp [put, keys]
    · simp only [keys] at ih
      by_cases hm : name ∈ ms.map Prod.fst
      · simp [put, keys, hk, ih, hm]
      · simp [put, keys, hk, ih, hm, Ne.symm hk]

theorem mem_keys_put {name k : String} {value : α} {ms : List (String × α)} :
    k ∈ keys (put name value ms) ↔ k = name ∨ k ∈ keys ms := by
  rw [keys_put]
  split
  · exact ⟨Or.inr, fun h ↦ h.elim (fun hk ↦ hk ▸ ‹name ∈ keys ms›) id⟩
  · rw [List.mem_append, List.mem_singleton]; exact or_comm

theorem nodup_keys_put {name : String} {value : α} {ms : List (String × α)}
    (h : (keys ms).Nodup) : (keys (put name value ms)).Nodup := by
  rw [keys_put]
  split
  · exact h
  · rename_i hn
    refine List.nodup_append.2 ⟨h, List.nodup_cons.2 ⟨List.not_mem_nil, List.nodup_nil⟩, ?_⟩
    rintro a ha b hb rfl
    rw [List.mem_singleton] at hb
    exact hn (hb ▸ ha)

/-- Writing a member changes what is found under its own name and under no other. -/
theorem find?_put {name k : String} {value : α} {ms : List (String × α)} :
    find? k (put name value ms) = if k = name then some value else find? k ms := by
  induction ms with
  | nil =>
    by_cases hk : k = name
    · simp [put, find?, hk]
    · simp [put, find?, hk, Ne.symm hk]
  | cons m ms ih =>
    rcases m with ⟨l, v⟩
    by_cases hl : l = name
    · subst hl
      by_cases hk : k = l
      · simp [put, find?, hk]
      · simp [put, find?, hk, Ne.symm hk]
    · by_cases hk : l = k
      · subst hk; simp [put, find?, hl]
      · simp [put, find?, hl, hk, ih]

theorem find?_eq_none_iff {name : String} {ms : List (String × α)} :
    find? name ms = none ↔ name ∉ keys ms := by
  induction ms with
  | nil => simp [find?, keys]
  | cons m ms ih =>
    rcases m with ⟨k, v⟩
    by_cases hk : k = name
    · subst hk; simp [find?, keys]
    · simp only [keys] at ih
      simp [find?, keys, hk, Ne.symm hk, ih]

/-- A member with a name of its own is found under it. -/
theorem find?_of_mem {m : String × α} {ms : List (String × α)} (h : (keys ms).Nodup)
    (hm : m ∈ ms) : find? m.1 ms = some m.2 := by
  induction ms with
  | nil => exact absurd hm List.not_mem_nil
  | cons l ms ih =>
    have hcons := List.nodup_cons.1 h
    rcases List.mem_cons.1 hm with rfl | hm
    · exact if_pos rfl
    · have hne : l.1 ≠ m.1 := fun he ↦ hcons.1 (he ▸ List.mem_map_of_mem hm)
      exact (if_neg hne).trans (ih hcons.2 hm)

/-- A new name goes to the end. -/
theorem put_of_notMem {name : String} {value : α} {ms : List (String × α)}
    (h : name ∉ keys ms) : put name value ms = ms ++ [(name, value)] := by
  induction ms with
  | nil => rfl
  | cons m ms ih =>
    have hne : m.1 ≠ name := fun he ↦ h (he ▸ List.mem_cons_self)
    exact (if_neg hne).trans
      (congrArg (m :: ·) (ih fun hm ↦ h (List.mem_cons_of_mem _ hm)))

/-- Members with distinct names are what writing them one after another gives. -/
theorem foldl_put_of_nodup {ms : List (String × α)} (h : (keys ms).Nodup) :
    ms.foldl (fun ms m ↦ put m.1 m.2 ms) [] = ms := by
  have happend : ∀ l₂ l₁ : List (String × α), (keys (l₁ ++ l₂)).Nodup →
      l₂.foldl (fun ms m ↦ put m.1 m.2 ms) l₁ = l₁ ++ l₂ := by
    intro l₂
    induction l₂ with
    | nil => exact fun l₁ _ ↦ (List.append_nil l₁).symm
    | cons m l₂ ih =>
      intro l₁ hl
      have hassoc : l₁ ++ m :: l₂ = l₁ ++ [m] ++ l₂ := by simp
      have hm : m.1 ∉ keys l₁ := by
        rw [keys, List.map_append, List.nodup_append] at hl
        exact fun hmem ↦ hl.2.2 m.1 hmem m.1 List.mem_cons_self rfl
      rw [List.foldl_cons, put_of_notMem hm, ih _ (hassoc ▸ hl), hassoc]
  exact happend ms [] h

theorem keys_replaceAt {i : Nat} {value : α} {ms : List (String × α)} :
    keys (replaceAt i value ms) = keys ms := by
  induction ms generalizing i with
  | nil => simp [replaceAt, keys]
  | cons m ms ih =>
    cases i with
    | zero => simp [replaceAt, keys]
    | succ i => simpa [replaceAt, keys] using ih

end Members

end ScriptHost
