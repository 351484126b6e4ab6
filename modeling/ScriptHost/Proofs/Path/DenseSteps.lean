import ScriptHost.Proofs.Object.Writes
import ScriptHost.Proofs.Path.Walks

/-!
# Positions by their names

An element of an array is reached by its position, `users[0]`, or by its name, `users.0`.  These are
different ways into an object: the one counts members, the other looks a name up.  In a dense object
they lead to the same member, and behind its end to none.

## Main definitions

* `Path.Step.NamedAs` : a step as it is, or a position by its name.
* `Heap.IsDenseAlong` : the steps to positions are taken where it makes no difference.

## Main results

* `Object.get?_indexKey` : the name of a position in a dense object.
* `Heap.toOption_follow_take` : all beginnings of two walks.
* `Heap.follow_of_namedAs` : where two walks lead, or where both stop.
-/

namespace ScriptHost

/-- In a dense object, what is found under the name of a position is the value at it. -/
theorem Object.get?_indexKey {α : Type} {o : Object α} (h : o.isDense = true) (i : Nat) :
    o.get? (indexKey i) = o.valueAt? i := by
  ext value
  rw [Object.get?_eq_some_iff, Object.valueAt?, Object.entryAt?, Option.map_eq_some_iff]
  constructor
  · intro hmem
    obtain ⟨j, hj⟩ := List.mem_iff_getElem?.1 hmem
    obtain rfl : i = j := indexKey_injective (Members.fst_eq_of_isDense h hj)
    exact ⟨_, hj, rfl⟩
  · rintro ⟨⟨name, value⟩, hm, rfl⟩
    obtain rfl : name = indexKey i := Members.fst_eq_of_isDense h hm
    exact List.mem_of_getElem? hm

/-- The second step is the first, or if this is to a position, the step to the name of the
position. -/
inductive Path.Step.NamedAs : Step → Step → Prop
  | same (step : Step) : NamedAs step step
  | position (i : Nat) : NamedAs (.index i) (.key (indexKey i))

namespace Heap

open ScriptHost.Path (Step)

/-- The steps to positions that are reached are taken at dense objects, or at what is no object. -/
def IsDenseAlong (heap : Heap) (root : Value) (steps : List Step) : Prop :=
  ∀ k i h, steps[k]? = some (.index i) → heap.follow root (steps.take k) = .ok (.object h) →
    (heap.get h).isDense = true

variable {heap : Heap} {root v : Value} {steps others first : List Step} {s t : Step}

/-- At a dense object, and at what is no object, a position by its name leads where the position
does. -/
theorem toOption_step (hnamed : s.NamedAs t)
    (hdense : ∀ i h, s = .index i → v = .object h → (heap.get h).isDense = true) :
    (heap.step v s).toOption = (heap.step v t).toOption := by
  cases hnamed with
  | same => rfl
  | position i =>
    cases v with
    | object h =>
      rw [Heap.step, Heap.step, Object.get?_indexKey (hdense i h rfl rfl)]
      cases (heap.get h).valueAt? i with
      | none => rfl
      | some w => rfl
    | nil | number _ | boolean _ | string _ => rfl

theorem toOption_follow_concat : (heap.follow root (first ++ [s])).toOption =
    (heap.follow root first).toOption.bind fun v ↦ (heap.step v s).toOption := by
  cases hfirst : heap.follow root first with
  | error d =>
    rw [follow_eq_error_of_isPrefix (List.prefix_append _ _) hfirst]
    rfl
  | ok v =>
    rw [follow_concat hfirst, toOption_mapError]
    rfl

/-- All beginnings of the two walks lead to the same value, or both nowhere. -/
theorem toOption_follow_take (hnamed : List.Forall₂ Step.NamedAs steps others)
    (hdense : heap.IsDenseAlong root steps) (k : Nat) :
    (heap.follow root (steps.take k)).toOption = (heap.follow root (others.take k)).toOption := by
  -- on the length of the beginning: up to its last step the walks are at one value, which is where
  -- the density is needed
  induction k with
  | zero => rw [List.take_zero, List.take_zero]
  | succ k ih =>
    by_cases hk : k < steps.length
    · have hk' : k < others.length := hnamed.length_eq ▸ hk
      rw [List.take_succ_eq_append_getElem hk, List.take_succ_eq_append_getElem hk',
        toOption_follow_concat, toOption_follow_concat, ← ih]
      cases hfirst : heap.follow root (steps.take k) with
      | error d => rfl
      | ok v =>
        refine toOption_step (hnamed.get hk hk') fun i h hs hv ↦ ?_
        exact hdense k i h (List.getElem?_eq_some_iff.2 ⟨hk, hs⟩) (hv ▸ hfirst)
    · have hle : steps.length ≤ k := Nat.le_of_not_lt hk
      have hle' : others.length ≤ k := hnamed.length_eq ▸ hle
      rwa [List.take_of_length_le (Nat.le_succ_of_le hle),
        List.take_of_length_le (Nat.le_succ_of_le hle'), ← List.take_of_length_le hle,
        ← List.take_of_length_le hle']

theorem stopsAt_congr (hnamed : List.Forall₂ Step.NamedAs steps others)
    (hdense : heap.IsDenseAlong root steps) {k : Nat} :
    heap.StopsAt root steps k ↔ heap.StopsAt root others k := by
  simp only [StopsAt, ← toOption_eq_some_iff, ← toOption_eq_none_iff,
    toOption_follow_take hnamed hdense]

/-- If any of the positions in a list of steps are given by their names, then both lists lead to the
same value, or both stop at the same step, as long as the steps to positions that are reached are
taken at dense objects, or at what is no object. -/
theorem follow_of_namedAs (hnamed : List.Forall₂ Step.NamedAs steps others)
    (hdense : heap.IsDenseAlong root steps) :
    (∃ v, heap.follow root steps = .ok v ∧ heap.follow root others = .ok v) ∨
    ∃ d e, heap.follow root steps = .error d ∧ heap.follow root others = .error e ∧
      ∃! k, heap.StopsAt root steps k ∧ heap.StopsAt root others k := by
  have hwhole := toOption_follow_take hnamed hdense steps.length
  rw [List.take_length, hnamed.length_eq, List.take_length] at hwhole
  cases hsteps : heap.follow root steps with
  | ok v =>
    rw [hsteps] at hwhole
    exact .inl ⟨v, rfl, toOption_eq_some_iff.1 hwhole.symm⟩
  | error d =>
    rw [hsteps] at hwhole
    obtain ⟨e, he⟩ := toOption_eq_none_iff.1 hwhole.symm
    obtain ⟨k, hk⟩ := exists_stopsAt hsteps
    exact .inr ⟨d, e, rfl, he, k, ⟨hk, (stopsAt_congr hnamed hdense).1 hk⟩,
      fun n hn ↦ hn.1.unique hk⟩

/-- The first of two users is reached by position or by name, and neither leads to a second. -/
theorem follow_of_namedAs_users :
    let heap : Heap := ⟨#[⟨.map, [("users", .object ⟨1⟩)], List.nodup_singleton _⟩,
      ⟨.array, [("0", .object ⟨2⟩)], List.nodup_singleton _⟩,
      ⟨.map, [("name", .string "Ada")], List.nodup_singleton _⟩]⟩
    let root : Value := .object ⟨0⟩
    let byPosition (i : Nat) : List Step := [.key "users", .index i, .key "name"]
    let byName (i : Nat) : List Step := [.key "users", .key (indexKey i), .key "name"]
    (∃ v, heap.follow root (byPosition 0) = .ok v ∧ heap.follow root (byName 0) = .ok v) ∧
      ∃! k, heap.StopsAt root (byPosition 1) k ∧ heap.StopsAt root (byName 1) k := by
  intro heap root byPosition byName
  have hnamed (i : Nat) : List.Forall₂ Step.NamedAs (byPosition i) (byName i) :=
    .cons (.same _) (.cons (.position i) (.cons (.same _) .nil))
  have hdense (i : Nat) : heap.IsDenseAlong root (byPosition i) := by
    rintro (_ | _ | _ | k) j h hs hreached
    · cases hs
    · cases hreached
      decide
    · cases hs
    · cases hs
  constructor
  · refine (follow_of_namedAs (hnamed 0) (hdense 0)).resolve_right ?_
    rintro ⟨d, e, hd, -⟩
    cases hd
  · obtain ⟨v, hv, -⟩ | ⟨d, e, -, -, hk⟩ := follow_of_namedAs (hnamed 1) (hdense 1)
    · cases hv
    · exact hk

end Heap

end ScriptHost
