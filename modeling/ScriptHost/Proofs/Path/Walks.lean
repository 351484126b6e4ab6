import ScriptHost.Proofs.Path.Rendering

/-!
# Walks along a path

A walk takes one step after another from a value, and ends at the first that is refused.  What it
says there is the reason of the refusal and the text of the steps so far with the refused one, which
is itself a path: reading it gives these steps back.

## Main definitions

* `Heap.Refuses` : which steps cannot be taken at a value, with the reason.
* `Heap.StopsAt` : how many steps can be taken before the first that cannot.
* `Heap.Tells` : what a dead end says about the walk that led to it.

## Main results

* `Heap.follow_append` : a walk along two paths, the second from where the first leads to.
* `Heap.follow_eq_error_iff` : which walks fail, with what they say.
* `Heap.follow_beginnings_of_parse` : the beginnings of a path that was read.
-/

namespace ScriptHost

/-! ### Results without what is said of faults -/

section

variable {ε ε' α : Type} {r : Except ε α} {a : α}

theorem mapError_eq_ok_iff {f : ε → ε'} : r.mapError f = .ok a ↔ r = .ok a := by
  cases r with
  | error e => exact iff_of_false nofun nofun
  | ok b => simp only [Except.mapError, Except.ok.injEq]

theorem toOption_mapError {f : ε → ε'} : (r.mapError f).toOption = r.toOption := by
  cases r with
  | error e => rfl
  | ok b => rfl

theorem toOption_eq_some_iff : r.toOption = some a ↔ r = .ok a := by
  cases r with
  | error e => exact iff_of_false nofun nofun
  | ok b => simp only [Except.toOption, Option.some.injEq, Except.ok.injEq]

theorem toOption_eq_none_iff : r.toOption = none ↔ ∃ e, r = .error e := by
  cases r with
  | error e => exact iff_of_true rfl ⟨e, rfl⟩
  | ok b => exact iff_of_false nofun nofun

end

namespace Heap

open ScriptHost.Path (Step Reason DeadEnd)

/-- The step cannot be taken at the value, for this reason. -/
inductive Refuses (heap : Heap) : Value → Step → Reason → Prop
  | notAnObject {v : Value} {step : Step} (h : v.asObject? = none) :
      Refuses heap v step .notAnObject
  | keyNotFound {h : Handle} {name : String} (hname : name ∉ Members.keys (heap.get h).members) :
      Refuses heap (.object h) (.key name) .keyNotFound
  | indexOutOfBounds {h : Handle} {i : Nat} (hi : (heap.get h).size ≤ i) :
      Refuses heap (.object h) (.index i) .indexOutOfBounds

/-- The first `k` steps lead to a value, and one more leads nowhere. -/
def StopsAt (heap : Heap) (root : Value) (steps : List Step) (k : Nat) : Prop :=
  (∃ v, heap.follow root (steps.take k) = .ok v) ∧
    ∃ d, heap.follow root (steps.take (k + 1)) = .error d

/-- What a dead end says, if the first `k` steps lead to a value and one more leads nowhere: the
step after them is refused at that value for the reason given, the text quoted denotes the steps up
to this one, and whichever steps come behind it, the same is said. -/
structure Tells (heap : Heap) (root : Value) (steps : List Step) (d : DeadEnd) (k : Nat) :
    Prop where
  refused : ∃ v step, heap.follow root (steps.take k) = .ok v ∧ steps[k]? = some step ∧
    heap.Refuses v step d.reason
  quoted : ∃ text, d.message = d.reason.message ++ " at '" ++ text ++ "'" ∧
    Path.parse text = .ok (steps.take (k + 1))
  later : ∀ n, k < n → heap.follow root (steps.take n) = .error d

variable {heap : Heap} {root v w : Value} {walked walked' : List Char}
  {steps first second : List Step} {step : Step} {reason : Reason} {d : DeadEnd} {k n : Nat}

/-! ### One step -/

theorem step_eq_error_iff : heap.step v step = .error reason ↔ heap.Refuses v step reason := by
  constructor
  · intro h
    cases v with
    | object o =>
      cases step with
      | key name =>
        cases hget : (heap.get o).get? name with
        | none =>
          simp only [Heap.step, hget, Option.elim_none, Except.error.injEq] at h
          subst h
          exact .keyNotFound (Members.find?_eq_none_iff.1 hget)
        | some w => simp [Heap.step, hget] at h
      | index i =>
        cases hget : (heap.get o).valueAt? i with
        | none =>
          simp only [Heap.step, hget, Option.elim_none, Except.error.injEq] at h
          subst h
          exact .indexOutOfBounds (List.getElem?_eq_none_iff.1 (Option.map_eq_none_iff.1 hget))
        | some w => simp [Heap.step, hget] at h
    | nil | number _ | boolean _ | string _ =>
      cases h
      exact .notAnObject rfl
  · intro h
    cases h with
    | notAnObject h =>
      cases v with
      | object o => cases h
      | nil | number _ | boolean _ | string _ => rfl
    | keyNotFound hname =>
      simp only [Heap.step, Object.get?, Members.find?_eq_none_iff.2 hname, Option.elim_none]
    | indexOutOfBounds hi =>
      simp only [Heap.step, Object.valueAt?, Object.entryAt?, List.getElem?_eq_none_iff.2 hi,
        Option.map_none, Option.elim_none]

/-! ### Walks in two parts -/

theorem followFrom_append : heap.followFrom walked v (first ++ second) =
    (heap.followFrom walked v first).bind
      fun w ↦ heap.followFrom (first.foldl Path.extend walked) w second := by
  induction first generalizing walked v with
  | nil => rfl
  | cons step first ih =>
    simp only [List.cons_append, followFrom, List.foldl_cons]
    cases heap.step v step with
    | error reason => rfl
    | ok w => exact ih

/-- A walk along two paths goes on from where the first leads to; what it says if it fails has the
text of both. -/
theorem follow_append : heap.follow root (first ++ second) =
    (heap.follow root first).bind fun w ↦ heap.followFrom (Path.render first) w second :=
  followFrom_append

/-- The text walked so far has no part in where the steps lead, nor in the reason if nowhere. -/
theorem mapError_reason_followFrom (walked walked' : List Char) :
    (heap.followFrom walked v steps).mapError DeadEnd.reason =
      (heap.followFrom walked' v steps).mapError DeadEnd.reason := by
  induction steps generalizing walked walked' v with
  | nil => rfl
  | cons step steps ih =>
    simp only [followFrom]
    cases heap.step v step with
    | error reason => rfl
    | ok w => exact ih _ _

/-- Two paths lead where the second leads from where the first leads to, and if nowhere, for the
same reason. -/
theorem mapError_reason_follow_append : (heap.follow root (first ++ second)).mapError DeadEnd.reason
    = ((heap.follow root first).bind fun w ↦ heap.follow w second).mapError DeadEnd.reason := by
  rw [follow_append]
  cases heap.follow root first with
  | error d => rfl
  | ok w => exact mapError_reason_followFrom _ _

theorem follow_append_eq_ok_iff : heap.follow root (first ++ second) = .ok v ↔
    ∃ w, heap.follow root first = .ok w ∧ heap.follow w second = .ok v := by
  rw [← mapError_eq_ok_iff, mapError_reason_follow_append, mapError_eq_ok_iff]
  cases heap.follow root first with
  | error d => simp [Except.bind]
  | ok w => simp [Except.bind]

theorem follow_concat (h : heap.follow root first = .ok v) :
    heap.follow root (first ++ [step]) =
      (heap.step v step).mapError fun reason ↦ ⟨reason, Path.render (first ++ [step])⟩ := by
  rw [follow_append, h, Path.render_append_singleton]
  simp only [Except.bind, followFrom]
  cases heap.step v step with
  | error reason => rfl
  | ok w => rfl

/-- What leads nowhere leads nowhere with further steps. -/
theorem follow_eq_error_of_isPrefix (hbeginning : first <+: steps)
    (h : heap.follow root first = .error d) : heap.follow root steps = .error d := by
  obtain ⟨second, rfl⟩ := hbeginning
  rw [follow_append, h]
  rfl

/-! ### Walks that fail -/

/-- A walk fails at a step that is refused at the value that the steps before it lead to, and says
the reason with the text of the steps up to this one. -/
theorem follow_eq_error_iff : heap.follow root steps = .error d ↔
    ∃ first step second v, steps = first ++ step :: second ∧ heap.follow root first = .ok v ∧
      heap.Refuses v step d.reason ∧ d.walked = Path.render (first ++ [step]) := by
  constructor
  · intro h
    -- from the end: the walk failed before its last step, or at it
    induction steps using List.reverseRecOn generalizing d with
    | nil => cases h
    | append_singleton steps step ih =>
      cases hsteps : heap.follow root steps with
      | error e =>
        rw [follow_eq_error_of_isPrefix (List.prefix_append _ _) hsteps] at h
        cases h
        obtain ⟨first, s, second, v, rfl, hd⟩ := ih hsteps
        exact ⟨first, s, second ++ [step], v, by simp, hd⟩
      | ok v =>
        rw [follow_concat hsteps] at h
        cases hstep : heap.step v step with
        | error reason =>
          rw [hstep] at h
          cases h
          exact ⟨steps, step, [], v, rfl, hsteps, step_eq_error_iff.1 hstep, rfl⟩
        | ok w => rw [hstep] at h; cases h
  · rintro ⟨first, step, second, v, rfl, hfirst, hrefuses, hwalked⟩
    have hbeginning : first ++ [step] <+: first ++ step :: second := ⟨second, by simp⟩
    refine follow_eq_error_of_isPrefix hbeginning ?_
    rw [follow_concat hfirst, step_eq_error_iff.2 hrefuses, ← hwalked]
    rfl

/-- There is at most one place to stop. -/
theorem StopsAt.unique (hk : heap.StopsAt root steps k) (hn : heap.StopsAt root steps n) :
    k = n := by
  -- a walk that failed before the second stop would not have reached it
  have hle {k n : Nat} (hk : heap.StopsAt root steps k) (hn : heap.StopsAt root steps n) :
      n ≤ k := by
    obtain ⟨d, hd⟩ := hk.2
    obtain ⟨v, hv⟩ := hn.1
    by_contra hlt
    have hbeginning : steps.take (k + 1) <+: steps.take n :=
      List.take_prefix_take_left (Nat.lt_of_not_le hlt)
    rw [follow_eq_error_of_isPrefix hbeginning hd] at hv
    cases hv
  exact Nat.le_antisymm (hle hn hk) (hle hk hn)

theorem take_length_add_one {α : Type} (l : List α) (a : α) (l' : List α) :
    (l ++ a :: l').take (l.length + 1) = l ++ [a] :=
  List.take_length_add_append 1

/-- A walk stops in front of the step that is refused. -/
theorem stopsAt_length (hfirst : heap.follow root first = .ok v)
    (hrefuses : heap.Refuses v step reason) :
    heap.StopsAt root (first ++ step :: second) first.length := by
  refine ⟨⟨v, by rw [List.take_left' rfl, hfirst]⟩, ⟨reason, Path.render (first ++ [step])⟩, ?_⟩
  rw [take_length_add_one]
  exact follow_eq_error_iff.2 ⟨first, step, [], v, rfl, hfirst, hrefuses, rfl⟩

/-- A walk that fails stops somewhere. -/
theorem exists_stopsAt (h : heap.follow root steps = .error d) :
    ∃ k, heap.StopsAt root steps k := by
  obtain ⟨first, step, second, v, rfl, hfirst, hrefuses, -⟩ := follow_eq_error_iff.1 h
  exact ⟨first.length, stopsAt_length hfirst hrefuses⟩

/-- If a path can hold the steps, then the dead end tells where they stop. -/
theorem StopsAt.tells (hk : heap.StopsAt root steps k) (h : heap.follow root steps = .error d)
    (hwritable : ∀ step ∈ steps, step.IsWritable) : heap.Tells root steps d k := by
  obtain ⟨first, step, second, v, rfl, hfirst, hrefuses, hwalked⟩ := follow_eq_error_iff.1 h
  obtain rfl : k = first.length := hk.unique (stopsAt_length hfirst hrefuses)
  have hdead : heap.follow root ((first ++ step :: second).take (first.length + 1)) = .error d := by
    rw [take_length_add_one]
    exact follow_eq_error_iff.2 ⟨first, step, [], v, rfl, hfirst, hrefuses, hwalked⟩
  refine ⟨⟨v, step, by rw [List.take_left' rfl, hfirst], by simp, hrefuses⟩,
    ⟨String.ofList d.walked, rfl, ?_⟩,
    fun n hn ↦ follow_eq_error_of_isPrefix (List.take_prefix_take_left hn) hdead⟩
  rw [hwalked, ← take_length_add_one first step second]
  exact Path.parse_render_eq_iff.2 fun s hs ↦ hwritable s (List.mem_of_mem_take hs)

/-- The beginnings of a path that was read.  If it leads to a value, then so does every beginning of
it, and what follows leads from there to the same value; in general two paths lead where the second
leads from where the first leads to, and if nowhere, for the same reason.  If it leads nowhere, then
there is one place to stop: the dead end quotes the steps up to the first that cannot be taken, with
the reason why it cannot, and says the same of all longer beginnings. -/
theorem follow_beginnings_of_parse {path : String} (h : Path.parse path = .ok steps) :
    (∀ v, heap.follow root steps = .ok v → ∀ first second, first ++ second = steps →
      ∃ w, heap.follow root first = .ok w ∧ heap.follow w second = .ok v) ∧
    (∀ first second, (heap.follow root (first ++ second)).mapError DeadEnd.reason =
      ((heap.follow root first).bind fun w ↦ heap.follow w second).mapError DeadEnd.reason) ∧
    ∀ d, heap.follow root steps = .error d → (∃! k, heap.StopsAt root steps k) ∧
      ∀ k, heap.StopsAt root steps k → heap.Tells root steps d k := by
  refine ⟨?_, fun first second ↦ mapError_reason_follow_append, fun d hd ↦ ?_⟩
  · rintro v hv first second rfl
    exact follow_append_eq_ok_iff.1 hv
  · obtain ⟨k, hk⟩ := exists_stopsAt hd
    exact ⟨⟨k, hk, fun n hn ↦ hn.unique hk⟩,
      fun n hn ↦ hn.tells hd (Path.pathText_of_parse h).isWritable⟩

/-- In `users[0].nick[1]`, the third step is the first that cannot be taken. -/
theorem follow_beginnings_of_parse_users :
    let heap : Heap := ⟨#[⟨.map, [("users", .object ⟨1⟩)], List.nodup_singleton _⟩,
      ⟨.array, [("0", .object ⟨2⟩)], List.nodup_singleton _⟩,
      ⟨.map, [("name", .string "Ada")], List.nodup_singleton _⟩]⟩
    let steps : List Step := [.key "users", .index 0, .key "nick", .index 1]
    let d : DeadEnd := ⟨.keyNotFound, "users[0].nick".toList⟩
    Path.parse "users[0].nick[1]" = .ok steps ∧ heap.follow (.object ⟨0⟩) steps = .error d ∧
      heap.StopsAt (.object ⟨0⟩) steps 2 ∧ heap.Tells (.object ⟨0⟩) steps d 2 := by
  intro heap steps d
  have hsteps : ∀ step ∈ steps, step.IsWritable := by
    simp only [steps, List.forall_mem_cons]
    exact ⟨.key (by decide) (by decide) (by decide), .index (by decide),
      .key (by decide) (by decide) (by decide), .index (by decide), List.forall_mem_nil _⟩
  have hpath : Path.parse "users[0].nick[1]" = .ok steps :=
    Path.parse_render_eq_iff.2 hsteps
  have hfollow : heap.follow (.object ⟨0⟩) steps = .error d := by decide
  have hstops : heap.StopsAt (.object ⟨0⟩) steps 2 :=
    ⟨⟨.object ⟨2⟩, by decide⟩, d, by decide⟩
  exact ⟨hpath, hfollow, hstops, ((follow_beginnings_of_parse hpath).2.2 d hfollow).2 2 hstops⟩

end Heap

end ScriptHost
