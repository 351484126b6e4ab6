import Mathlib.Algebra.Group.Nat.Defs
import Mathlib.Data.List.Pairwise
import ScriptHost.Proofs.Concurrent.Tokens
import ScriptHost.Proofs.Object.Positions
import ScriptHost.Proofs.Thread.Steps

/-!
# Handles of threads

As long as fewer than `2 ^ 64` numbers are taken, no two spawns answer with the same handle, the
table has the threads whose handles were given out and not used up, and a handle is used up once.
So a join answers with what its thread has come to when it ran the function with the argument of
the one spawn that gave its handle out.

## Main definitions

* `Threads.Shared.Sound` : what holds between the steps of the callers.

## Main results

* `Threads.handle_injective` : different numbers have different handles.
* `Threads.Shared.Sound.lookup_iff`, `Threads.Shared.Sound.lookup_eq_none_iff` : what is found under
  a handle.
* `Threads.Shared.Sound.exists_finish_of_join` : a join answers with what the thread of one spawn
  has come to.
-/

namespace ScriptHost

namespace Threads

/-- Different numbers have different handles. -/
theorem handle_injective : Function.Injective handle := fun _ _ h ↦
  UInt64.toNat_inj.1 (indexKey_injective ((String.append_right_inj _).1 h))

/-! ### The table -/

section Table

variable {τ : Type} {ts : Threads τ} {handle : String} {thread : τ}

/-- What is taken out of the table was in it. -/
theorem live_perm_cons (hnodup : (ts.live.map Prod.fst).Nodup)
    (h : (ts.remove handle).1 = some thread) :
    ts.live.Perm ((handle, thread) :: (ts.remove handle).2.live) := by
  obtain ⟨before, after, hlive, hbefore⟩ := List.lookup_eq_some_iff.1 h
  have hafter : ∀ e ∈ after, (e.1 != handle) = true := fun e he ↦ bne_iff_ne.2 fun heq ↦ by
    rw [hlive, List.map_append, List.map_cons] at hnodup
    exact (List.nodup_cons.1 hnodup.of_append_right).1 (List.mem_map.2 ⟨e, he, heq⟩)
  have hbefore' : ∀ e ∈ before, (e.1 != handle) = true := fun e he ↦
    bne_iff_ne.2 (bne_iff_ne.1 (hbefore e he)).symm
  have hremove : (ts.remove handle).2.live = before ++ after := by
    simp [remove, hlive, List.filter_eq_self.2 hbefore', List.filter_eq_self.2 hafter]
  rw [hremove, hlive]
  exact List.perm_middle

/-- What is found under a handle is in the table. -/
theorem lookup_live_iff (hnodup : (ts.live.map Prod.fst).Nodup) :
    ts.live.lookup handle = some thread ↔ (handle, thread) ∈ ts.live := by
  constructor
  · intro h
    obtain ⟨before, after, hlive, -⟩ := List.lookup_eq_some_iff.1 h
    rw [hlive]
    exact List.mem_append_right _ List.mem_cons_self
  · intro hmem
    cases h : ts.live.lookup handle with
    | none => simpa using List.lookup_eq_none_iff.1 h _ hmem
    | some other =>
      obtain ⟨before, after, hlive, -⟩ := List.lookup_eq_some_iff.1 h
      have hother : (handle, other) ∈ ts.live := by simp [hlive]
      exact congrArg (some ∘ Prod.snd) (List.inj_on_of_nodup_map hnodup hother hmem rfl)

/-- A thread whose handle is free is added to the table. -/
theorem live_insert (h : handle ∉ ts.live.map Prod.fst) :
    (ts.insert handle thread).live = (handle, thread) :: ts.live := by
  have hne : ∀ e ∈ ts.live, (e.1 != handle) = true := fun e he ↦
    bne_iff_ne.2 fun heq ↦ h (List.mem_map.2 ⟨e, he, heq⟩)
  simp [insert, List.filter_eq_self.2 hne]

end Table

section Record

variable {ι : Type} {record : List (Act ι)} {t : ι} {handle : String} {thread : Nat} {id : UInt64}

/-- What spawns have answered with. -/
theorem mem_issued_iff : (handle, thread) ∈ issued record ↔
    ∃ t id cb arg, handle = Threads.handle id ∧ .insert t id cb arg thread ∈ record := by
  rw [issued, spawned, List.mem_map]
  constructor
  · rintro ⟨⟨id, i⟩, hmem, heq⟩
    obtain ⟨act, hact, hspawned⟩ := List.mem_filterMap.1 hmem
    cases act with
    | insert t id' cb arg thread' =>
      cases hspawned
      cases heq
      exact ⟨t, id, cb, arg, rfl, hact⟩
    | _ => cases hspawned
  · rintro ⟨t, id, cb, arg, rfl, hmem⟩
    exact ⟨(id, thread), List.mem_filterMap.2 ⟨_, hmem, rfl⟩, rfl⟩

/-- Spawns that have answered have ended. -/
theorem sublist_settled (record : List (Act ι)) :
    ((spawned record).map Prod.fst).Sublist (settled record) := by
  induction record with
  | nil => exact .slnil
  | cons act record ih =>
    cases act with
    | insert _ id => exact ih.cons_cons id
    | refuse _ id => exact ih.cons id
    | _ => exact ih

/-- If no spawn has ended twice, one that has failed has not answered. -/
theorem notMem_spawned_of_refuse (hnodup : (settled record).Nodup)
    (hrefuse : .refuse t id ∈ record) : id ∉ (spawned record).map Prod.fst := by
  intro hspawned
  obtain ⟨⟨id', thread⟩, hmem, rfl⟩ := List.mem_map.1 hspawned
  obtain ⟨act, hact, heq⟩ := List.mem_filterMap.1 hmem
  have hsymm : Std.Symm fun a b : Act ι ↦
      ∀ x, a.settled? = some x → ∀ y, b.settled? = some y → x ≠ y :=
    ⟨fun a b h y hy x hx ↦ (h x hx y hy).symm⟩
  cases act with
  | insert u id cb arg thread' =>
    cases heq
    exact (List.pairwise_filterMap.1 hnodup).forall hrefuse hact nofun _ rfl _ rfl rfl
  | _ => cases heq

end Record

namespace Shared

variable {ι : Type} {s s' : Shared ι} {t u : ι} {record : List (Act ι)} {act : Act ι}
  {call : Call} {handle : String} {thread : Nat} {cb : Callback} {arg : Value} {id : UInt64}
  {outcome : ThreadOutcome}

/-! ### What holds between the steps -/

/-- A thread was started with this function and this argument. -/
def HasStarted (s : Shared ι) (cb : Callback) (arg : Value) (thread : Nat) : Prop :=
  ∃ outcome?, s.started[thread]? = some ⟨cb, arg, outcome?⟩

/-- What holds between the steps when these acts were done. -/
structure Sound (record : List (Act ι)) (s : Shared ι) : Prop where
  next_eq : s.threads.next = UInt64.ofNat ((taken record).length + 1)
  /-- The numbers were taken in order. -/
  taken_eq : taken record = (List.range (taken record).length).map fun k ↦ UInt64.ofNat (k + 1)
  /-- Each number is had by one call or is that of one that has ended. -/
  numbers : Tokens (· ∈ taken record) (fun t ↦ (s.calls t).number?) (settled record)
  /-- Each thread is had by one call or was put into the table once. -/
  threads : Tokens (· < s.started.length) (fun t ↦ (s.calls t).thread?)
    ((spawned record).map Prod.snd)
  /-- Each thread that was taken out of the table is waited for by one join or was answered for
  once. -/
  waits : Tokens (· ∈ (consumed record).map Prod.snd) (fun t ↦ (s.calls t).waited?)
    (answered record)
  /-- What was put into the table is in it or was taken out of it, once. -/
  table : (s.threads.live ++ consumed record).Perm (issued record)
  /-- A thread runs the function of the spawn that has started it. -/
  inserting {t : ι} {id : UInt64} {cb : Callback} {arg : Value} {thread : Nat} :
    s.calls t = .inserting id cb arg thread → s.HasStarted cb arg thread
  inserted {t : ι} {id : UInt64} {cb : Callback} {arg : Value} {thread : Nat} :
    .insert t id cb arg thread ∈ record → s.HasStarted cb arg thread
  /-- What a thread has come to is what came of its function in the act in which it ended. -/
  ended {thread : Nat} {cb : Callback} {arg : Value} {outcome : ThreadOutcome} :
    s.started[thread]? = some ⟨cb, arg, some outcome⟩ → ∃ w w',
      .finish thread outcome w w' ∈ record ∧ Builtin.runThread cb arg w = .ok outcome w'
  /-- It has ended once. -/
  nodup_finished : (finished record).Nodup
  outcomeOf?_isSome {thread : Nat} : thread ∈ finished record → (s.outcomeOf? thread).isSome = true
  /-- Who waits for a thread has taken it out of the table. -/
  waiting {t : ι} {handle : String} {thread : Nat} :
    s.calls t = .waiting handle thread → (handle, thread) ∈ consumed record
  /-- A join has answered with what its thread has come to. -/
  joined {t : ι} {handle : String} {thread : Nat} {outcome : ThreadOutcome} :
    .join t handle thread outcome ∈ record → (handle, thread) ∈ consumed record ∧
      ∃ cb arg, s.started[thread]? = some ⟨cb, arg, some outcome⟩

theorem sound_initial (world : World) : (initial world : Shared ι).Sound [] where
  next_eq := rfl
  taken_eq := rfl
  numbers := ⟨nofun, nofun, nofun, nofun, List.nodup_nil⟩
  threads := ⟨nofun, nofun, nofun, nofun, List.nodup_nil⟩
  waits := ⟨nofun, nofun, nofun, nofun, List.nodup_nil⟩
  table := .refl _
  inserting := nofun
  inserted := nofun
  ended := nofun
  nodup_finished := List.nodup_nil
  outcomeOf?_isSome := nofun
  waiting := nofun
  joined := nofun

namespace Sound

/-- The next number is new until they begin again. -/
theorem next_notMem (h : s.Sound record) (hfew : (taken record).length + 1 < 2 ^ 64) :
    s.threads.next ∉ taken record := by
  rw [h.taken_eq, h.next_eq, List.mem_map]
  rintro ⟨k, hk, heq⟩
  have hlt : k < (taken record).length := List.mem_range.1 hk
  have hnat := congrArg UInt64.toNat heq
  rw [UInt64.toNat_ofNat', UInt64.toNat_ofNat'] at hnat
  omega

/-- No handle was answered with twice. -/
theorem nodup_issued (h : s.Sound record) : ((issued record).map Prod.fst).Nodup := by
  have hmap : (issued record).map Prod.fst =
      ((spawned record).map Prod.fst).map Threads.handle := by
    rw [issued, List.map_map, List.map_map]
    rfl
  rw [hmap]
  exact (h.numbers.nodup.sublist (sublist_settled record)).map handle_injective

/-- The handle of a spawn that has failed was not answered with. -/
theorem handle_notMem_issued (h : s.Sound record) (hrefuse : .refuse t id ∈ record) :
    Threads.handle id ∉ (issued record).map Prod.fst := by
  intro hmem
  obtain ⟨e, he, hfst⟩ := List.mem_map.1 hmem
  obtain ⟨p, hp, rfl⟩ := List.mem_map.1 he
  have hid : p.1 = id := handle_injective hfst
  exact notMem_spawned_of_refuse h.numbers.nodup hrefuse (hid ▸ List.mem_map_of_mem hp)

/-- No handle is in the table twice, or in it and used up. -/
theorem nodup_table (h : s.Sound record) :
    ((s.threads.live ++ consumed record).map Prod.fst).Nodup :=
  (h.table.map Prod.fst).nodup_iff.2 h.nodup_issued

theorem nodup_live (h : s.Sound record) : (s.threads.live.map Prod.fst).Nodup := by
  have hnodup := h.nodup_table
  rw [List.map_append] at hnodup
  exact hnodup.of_append_left

/-- The handle that a spawn is to answer with is not in the table. -/
theorem handle_notMem (h : s.Sound record) (hcall : s.calls t = .inserting id cb arg thread) :
    Threads.handle id ∉ s.threads.live.map Prod.fst := by
  intro hmem
  obtain ⟨e, he, hfst⟩ := List.mem_map.1 hmem
  have hissued := h.table.subset (List.mem_append_left _ he)
  obtain ⟨p, hp, rfl⟩ := List.mem_map.1 hissued
  have hid : p.1 = id := handle_injective hfst
  have hheld : (s.calls t).number? = some id := by rw [hcall]; rfl
  exact h.numbers.notMem_of_held hheld
    ((sublist_settled record).subset (hid ▸ List.mem_map_of_mem hp))

/-- What a look into the table takes out of it is used up. -/
theorem table_remove (h : s.Sound record) (handle : String) :
    ((s.threads.remove handle).2.live ++ (consumed record ++
      ((s.threads.remove handle).1.map fun thread ↦ (handle, thread)).toList)).Perm
      (issued record) := by
  cases hremove : (s.threads.remove handle).1 with
  | none =>
    rw [remove_eq_self hremove, Option.map_none, Option.toList_none, List.append_nil]
    exact h.table
  | some thread =>
    have hlive := live_perm_cons h.nodup_live hremove
    rw [Option.map_some, Option.toList_some, ← List.append_assoc]
    refine (List.perm_append_singleton _ _).trans (.trans ?_ h.table)
    exact (hlive.append_right _).symm

/-- No thread was put into the table twice. -/
theorem nodup_issued_threads (h : s.Sound record) : ((issued record).map Prod.snd).Nodup := by
  rw [issued, List.map_map]
  exact h.threads.nodup

/-- No thread was taken out of the table twice. -/
theorem nodup_consumed (h : s.Sound record) : ((consumed record).map Prod.snd).Nodup := by
  have hnodup := (h.table.map Prod.snd).nodup_iff.2 h.nodup_issued_threads
  rw [List.map_append] at hnodup
  exact hnodup.of_append_right

/-- What is found under a handle is what was put into the table under it. -/
theorem lookup_iff (h : s.Sound record) : s.threads.live.lookup handle = some thread ↔
    (handle, thread) ∈ issued record ∧ handle ∉ (consumed record).map Prod.fst := by
  rw [lookup_live_iff h.nodup_live, ← h.table.mem_iff, List.mem_append]
  have hnodup := h.nodup_table
  rw [List.map_append, List.nodup_append] at hnodup
  constructor
  · exact fun hlive ↦ ⟨.inl hlive, fun hconsumed ↦
      hnodup.2.2 _ (List.mem_map_of_mem hlive) _ hconsumed rfl⟩
  · rintro ⟨hlive | hconsumed, hnot⟩
    · exact hlive
    · exact absurd (List.mem_map_of_mem hconsumed) hnot

/-- What a look into the table finds was not taken out of it before. -/
theorem notMem_consumed (h : s.Sound record)
    (hremove : (s.threads.remove handle).1 = some thread) :
    thread ∉ (consumed record).map Prod.snd := by
  have hnodup := (h.table.map Prod.snd).nodup_iff.2 h.nodup_issued_threads
  rw [List.map_append, List.nodup_append] at hnodup
  have hlive := List.mem_map_of_mem (f := Prod.snd) ((lookup_live_iff h.nodup_live).1 hremove)
  exact fun hmem ↦ hnodup.2.2 _ hlive _ hmem rfl

/-- Nothing is found under other handles. -/
theorem lookup_eq_none_iff (h : s.Sound record) : s.threads.live.lookup handle = none ↔
    handle ∉ (issued record).map Prod.fst ∨ handle ∈ (consumed record).map Prod.fst := by
  rw [Option.eq_none_iff_forall_ne_some]
  constructor
  · intro hnone
    by_contra hnot
    rw [not_or, not_not] at hnot
    obtain ⟨⟨k, thread⟩, hissued, rfl⟩ := List.mem_map.1 hnot.1
    exact hnone thread (h.lookup_iff.2 ⟨hissued, hnot.2⟩)
  · intro hunknown thread hfound
    obtain ⟨hissued, hconsumed⟩ := h.lookup_iff.1 hfound
    exact hunknown.elim (· (List.mem_map_of_mem hissued)) hconsumed

theorem liveCount_add (h : s.Sound record) :
    s.threads.liveCount + (consumed record).length = (issued record).length := by
  rw [liveCount, ← List.length_append, h.table.length_eq]

/-- A join that has answered has answered with what the thread of the spawn of its handle came to in
the act in which it ended. -/
theorem exists_finish_of_join (h : s.Sound record)
    (hmem : .join t handle thread outcome ∈ record) :
    ∃ u id cb arg w w', handle = Threads.handle id ∧ .insert u id cb arg thread ∈ record ∧
      .finish thread outcome w w' ∈ record ∧ Builtin.runThread cb arg w = .ok outcome w' := by
  obtain ⟨hconsumed, cb, arg, hstarted⟩ := h.joined hmem
  obtain ⟨u, id, cb', arg', rfl, hinsert⟩ :=
    mem_issued_iff.1 (h.table.subset (List.mem_append_right _ hconsumed))
  obtain ⟨outcome?, hstarted'⟩ := h.inserted hinsert
  cases hstarted.symm.trans hstarted'
  obtain ⟨w, w', hfinish, hrun⟩ := h.ended hstarted
  exact ⟨u, id, cb, arg, w, w', rfl, hinsert, hfinish, hrun⟩

end Sound

end Shared

end Threads

end ScriptHost
