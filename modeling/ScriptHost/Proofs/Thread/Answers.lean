import ScriptHost.Proofs.Thread.Builtins
import ScriptHost.Proofs.Thread.Handles

/-!
# Answers to spawns, joins and detaches

The steps of the callers and the threads keep what was handed out apart, so that after every run
that takes fewer than `2 ^ 64` numbers the answers are consistent.

## Main definitions

* `Threads.Shared.IsConsistent` : what spawns, joins and detaches answer.

## Main results

* `Threads.Shared.Sound.step` : every step keeps what holds between the steps.
* `Threads.Shared.isConsistent_of_run` : after every run the answers are consistent.
-/

namespace ScriptHost

namespace Threads

namespace Shared

variable {ι : Type} {s s' : Shared ι} {t u : ι} {record : List (Act ι)} {act : Act ι}
  {call : Call} {handle : String} {thread : Nat} {cb : Callback} {arg : Value} {id : UInt64}
  {outcome : ThreadOutcome}

/-! ### What a step keeps -/

variable [DecidableEq ι]

/-- What calls hold after a step of one of them. -/
theorem held_put {α : Type} (f : Call → Option α) :
    (fun u ↦ f ((s.put t call).calls u)) = Function.update (fun u ↦ f (s.calls u)) t (f call) :=
  Function.comp_update f s.calls t call

theorem held_put_of_eq {α : Type} (f : Call → Option α) (h : f call = f (s.calls t)) :
    (fun u ↦ f ((s.put t call).calls u)) = fun u ↦ f (s.calls u) := by
  rw [held_put, h]
  exact Function.update_eq_self t fun u ↦ f (s.calls u)

theorem number?_afterSeek (handle : String) (thread? : Option Nat) :
    (afterSeek handle thread?).number? = none := by
  cases thread? <;> rfl

theorem thread?_afterSeek (handle : String) (thread? : Option Nat) :
    (afterSeek handle thread?).thread? = none := by
  cases thread? <;> rfl

/-- A step takes the next number or none. -/
theorem Step.next_eq (hstep : Step s act s') :
    act.taken? = some s.threads.next ∧ s'.threads.next = s.threads.next + 1 ∨
      act.taken? = none ∧ s'.threads.next = s.threads.next := by
  cases hstep with
  | take => exact .inl ⟨rfl, rfl⟩
  | _ => exact .inr ⟨rfl, rfl⟩

namespace Sound

theorem step_next_eq (h : s.Sound record) (hstep : Step s act s') :
    s'.threads.next = UInt64.ofNat ((taken (record ++ [act])).length + 1) := by
  rw [taken_append]
  rcases hstep.next_eq with ⟨htaken, hnext⟩ | ⟨htaken, hnext⟩
  · rw [hnext, h.next_eq, htaken, List.length_append, Option.toList_some, List.length_singleton]
    exact (UInt64.ofNat_add _ 1).symm
  · rw [hnext, h.next_eq, htaken, Option.toList_none, List.append_nil]

theorem step_taken_eq (h : s.Sound record) (hstep : Step s act s') :
    taken (record ++ [act]) =
      (List.range (taken (record ++ [act])).length).map fun k ↦ UInt64.ofNat (k + 1) := by
  rw [taken_append]
  rcases hstep.next_eq with ⟨htaken, -⟩ | ⟨htaken, -⟩
  · rw [htaken, Option.toList_some, List.length_append, List.length_singleton, List.range_succ,
      List.map_append, ← h.taken_eq, h.next_eq]
    rfl
  · rw [htaken, Option.toList_none, List.append_nil]
    exact h.taken_eq

/-- A number is taken by one call, which ends once. -/
theorem step_numbers (h : s.Sound record) (hstep : Step s act s')
    (hfew : (taken (record ++ [act])).length < 2 ^ 64) :
    Tokens (· ∈ taken (record ++ [act])) (fun t ↦ (s'.calls t).number?)
      (settled (record ++ [act])) := by
  rw [taken_append] at hfew ⊢
  rw [settled_append]
  cases hstep with
  | @take t cb arg call =>
    have hnew := h.next_notMem (by simpa [Act.taken?] using hfew)
    simp only [Act.taken?, Act.settled?, Option.toList_some, Option.toList_none, List.append_nil]
    rw [held_put Call.number?]
    exact h.numbers.take hnew t fun y ↦ by simp [takeId]
  | start call | join call =>
    simp only [Act.taken?, Act.settled?, Option.toList_none, List.append_nil]
    rw [held_put_of_eq Call.number? (by rw [call]; rfl)]
    exact h.numbers
  | refuse call | insert call =>
    simp only [Act.taken?, Act.settled?, Option.toList_some, Option.toList_none, List.append_nil]
    rw [held_put Call.number?]
    exact h.numbers.issue (by rw [call]; rfl)
  | seek handle call =>
    simp only [Act.taken?, Act.settled?, Option.toList_none, List.append_nil]
    rw [held_put_of_eq Call.number? (by rw [call, number?_afterSeek]; rfl)]
    exact h.numbers
  | detach | finish | other =>
    simp only [Act.taken?, Act.settled?, Option.toList_none, List.append_nil]
    exact h.numbers

/-- A thread is started by one call, which puts it into the table. -/
theorem step_threads (h : s.Sound record) (hstep : Step s act s') :
    Tokens (· < s'.started.length) (fun t ↦ (s'.calls t).thread?)
      ((spawned (record ++ [act])).map Prod.snd) := by
  rw [spawned_append]
  cases hstep with
  | take _ _ call | refuse call | join call =>
    simp only [Act.spawned?, Option.toList_none, List.append_nil]
    rw [held_put_of_eq Call.thread? (by rw [call]; rfl)]
    exact h.threads
  | @start t id cb arg call =>
    simp only [Act.spawned?, Option.toList_none, List.append_nil]
    rw [held_put Call.thread?]
    refine h.threads.take (Nat.lt_irrefl _) t fun y ↦ ?_
    rw [List.length_append, List.length_singleton]
    omega
  | insert call =>
    simp only [Act.spawned?, Option.toList_some, List.map_append]
    rw [held_put Call.thread?]
    exact h.threads.issue (by rw [call]; rfl)
  | seek handle call =>
    simp only [Act.spawned?, Option.toList_none, List.append_nil]
    rw [held_put_of_eq Call.thread? (by rw [call, thread?_afterSeek]; rfl)]
    exact h.threads
  | finish =>
    simp only [Act.spawned?, Option.toList_none, List.append_nil, List.length_set]
    exact h.threads
  | detach | other =>
    simp only [Act.spawned?, Option.toList_none, List.append_nil]
    exact h.threads

theorem step_table (h : s.Sound record) (hstep : Step s act s') :
    (s'.threads.live ++ consumed (record ++ [act])).Perm (issued (record ++ [act])) := by
  rw [issued, spawned_append, consumed_append, List.map_append, ← issued]
  cases hstep with
  | insert call =>
    simp only [Act.spawned?, Act.consumed?, Option.toList_some, Option.toList_none,
      List.append_nil, List.map_cons, List.map_nil]
    rw [live_insert (h.handle_notMem call)]
    exact (h.table.cons _).trans (List.perm_append_singleton _ _).symm
  | seek handle | detach handle =>
    simp only [Act.spawned?, Act.consumed?, Option.toList_none, List.map_nil, List.append_nil]
    exact h.table_remove handle
  | _ =>
    simp only [Act.spawned?, Act.consumed?, Option.toList_none, List.map_nil, List.append_nil]
    exact h.table

/-- A thread is waited for by the join that has found it, which answers for it. -/
theorem step_waits (h : s.Sound record) (hstep : Step s act s') :
    Tokens (· ∈ (consumed (record ++ [act])).map Prod.snd) (fun t ↦ (s'.calls t).waited?)
      (answered (record ++ [act])) := by
  rw [consumed_append, answered_append]
  cases hstep with
  | take _ _ call | refuse call | start call | insert call =>
    simp only [Act.consumed?, Act.answered?, Option.toList_none, List.append_nil]
    rw [held_put_of_eq Call.waited? (by rw [call]; rfl)]
    exact h.waits
  | @seek t handle call =>
    cases hremove : (s.threads.remove handle).1 with
    | none =>
      simp only [Act.consumed?, Act.answered?, Option.map_none, Option.toList_none, List.append_nil]
      rw [held_put_of_eq Call.waited? (by rw [call]; rfl)]
      exact h.waits
    | some thread =>
      simp only [Act.consumed?, Act.answered?, Option.map_some, Option.toList_some,
        Option.toList_none, List.append_nil, List.map_append]
      rw [held_put Call.waited?]
      exact h.waits.take (h.notMem_consumed hremove) t fun y ↦ by simp
  | @join t handle thread cb arg outcome call =>
    simp only [Act.consumed?, Act.answered?, Option.toList_none, Option.toList_some,
      List.append_nil]
    rw [held_put Call.waited?]
    exact h.waits.issue (by rw [call]; rfl)
  | @detach t handle call =>
    cases hremove : (s.threads.remove handle).1 with
    | none =>
      simp only [Act.consumed?, Act.answered?, Option.map_none, Option.toList_none, List.append_nil]
      exact h.waits
    | some thread =>
      simp only [Act.consumed?, Act.answered?, Option.map_some, Option.toList_some,
        List.map_append]
      exact h.waits.takeIssue (h.notMem_consumed hremove) fun y ↦ by simp
  | finish | other =>
    simp only [Act.consumed?, Act.answered?, Option.toList_none, List.append_nil]
    exact h.waits

/-- The handle that a spawn is to answer with is free. -/
theorem lookup_of_insert (h : s.Sound record) (hstep : Step s (.insert t id cb arg thread) s') :
    s.threads.live.lookup (Threads.handle id) = none := by
  cases hstep with
  | insert call =>
    refine List.lookup_eq_none_iff.2 fun e he ↦ bne_iff_ne.2 fun heq ↦ ?_
    exact h.handle_notMem call (heq ▸ List.mem_map_of_mem he)

end Sound

/-! ### What threads come to -/

/-- A thread that was started keeps its function and its argument, and what it has come to. -/
theorem Step.exists_started (hstep : Step s act s') {started : Started}
    (h : s.started[thread]? = some started) :
    ∃ outcome?, s'.started[thread]? = some { started with outcome? } ∧
      ∀ outcome, started.outcome? = some outcome → outcome? = some outcome := by
  have hlt : thread < s.started.length := (List.getElem?_eq_some_iff.1 h).1
  cases hstep with
  | start => exact ⟨started.outcome?, (List.getElem?_append_left hlt).trans h, fun _ ↦ id⟩
  | @finish finished cb arg outcome _ running =>
    by_cases hthread : finished = thread
    · subst hthread
      obtain rfl := Option.some.inj (h.symm.trans running)
      exact ⟨some outcome, List.getElem?_set_self hlt, nofun⟩
    · exact ⟨started.outcome?, (List.getElem?_set_ne hthread).trans h, fun _ ↦ id⟩
  | _ => exact ⟨started.outcome?, h, fun _ ↦ id⟩

theorem Step.hasStarted (hstep : Step s act s') (h : s.HasStarted cb arg thread) :
    s'.HasStarted cb arg thread := by
  obtain ⟨_, h⟩ := h
  obtain ⟨outcome?, h', -⟩ := hstep.exists_started h
  exact ⟨outcome?, h'⟩

/-- What a thread has come to it keeps. -/
theorem Step.outcomeOf?_eq (hstep : Step s act s') (h : s.outcomeOf? thread = some outcome) :
    s'.outcomeOf? thread = some outcome := by
  obtain ⟨cb, arg, hstarted⟩ := outcomeOf?_eq_some_iff.1 h
  obtain ⟨outcome?, hstarted', hkept⟩ := hstep.exists_started hstarted
  obtain rfl := hkept outcome rfl
  exact outcomeOf?_eq_some_iff.2 ⟨cb, arg, hstarted'⟩

/-- Where a step leaves a caller: where it was, or at the point of its call that the act tells. -/
theorem Step.calls_cases (hstep : Step s act s') (t : ι) :
    s'.calls t = s.calls t ∨ s'.calls t = .idle ∨ (∃ id cb arg, s'.calls t = .starting id cb arg) ∨
      (∃ id cb arg thread, s'.calls t = .inserting id cb arg thread ∧
        s'.HasStarted cb arg thread) ∨
      ∃ handle thread, s'.calls t = .waiting handle thread ∧
        (handle, thread) ∈ act.consumed?.toList := by
  have hput {v : ι} {call : Call} : (s.put v call).calls t = s.calls t ∨
      (s.put v call).calls t = call := by
    by_cases htv : t = v
    · exact .inr (htv ▸ calls_put_self)
    · exact .inl (calls_put_of_ne htv)
  cases hstep with
  | take cb arg => exact hput.imp_right fun h ↦ .inr (.inl ⟨_, cb, arg, h⟩)
  | refuse | insert | join => exact hput.imp_right .inl
  | @start _ id cb arg =>
    refine hput.imp_right fun h ↦ .inr (.inr (.inl ⟨id, cb, arg, _, h, none, ?_⟩))
    exact List.getElem?_concat_length
  | seek handle =>
    cases hremove : (s.threads.remove handle).1 with
    | none => exact hput.imp_right .inl
    | some thread =>
      exact hput.imp_right fun h ↦ .inr (.inr (.inr ⟨handle, thread, h, List.mem_singleton_self _⟩))
  | detach | finish | other => exact .inl rfl

namespace Sound

theorem step_inserting (h : s.Sound record) (hstep : Step s act s')
    (hcall : s'.calls t = .inserting id cb arg thread) : s'.HasStarted cb arg thread := by
  rcases hstep.calls_cases t with heq | heq | ⟨_, _, _, heq⟩ | ⟨_, _, _, _, heq, hstarted⟩ |
    ⟨_, _, heq, -⟩
  · exact hstep.hasStarted (h.inserting (heq.symm.trans hcall))
  · cases heq.symm.trans hcall
  · cases heq.symm.trans hcall
  · cases heq.symm.trans hcall
    exact hstarted
  · cases heq.symm.trans hcall

theorem step_inserted (h : s.Sound record) (hstep : Step s act s')
    (hmem : .insert t id cb arg thread ∈ record ++ [act]) : s'.HasStarted cb arg thread := by
  rcases List.mem_append.1 hmem with hmem | hmem
  · exact hstep.hasStarted (h.inserted hmem)
  · obtain rfl := List.mem_singleton.1 hmem
    cases hstep with
    | insert call => exact h.inserting call

theorem step_ended (h : s.Sound record) (hstep : Step s act s')
    (hended : s'.started[thread]? = some ⟨cb, arg, some outcome⟩) : ∃ w w',
      .finish thread outcome w w' ∈ record ++ [act] ∧
        Builtin.runThread cb arg w = .ok outcome w' := by
  -- What has ended before this step has ended in an act of the record.
  have hbefore (hended : s.started[thread]? = some ⟨cb, arg, some outcome⟩) : ∃ w w',
      .finish thread outcome w w' ∈ record ++ [act] ∧
        Builtin.runThread cb arg w = .ok outcome w' := by
    obtain ⟨w, w', hmem, hrun⟩ := h.ended hended
    exact ⟨w, w', List.mem_append_left _ hmem, hrun⟩
  cases hstep with
  | start call =>
    rw [List.getElem?_append] at hended
    split_ifs at hended
    · exact hbefore hended
    · rw [List.getElem?_singleton] at hended
      split_ifs at hended
      cases hended
  | @finish ending _ _ _ _ running ran =>
    by_cases hthread : ending = thread
    · subst hthread
      have hlt : ending < s.started.length := (List.getElem?_eq_some_iff.1 running).1
      cases (List.getElem?_set_self hlt).symm.trans hended
      exact ⟨_, _, List.mem_append_right _ (List.mem_singleton_self _), ran⟩
    · exact hbefore ((List.getElem?_set_ne hthread).symm.trans hended)
  | _ => exact hbefore hended

/-- A thread ends that has not ended before. -/
theorem step_nodup_finished (h : s.Sound record) (hstep : Step s act s') :
    (finished (record ++ [act])).Nodup := by
  rw [finished_append]
  cases hstep with
  | @finish thread cb arg outcome _ running =>
    have hrunning : s.outcomeOf? thread = none := by rw [outcomeOf?, running]; rfl
    refine List.nodup_append.2 ⟨h.nodup_finished, List.nodup_singleton thread, fun i hi j hj ↦ ?_⟩
    rintro rfl
    have hisSome := h.outcomeOf?_isSome hi
    rw [List.mem_singleton.1 hj, hrunning] at hisSome
    cases hisSome
  | _ => simpa [Act.finished?] using h.nodup_finished

theorem step_outcomeOf?_isSome (h : s.Sound record) (hstep : Step s act s')
    (hmem : thread ∈ finished (record ++ [act])) : (s'.outcomeOf? thread).isSome = true := by
  rw [finished_append, List.mem_append] at hmem
  rcases hmem with hmem | hmem
  · obtain ⟨outcome, houtcome⟩ := Option.isSome_iff_exists.1 (h.outcomeOf?_isSome hmem)
    rw [hstep.outcomeOf?_eq houtcome]
    rfl
  · cases hstep with
    | finish running ran =>
      obtain rfl := List.mem_singleton.1 hmem
      rw [outcomeOf?, List.getElem?_set_self (List.getElem?_eq_some_iff.1 running).1]
      rfl
    | _ => cases hmem

theorem step_waiting (h : s.Sound record) (hstep : Step s act s')
    (hcall : s'.calls t = .waiting handle thread) :
    (handle, thread) ∈ consumed (record ++ [act]) := by
  rw [consumed_append]
  rcases hstep.calls_cases t with heq | heq | ⟨_, _, _, heq⟩ | ⟨_, _, _, _, heq, -⟩ |
    ⟨_, _, heq, hconsumed⟩
  · exact List.mem_append_left _ (h.waiting (heq.symm.trans hcall))
  · cases heq.symm.trans hcall
  · cases heq.symm.trans hcall
  · cases heq.symm.trans hcall
  · cases heq.symm.trans hcall
    exact List.mem_append_right _ hconsumed

theorem step_joined (h : s.Sound record) (hstep : Step s act s')
    (hmem : .join t handle thread outcome ∈ record ++ [act]) :
    (handle, thread) ∈ consumed (record ++ [act]) ∧
      ∃ cb arg, s'.started[thread]? = some ⟨cb, arg, some outcome⟩ := by
  rw [consumed_append]
  rcases List.mem_append.1 hmem with hmem | hmem
  · obtain ⟨hconsumed, cb, arg, hstarted⟩ := h.joined hmem
    obtain ⟨outcome?, hstarted', hkept⟩ := hstep.exists_started hstarted
    obtain rfl := hkept outcome rfl
    exact ⟨List.mem_append_left _ hconsumed, cb, arg, hstarted'⟩
  · obtain rfl := List.mem_singleton.1 hmem
    cases hstep with
    | join call ended => exact ⟨List.mem_append_left _ (h.waiting call), _, _, ended⟩

/-- Every step keeps what holds between the steps, until the numbers begin again. -/
theorem step (h : s.Sound record) (hstep : Step s act s')
    (hfew : (taken (record ++ [act])).length < 2 ^ 64) : s'.Sound (record ++ [act]) where
  next_eq := h.step_next_eq hstep
  taken_eq := h.step_taken_eq hstep
  numbers := h.step_numbers hstep hfew
  threads := h.step_threads hstep
  waits := h.step_waits hstep
  table := h.step_table hstep
  inserting := h.step_inserting hstep
  inserted := h.step_inserted hstep
  ended := h.step_ended hstep
  nodup_finished := h.step_nodup_finished hstep
  outcomeOf?_isSome := h.step_outcomeOf?_isSome hstep
  waiting := h.step_waiting hstep
  joined := h.step_joined hstep

end Sound

/-! ### What is answered -/

/-- What holds between the steps holds after every run that takes fewer than `2 ^ 64` numbers. -/
theorem sound_of_run {world : World} (hrun : Run Step (initial world : Shared ι) record s)
    (hfew : (taken record).length < 2 ^ 64) : s.Sound record := by
  have hsound := hrun.preserves_history
    (P := fun record (s : Shared ι) ↦ (taken record).length < 2 ^ 64 → s.Sound record)
    (fun {past _ act _} ih hstep hfew ↦ (ih (by
      rw [taken_append, List.length_append] at hfew
      omega)).step hstep hfew) fun _ ↦ sound_initial world
  exact hsound hfew

/-- What spawns, joins and detaches have answered and are to answer. -/
structure IsConsistent (s : Shared ι) (record : List (Act ι)) : Prop where
  /-- No two spawns have answered with the same handle, or put the same thread into the table. -/
  nodup_handles : ((issued record).map Prod.fst).Nodup
  nodup_threads : ((issued record).map Prod.snd).Nodup
  /-- The handle of a spawn that has failed is nobody's. -/
  refused {t : ι} {id : UInt64} :
    .refuse t id ∈ record → Threads.handle id ∉ (issued record).map Prod.fst
  /-- A thread is put into the table under a handle that is not in it. -/
  lookup_of_insert {t : ι} {id : UInt64} {cb : Callback} {arg : Value} {thread : Nat}
    {s' : Shared ι} : Step s (.insert t id cb arg thread) s' →
      s.threads.live.lookup (Threads.handle id) = none
  /-- For each thread one join or detach at most has found it. -/
  nodup_consumed : ((consumed record).map Prod.snd).Nodup
  /-- For each thread one join or detach at most has answered. -/
  nodup_answered : (answered record).Nodup
  /-- A thread comes to something at most once. -/
  nodup_finished : (finished record).Nodup
  /-- A join that answers with a value answers with the one that its thread has come to, when it ran
  the function with the argument of the spawn that has answered with the handle. -/
  joined {t : ι} {handle : String} {thread : Nat} {v : Value} :
    .join t handle thread (some v) ∈ record → ∃ u id cb arg w w', handle = Threads.handle id ∧
      .insert u id cb arg thread ∈ record ∧ .finish thread (some v) w w' ∈ record ∧
        cb.run [arg] w = .ok v w'
  /-- A join that answers with nil for a thread does so because this run was a panic. -/
  panicked {t : ι} {handle : String} {thread : Nat} :
    .join t handle thread none ∈ record → ∃ u id cb arg w w' e, handle = Threads.handle id ∧
      .insert u id cb arg thread ∈ record ∧ .finish thread none w w' ∈ record ∧
        cb.run [arg] w = .error e w'
  /-- A join or a detach finds the thread of a handle that was answered with and is not used up. -/
  found {t : ι} {handle : String} {thread : Nat} {thread? : Option Nat} {s' : Shared ι} :
    (handle, thread) ∈ issued record → handle ∉ (consumed record).map Prod.fst →
      Step s (.seek t handle thread?) s' ∨ Step s (.detach t handle thread?) s' →
        thread? = some thread
  /-- For a handle that was never answered with or is used up it finds nothing, and it leaves the
  table as it is. -/
  unknown {t : ι} {handle : String} {thread? : Option Nat} {s' : Shared ι} :
    handle ∉ (issued record).map Prod.fst ∨ handle ∈ (consumed record).map Prod.fst →
      Step s (.seek t handle thread?) s' ∨ Step s (.detach t handle thread?) s' →
        thread? = none ∧ s'.threads = s.threads
  /-- As many threads are in the table as were put into it and not taken out of it. -/
  liveCount : s.threads.liveCount + (consumed record).length = (issued record).length
  /-- The builtins of a host with this table are spawns, joins and detaches of any caller that is in
  no call. -/
  builtins {host : Host} {t : ι} : s.Shows host → s.calls t = .idle → s.HasBuiltins t host

/-- A join or a detach finds what is in the table. -/
theorem Step.found {thread? : Option Nat}
    (hstep : Step s (.seek t handle thread?) s' ∨ Step s (.detach t handle thread?) s') :
    thread? = s.threads.live.lookup handle ∧ (thread? = none → s'.threads = s.threads) := by
  rcases hstep with hstep | hstep
  · cases hstep with
    | seek => exact ⟨rfl, remove_eq_self⟩
  · cases hstep with
    | detach => exact ⟨rfl, remove_eq_self⟩

/-- After every run that takes fewer than `2 ^ 64` numbers, what spawns, joins and detaches have
answered and are to answer is consistent. -/
theorem isConsistent_of_run {world : World} (hrun : Run Step (initial world : Shared ι) record s)
    (hfew : (taken record).length < 2 ^ 64) : s.IsConsistent record where
  nodup_handles := (sound_of_run hrun hfew).nodup_issued
  nodup_threads := (sound_of_run hrun hfew).nodup_issued_threads
  refused := (sound_of_run hrun hfew).handle_notMem_issued
  lookup_of_insert hstep := (sound_of_run hrun hfew).lookup_of_insert hstep
  nodup_consumed := (sound_of_run hrun hfew).nodup_consumed
  nodup_answered := (sound_of_run hrun hfew).waits.nodup
  nodup_finished := (sound_of_run hrun hfew).nodup_finished
  joined hmem := by
    obtain ⟨u, id, cb, arg, w, w', hhandle, hinsert, hfinish, hran⟩ :=
      (sound_of_run hrun hfew).exists_finish_of_join hmem
    exact ⟨u, id, cb, arg, w, w', hhandle, hinsert, hfinish,
      Builtin.runThread_eq_ok_some_iff.1 hran⟩
  panicked hmem := by
    obtain ⟨u, id, cb, arg, w, w', hhandle, hinsert, hfinish, hran⟩ :=
      (sound_of_run hrun hfew).exists_finish_of_join hmem
    obtain ⟨e, herror⟩ := Builtin.runThread_eq_ok_none_iff.1 hran
    exact ⟨u, id, cb, arg, w, w', e, hhandle, hinsert, hfinish, herror⟩
  found hissued hconsumed hstep :=
    (Step.found hstep).1.trans ((sound_of_run hrun hfew).lookup_iff.2 ⟨hissued, hconsumed⟩)
  unknown hunknown hstep := by
    obtain ⟨hfound, hnone⟩ := Step.found hstep
    have hthread? := hfound.trans ((sound_of_run hrun hfew).lookup_eq_none_iff.2 hunknown)
    exact ⟨hthread?, hnone hthread?⟩
  liveCount := (sound_of_run hrun hfew).liveCount_add
  builtins := Shows.hasBuiltins

/-- Two callers spawn, one of them in vain, and both join the thread of the first: the one who comes
first gets its value and the other one none, and the handle that nobody was given finds nothing.  On
a host with the table that they leave, the next spawn answers with the third handle. -/
theorem isConsistent_of_run_race : ∃ (record : List (Act Bool)) (s : Shared Bool),
    Run Step (initial .initial) record s ∧ (taken record).length = 2 ∧ s.IsConsistent record ∧
      .join true "thread:1" 0 (some (.boolean true)) ∈ record ∧
      .seek false "thread:1" none ∈ record ∧ .detach false "thread:2" none ∈ record ∧
      s.threads.liveCount = 0 ∧ ∃ host host', s.Shows host ∧
        Builtin.threadSpawn [.string "echo", .boolean true] host =
          .ok (.string "thread:3") host' := by
  let cb : Callback := ⟨.single, fun args ↦ pure (args.headD .nil)⟩
  let v : Value := .boolean true
  have hstart : Run Step (initial .initial : Shared Bool) [] (initial .initial) := .nil _
  have hrun := hstart
    |>.snoc (.take (t := false) cb v rfl)
    |>.snoc (.take (t := true) cb .nil rfl)
    |>.snoc (.start (t := false) rfl)
    |>.snoc (.refuse (t := true) rfl)
    |>.snoc (.insert (t := false) rfl)
    |>.snoc (.seek (t := true) "thread:1" rfl)
    |>.snoc (.seek (t := false) "thread:1" rfl)
    |>.snoc (.detach (t := false) "thread:2" rfl)
    |>.snoc (@Step.finish _ _ _ 0 cb v (some v) .initial rfl rfl)
    |>.snoc (.join (t := true) rfl rfl)
  have hconsistent := isConsistent_of_run hrun (by decide)
  refine ⟨_, _, hrun, rfl, hconsistent, ?_, ?_, ?_, rfl, ?_⟩
  · exact List.mem_of_getElem? (i := 9) rfl
  · exact List.mem_of_getElem? (i := 6) rfl
  · exact List.mem_of_getElem? (i := 7) rfl
  · let host : Host :=
      { Host.inWorld .initial with callbacks := ⟨[("echo", cb)]⟩, threads := ⟨3, []⟩ }
    have hbound : host.callbacks.get? "echo" = some cb := rfl
    have hbuiltins := hconsistent.builtins (t := true) (⟨rfl, rfl, rfl⟩ : Shows _ host) rfl
    obtain ⟨outcome, world, -, hspawn, -⟩ := hbuiltins.spawn [v] hbound rfl (by decide) rfl
    have hthird : Builtin.threadSpawn [.string "echo", v] host =
        .ok (.string (Threads.handle 3)) (Builtin.entered host "echo" outcome world) := hspawn
    exact ⟨host, _, ⟨rfl, rfl, rfl⟩, (by decide : Threads.handle 3 = "thread:3") ▸ hthird⟩

end Shared

end Threads

end ScriptHost
