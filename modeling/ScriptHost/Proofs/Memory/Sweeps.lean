import ScriptHost.Proofs.Memory.Ownership

/-!
# What a shared tracker owns and gives back

While nobody has the lock, the tracker owns the blocks of its registry and those that calls are to
add to it, each once.  So a sweep, during which other threads go on, gives back what the registry
had, each block once, and nothing but pending blocks is left.

## Main definitions

* `Tracker.Shared.Reached` : the states that runs lead to.
* `Tracker.Shared.Owns` : a block is the tracker's.
* `Tracker.Shared.Performs` : what a thread does with which nobody interferes.
* `Tracker.Shared.IsAccounted` : what is owned, resized and given back.

## Main results

* `Tracker.Shared.Sound.sweeping_run` : the blocks that are given back during a sweep.
* `Tracker.Shared.Reached.isAccounted` : every state that is reached is accounted for.
-/

namespace ScriptHost

namespace Tracker

namespace Shared

variable {ι : Type} {s s' s₁ s₂ s₃ : Shared ι} {t u : ι} {e : ι × Act} {es : List (ι × Act)}
  {a x : Address} {count : Nat}

/-- A block is the tracker's. -/
def Owns (s : Shared ι) (a : Address) : Prop := s.tracker.memory.IsAllocated a ∧ a ∉ s.own

namespace Sound

theorem holder_eq (h : s.Sound) (k k' : Holder ι) (hk : s.Holds k a) (hk' : s.Holds k' a) :
    k = k' :=
  h.held.unique hk hk'

/-- What is owned is had by the registry or pending. -/
theorem owns_iff (h : s.Sound) : s.Owns a ↔ a ∈ s.registry ∨ ∃ t, s.IsPending t a := by
  rw [Owns, h.held.allocated_iff]
  constructor
  · rintro ⟨⟨k, hk⟩, hown⟩
    cases k with
    | registry => exact .inl hk
    | pending t => exact .inr ⟨t, hk⟩
    | program => exact absurd hk hown
  · rintro (ha | ⟨t, ha⟩)
    · exact ⟨⟨.registry, ha⟩, fun hown ↦ nomatch h.holder_eq .registry .program ha hown⟩
    · exact ⟨⟨.pending t, ha⟩, fun hown ↦ nomatch h.holder_eq (.pending t) .program ha hown⟩

/-- A block that is pending is not in the registry. -/
theorem notMem_registry (h : s.Sound) (ha : s.IsPending t a) : a ∉ s.registry :=
  fun hmem ↦ nomatch h.holder_eq (.pending t) .registry ha hmem

/-- A block is pending for one call only. -/
theorem isPending_unique (h : s.Sound) (ht : s.IsPending t a) (hu : s.IsPending u a) : t = u :=
  Holder.pending.inj (h.holder_eq (.pending t) (.pending u) ht hu)

/-- What the registry has while no block is being moved is the tracker's. -/
theorem owns_of_call (h : s.Sound) {call : Call} (hcall : s.calls t = call) (hlocks : call.Locks)
    (hsettle : call.settle s.tracker = s.tracker) (ha : a ∈ s.tracker.live) : s.Owns a := by
  rw [h.owns_iff, h.registry_eq hcall hlocks, hsettle]
  exact .inl ha

end Sound

variable [DecidableEq ι]

/-! ### Sweeps -/

/-- The blocks that a thread has given back, in their order. -/
def freedBy (t : ι) (es : List (ι × Act)) : List Address :=
  es.filterMap fun
    | (u, .free a) => if u = t then some a else none
    | _ => none

theorem freedBy_cons (t : ι) (e : ι × Act) (es : List (ι × Act)) :
    freedBy t (e :: es) = freedBy t [e] ++ freedBy t es := by
  rw [freedBy, ← List.singleton_append, List.filterMap_append]
  rfl

/-- A step during a sweep: it goes on, and what is not given back is still in the registry. -/
theorem Sound.sweeping_step (h : s.Sound) (hcall : s.calls t = .sweeping count)
    (hstep : Step s e s') (hfinish : e ≠ (t, .finish count)) :
    s'.calls t = .sweeping count ∧
      s.tracker.live.Perm (freedBy t [e] ++ s'.tracker.live) := by
  rcases e with ⟨u, act⟩
  by_cases hu : t = u
  · subst hu
    cases hstep with
    | @free _ _ a _ live =>
      refine ⟨hcall, ?_⟩
      have hfreed : freedBy t [(t, .free a)] = [a] := by simp [freedBy]
      rw [hfreed, List.singleton_append]
      have hperm := List.perm_cons_erase live
      rwa [h.nodup.erase_eq_filter] at hperm
    | finish call =>
      obtain rfl := Call.sweeping.inj (hcall.symm.trans call)
      exact absurd rfl hfinish
    | refuse _ call | allocate _ call | enlist call | write call | seize _ call | fail call
    | resize call | record call | sweep call | takeOwn _ call | giveOwn call =>
      cases hcall.symm.trans call
  · have hfreed : freedBy t [(u, act)] = [] := by
      cases act <;> simp [freedBy, Ne.symm hu]
    rw [hstep.calls_of_ne hu, hfreed,
      (h.step_of_locked (h.lock_eq (hcall ▸ trivial)) hstep hu).2]
    exact ⟨hcall, .refl _⟩

/-- What a sweep has given back so far, and what is still in the registry, is what was in it. -/
theorem Sound.sweeping_run (h : s.Sound) (hcall : s.calls t = .sweeping count)
    (hrun : Run Step s es s') (hfinish : (t, .finish count) ∉ es) :
    s'.calls t = .sweeping count ∧ s.tracker.live.Perm (freedBy t es ++ s'.tracker.live) := by
  induction hrun with
  | nil => exact ⟨hcall, .refl _⟩
  | cons head _ ih =>
    rw [List.mem_cons, not_or] at hfinish
    obtain ⟨hcall', hperm⟩ := h.sweeping_step hcall head (Ne.symm hfinish.1)
    obtain ⟨hlast, hperm'⟩ := ih (h.step head) hcall' hfinish.2
    rw [freedBy_cons, List.append_assoc]
    exact ⟨hlast, hperm.trans (hperm'.append_left _)⟩

/-! ### Calls with which nobody interferes -/

/-- A thread takes the tracker to another state by steps of its own, one of which is this. -/
def Performs (s : Shared ι) (t : ι) (act : Act) (tracker : Tracker) : Prop :=
  ∃ acts : List Act, act ∈ acts ∧ Run Step s (acts.map fun act ↦ (t, act)) { s with tracker }

theorem update_calls (hcall : s.calls t = .idle) : Function.update s.calls t .idle = s.calls :=
  Function.update_eq_self_iff.2 hcall.symm

/-- The system gives out a new block, and the registry gets it. -/
theorem Sound.run_enlist (h : s.Sound) (hcall : s.calls t = .idle) (hlock : s.lock = none)
    (wish : Wish) {allocator : Memory.Allocator} {memory : Memory}
    (hreserve : s.tracker.memory.reserve allocator wish.size = some (a, memory)) :
    Run Step s [(t, .allocate wish (some a)), (t, .enlist a)] { s.put t (wish.rest a) with
      tracker := { s.tracker with memory }.enlist a } := by
  rw [Memory.reserve] at hreserve
  split_ifs at hreserve
  obtain ⟨rfl, rfl⟩ := Prod.mk.inj (Option.some.inj hreserve)
  have hallocate := Step.allocate wish hcall h.bounded.not_isAllocated_next
  have hrun := Run.cons hallocate (.singleton (.enlist calls_put_self hlock))
  simpa [put] using hrun

theorem Sound.performs_alloc (h : s.Sound) (hcall : s.calls t = .idle) (hlock : s.lock = none)
    (allocator : Memory.Allocator) (n : Nat) :
    s.Performs t (.allocate (.block n) (s.tracker.alloc allocator n).1)
      (s.tracker.alloc allocator n).2 := by
  rw [Tracker.alloc]
  cases hreserve : s.tracker.memory.reserve allocator n with
  | none => exact ⟨[_], List.mem_singleton_self _, .singleton (.refuse (.block n) hcall)⟩
  | some r =>
    have hrun := h.run_enlist hcall hlock (.block n) hreserve
    refine ⟨[.allocate (.block n) (some r.1), .enlist r.1], List.mem_cons_self, ?_⟩
    simpa [put, Wish.rest, update_calls hcall] using hrun

theorem Sound.performs_dup (h : s.Sound) (hcall : s.calls t = .idle) (hlock : s.lock = none)
    (allocator : Memory.Allocator) (bytes : List UInt8) :
    s.Performs t (.allocate (.copy bytes) (s.tracker.dup allocator bytes).1)
      (s.tracker.dup allocator bytes).2 := by
  rw [Tracker.dup, Tracker.alloc]
  cases hreserve : s.tracker.memory.reserve allocator (bytes.length + 1) with
  | none => exact ⟨[_], List.mem_singleton_self _, .singleton (.refuse (.copy bytes) hcall)⟩
  | some r =>
    have hrun := (h.run_enlist hcall hlock (.copy bytes) hreserve).snoc (.write calls_put_self)
    refine ⟨[.allocate (.copy bytes) (some r.1), .enlist r.1, .write r.1], List.mem_cons_self, ?_⟩
    simpa [put, update_calls hcall] using hrun

theorem Sound.performs_realloc (h : s.Sound) (hcall : s.calls t = .idle) (hlock : s.lock = none)
    (ha : a ∈ s.tracker.live) (allocator : Memory.Allocator) (n : Nat) :
    s.Performs t (.resize a (s.tracker.realloc allocator (some a) n).1)
      (s.tracker.realloc allocator (some a) n).2 := by
  have hseize := Step.seize n hcall hlock ha
  rw [Tracker.realloc, Memory.resize]
  split_ifs
  · have hfree : s.tracker.memory.next = a ∨ ¬s.tracker.memory.IsAllocated s.tracker.memory.next :=
      .inr h.bounded.not_isAllocated_next
    have hrun := (Run.cons hseize (.singleton (.resize calls_put_self hfree))).snoc
      (.record calls_put_self)
    refine ⟨[.seize a n, .resize a (some s.tracker.memory.next), .record a s.tracker.memory.next],
      by simp, ?_⟩
    simpa [put, update_calls hcall, hlock] using hrun
  · have hrun := Run.cons hseize (.singleton (.fail calls_put_self))
    refine ⟨[.seize a n, .resize a none], by simp, ?_⟩
    simpa [put, update_calls hcall, hlock] using hrun

/-- One after another, the blocks of the registry are given back. -/
theorem run_free (hcall : s.calls t = .sweeping count) (hnodup : s.tracker.live.Nodup) :
    Run Step s (s.tracker.live.map fun a ↦ (t, .free a))
      { s with tracker := s.tracker.releaseAll.2 } := by
  rcases s with ⟨⟨memory, live⟩, lock, calls, own⟩
  induction live generalizing memory with
  | nil => exact .nil _
  | cons a live ih =>
    obtain ⟨ha, hlive⟩ := List.nodup_cons.1 hnodup
    have hdelist : (Tracker.mk memory (a :: live)).delist a = ⟨memory, live⟩ := by
      have hne : ∀ x ∈ live, (x != a) = true := fun x hx ↦ bne_iff_ne.2 fun hxa ↦ ha (hxa ▸ hx)
      simp [Tracker.delist, List.filter_eq_self.2 hne]
    have hfree := Step.free (s := ⟨⟨memory, a :: live⟩, lock, calls, own⟩) hcall
      List.mem_cons_self
    rw [hdelist] at hfree
    exact .cons hfree (ih (memory.release a) hcall hlive)

theorem Sound.performs_releaseAll (h : s.Sound) (hcall : s.calls t = .idle)
    (hlock : s.lock = none) :
    s.Performs t (.finish s.tracker.releaseAll.1) s.tracker.releaseAll.2 := by
  have hfree := run_free (s := { s.put t (.sweeping s.tracker.liveCount) with lock := some t })
    calls_put_self h.nodup
  have hrun := (Run.cons (.sweep hcall hlock) hfree).snoc (.finish calls_put_self rfl)
  refine ⟨.sweep :: (s.tracker.live.map .free ++ [.finish s.tracker.liveCount]),
    List.mem_cons_of_mem _ (List.mem_append_right _ (List.mem_singleton_self _)), ?_⟩
  simpa [put, update_calls hcall, hlock, Function.comp_def] using hrun

/-- The calls of the tracker, as a thread makes them with which nobody interferes, whatever the
system grants. -/
structure PerformsAlone (s : Shared ι) (t : ι) : Prop where
  alloc (allocator : Memory.Allocator) (n : Nat) :
    s.Performs t (.allocate (.block n) (s.tracker.alloc allocator n).1)
      (s.tracker.alloc allocator n).2
  dup (allocator : Memory.Allocator) (bytes : List UInt8) :
    s.Performs t (.allocate (.copy bytes) (s.tracker.dup allocator bytes).1)
      (s.tracker.dup allocator bytes).2
  dupPrefix (allocator : Memory.Allocator) (bytes : List UInt8) (n : Nat) :
    s.Performs t (.allocate (.copy ((bytes.take n).takeWhile (· != 0)))
      (s.tracker.dupPrefix allocator bytes n).1) (s.tracker.dupPrefix allocator bytes n).2
  realloc (allocator : Memory.Allocator) {a : Address} (ha : a ∈ s.tracker.live) (n : Nat) :
    s.Performs t (.resize a (s.tracker.realloc allocator (some a) n).1)
      (s.tracker.realloc allocator (some a) n).2
  realloc_null (allocator : Memory.Allocator) (n : Nat) :
    s.Performs t (.allocate (.block n) (s.tracker.realloc allocator none n).1)
      (s.tracker.realloc allocator none n).2
  releaseAll : s.Performs t (.finish s.tracker.releaseAll.1) s.tracker.releaseAll.2

theorem Sound.performsAlone (h : s.Sound) (hcall : s.calls t = .idle) (hlock : s.lock = none) :
    s.PerformsAlone t where
  alloc := h.performs_alloc hcall hlock
  dup := h.performs_dup hcall hlock
  dupPrefix allocator _ _ := h.performs_dup hcall hlock allocator _
  realloc allocator _ ha := h.performs_realloc hcall hlock ha allocator
  realloc_null := h.performs_alloc hcall hlock
  releaseAll := h.performs_releaseAll hcall hlock

/-! ### The account -/

/-- What is owned, resized and given back in a state and after it. -/
structure IsAccounted (s : Shared ι) : Prop where
  /-- While nobody has the lock, the tracker owns what the registry has and what is pending. -/
  owns_iff (unlocked : s.lock = none) (a : Address) :
    s.Owns a ↔ a ∈ s.tracker.live ∨ ∃ t, s.IsPending t a
  /-- The registry has each block once. -/
  nodup : s.tracker.live.Nodup
  /-- It does not have what is pending. -/
  notMem_live (unlocked : s.lock = none) {t : ι} {a : Address} :
    s.IsPending t a → a ∉ s.tracker.live
  /-- What is pending is so for one call. -/
  isPending_unique {t u : ι} {a : Address} : s.IsPending t a → s.IsPending u a → t = u
  /-- A block leaves the registry by being given back or moved, and not otherwise. -/
  kept {t : ι} {act : Act} {s' : Shared ι} {a : Address} : Step s (t, act) s' →
    a ∈ s.tracker.live → a ∉ s'.tracker.live → act = .free a ∨ ∃ b, act = .record a b
  /-- The block that the system is to resize is allocated. -/
  resized {t : ι} {a : Address} {p : Pointer} {s' : Shared ι} :
    Step s (t, .resize a p) s' → s.tracker.memory.IsAllocated a
  /-- If the system cannot resize it, it stays as it is, and in the registry. -/
  failed {t : ι} {a : Address} {s' : Shared ι} : Step s (t, .resize a none) s' →
    s'.lock = none ∧ s'.tracker.memory = s.tracker.memory ∧ a ∈ s'.tracker.live ∧ s'.Owns a
  /-- A block that is given back is allocated. -/
  freed {t : ι} {a : Address} {s' : Shared ι} :
    Step s (t, .free a) s' → s.tracker.memory.IsAllocated a
  /-- So is a block of the program that it gives back. -/
  givenBack {t : ι} {a : Address} {s' : Shared ι} :
    Step s (t, .giveOwn a) s' → s.tracker.memory.IsAllocated a
  /-- A sweep gives every block of the registry back once, and only pending ones are left. -/
  swept {t : ι} {s₁ s₂ s₃ : Shared ι} {es : List (ι × Act)} {count : Nat} :
    Step s (t, .sweep) s₁ → Run Step s₁ es s₂ → (∀ n, (t, .finish n) ∉ es) →
      Step s₂ (t, .finish count) s₃ →
        (freedBy t es).Perm s.tracker.live ∧ count = s.tracker.liveCount ∧ s₃.lock = none ∧
          s₃.tracker.live = [] ∧ ∀ a, s₃.Owns a ↔ ∃ u, s₃.IsPending u a
  /-- Calls that are not interfered with are the tracker's. -/
  alone (unlocked : s.lock = none) {t : ι} : s.calls t = .idle → s.PerformsAlone t

/-- A block leaves the registry by being given back or moved, and not otherwise. -/
theorem Step.eq_of_notMem {act : Act} (hstep : Step s (t, act) s') (ha : a ∈ s.tracker.live)
    (hnot : a ∉ s'.tracker.live) : act = .free a ∨ ∃ b, act = .record a b := by
  cases hstep with
  | enlist => exact absurd (mem_live_enlist.2 (.inr ha)) hnot
  | @record _ b c =>
    by_cases hab : a = b
    · exact .inr ⟨c, by rw [hab]⟩
    · exact absurd (mem_live_enlist.2 (.inr (mem_live_delist.2 ⟨ha, hab⟩))) hnot
  | @free _ _ b =>
    by_cases hab : a = b
    · exact .inl (by rw [hab])
    · exact absurd (mem_live_delist.2 ⟨ha, hab⟩) hnot
  | _ => exact absurd ha hnot

/-- A block that the system is to resize is in the registry. -/
theorem Sound.owns_of_resize {p : Pointer} (h : s.Sound) (hstep : Step s (t, .resize a p) s') :
    a ∈ s.tracker.live ∧ s.Owns a := by
  cases hstep with
  | fail call => exact ⟨h.mem_live call, h.owns_of_call call trivial rfl (h.mem_live call)⟩
  | resize call => exact ⟨h.mem_live call, h.owns_of_call call trivial rfl (h.mem_live call)⟩

/-- A block that the system cannot resize stays as it is. -/
theorem Sound.failed (h : s.Sound) (hstep : Step s (t, .resize a none) s') :
    s'.lock = none ∧ s'.tracker.memory = s.tracker.memory ∧ a ∈ s'.tracker.live ∧ s'.Owns a := by
  obtain ⟨hlive, howns⟩ := h.owns_of_resize hstep
  cases hstep
  exact ⟨rfl, rfl, hlive, howns⟩

/-- What a whole sweep has given back and what is left. -/
theorem Sound.swept (h : s.Sound) (hsweep : Step s (t, .sweep) s₁) (hrun : Run Step s₁ es s₂)
    (hfinish : ∀ n, (t, .finish n) ∉ es) (hlast : Step s₂ (t, .finish count) s₃) :
    (freedBy t es).Perm s.tracker.live ∧ count = s.tracker.liveCount ∧ s₃.lock = none ∧
      s₃.tracker.live = [] ∧ ∀ a, s₃.Owns a ↔ ∃ u, s₃.IsPending u a := by
  have h₁ := h.step hsweep
  have hcall : s₁.calls t = .sweeping s.tracker.liveCount ∧ s₁.tracker = s.tracker := by
    cases hsweep
    exact ⟨calls_put_self, rfl⟩
  obtain ⟨hcall₂, hperm⟩ := h₁.sweeping_run hcall.1 hrun (hfinish _)
  have h₂ : s₂.Sound := hrun.preserves (fun h hstep ↦ h.step hstep) h₁
  have h₃ := h₂.step hlast
  cases hlast with
  | finish call done =>
    rw [hcall.2, done, List.append_nil] at hperm
    refine ⟨hperm.symm, Call.sweeping.inj (call.symm.trans hcall₂), rfl, done, fun a ↦ ?_⟩
    rw [h₃.owns_iff, registry_of_unlocked rfl]
    simp [done, put]

/-- The states that runs lead to. -/
def Reached (s : Shared ι) : Prop := ∃ es, Run Step initial es s

theorem reached_initial : (initial : Shared ι).Reached := ⟨[], .nil _⟩

theorem Reached.step (h : s.Reached) (hstep : Step s e s') : s'.Reached := by
  obtain ⟨es, hrun⟩ := h
  exact ⟨es ++ [e], hrun.snoc hstep⟩

theorem Reached.sound (h : s.Reached) : s.Sound := by
  obtain ⟨es, hrun⟩ := h
  exact hrun.preserves (fun h hstep ↦ h.step hstep) sound_initial

/-- Whatever steps any threads take, what the tracker owns is accounted for. -/
theorem Reached.isAccounted (h : s.Reached) : s.IsAccounted where
  owns_iff hunlocked a := by rw [h.sound.owns_iff, registry_of_unlocked hunlocked]
  nodup := h.sound.nodup
  notMem_live hunlocked _ _ ha := registry_of_unlocked hunlocked ▸ h.sound.notMem_registry ha
  isPending_unique := h.sound.isPending_unique
  kept hstep := hstep.eq_of_notMem
  resized hstep := (h.sound.owns_of_resize hstep).2.1
  failed := h.sound.failed
  freed hstep := by
    cases hstep with
    | free call live => exact (h.sound.owns_of_call call trivial rfl live).1
  givenBack hstep := by
    cases hstep with
    | giveOwn _ mem => exact (h.sound.held.allocated_iff _).2 ⟨.program, mem⟩
  swept := h.sound.swept
  alone hunlocked _ hcall := h.sound.performsAlone hcall hunlocked

/-- A block of one thread is moved, and before the registry is told, another thread is given its old
address: both are the tracker's, and each is counted once. -/
theorem Reached.isAccounted_reuse :
    ∃ s : Shared Bool, s.Reached ∧ s.IsAccounted ∧ s.lock = none ∧ s.tracker.live = [2] ∧
      s.IsPending true 1 ∧ s.Owns 1 ∧ s.Owns 2 := by
  have h₁ := reached_initial.step (.allocate (t := false) (a := 1) (.block 8) rfl (by decide))
  have h₂ := h₁.step (.enlist (t := false) rfl rfl)
  have h₃ := h₂.step (.seize (t := false) (a := 1) 16 rfl rfl (by decide))
  have h₄ := h₃.step (.resize (t := false) (b := 2) rfl (.inr (by decide)))
  have h₅ := h₄.step (.allocate (t := true) (a := 1) (.copy [65]) rfl (by decide))
  have h₆ := h₅.step (.record (t := false) rfl)
  have howns := h₆.isAccounted.owns_iff rfl
  exact ⟨_, h₆, h₆.isAccounted, rfl, rfl, rfl, (howns 1).2 (.inr ⟨true, rfl⟩),
    (howns 2).2 (.inl (by decide))⟩

end Shared

end Tracker

end ScriptHost
