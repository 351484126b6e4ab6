import ScriptHost.Proofs.Memory.Sharing

/-!
# Who owns the blocks of a shared tracker

Whatever steps the threads take, each allocated address has one owner: the registry, a call whose
block the registry does not have yet, or the program.

## Main definitions

* `Tracker.Shared.Sound` : what holds between the steps.

## Main results

* `Tracker.Shared.Sound.step` : every step keeps it.
-/

namespace ScriptHost

namespace Tracker

namespace Shared

variable {ι : Type} {s s' : Shared ι} {t u : ι} {e : ι × Act} {call : Call} {a b x : Address}

/-! ### What holds between the steps -/

/-- What holds between the steps. -/
structure Sound (s : Shared ι) : Prop where
  /-- A call that needs the lock has it. -/
  locks_iff (t : ι) : (s.calls t).Locks ↔ s.lock = some t
  /-- The registry has no address twice. -/
  nodup : s.tracker.live.Nodup
  /-- It has the block that is to be resized. -/
  mem_live {t : ι} {a : Address} {n : Nat} : s.calls t = .resizing a n → a ∈ s.tracker.live
  /-- What is allocated is had by the registry, by a call or by the program. -/
  held : IsHeld s.tracker.memory.IsAllocated s.Holds
  bounded : s.tracker.memory.IsBounded

theorem sound_initial : (initial : Shared ι).Sound where
  locks_iff t := by simp [initial, Call.Locks]
  nodup := List.nodup_nil
  mem_live h := by cases h
  held := by
    have hholds (k : Holder ι) (a : Address) : ¬initial.Holds k a := by
      cases k <;> simp [Holds, registry, IsPending, initial, Tracker.empty, Call.pending?]
    refine ⟨fun a ↦ iff_of_false Memory.not_isAllocated_empty ?_, fun h ↦ absurd h (hholds _ _)⟩
    rintro ⟨k, hk⟩
    exact hholds k a hk
  bounded := Memory.isBounded_empty

namespace Sound

/-- A call that does not need the lock leaves it to others. -/
theorem lock_ne (h : s.Sound) (hcall : ¬(s.calls t).Locks) : s.lock ≠ some t :=
  fun hlock ↦ hcall ((h.locks_iff t).2 hlock)

theorem lock_eq (h : s.Sound) (hcall : (s.calls t).Locks) : s.lock = some t :=
  (h.locks_iff t).1 hcall

/-- What a call that has the lock records makes the registry. -/
theorem registry_eq (h : s.Sound) (hcall : s.calls t = call) (hlocks : call.Locks) :
    s.registry = (call.settle s.tracker).live := by
  subst hcall
  exact registry_of_locked (h.lock_eq hlocks)

/-- Who has an address if the registry loses one and perhaps gets others. -/
theorem holds_registry (h : s.Sound) {R : Address → Prop} (ha : a ∈ s.registry)
    (hregistry : ∀ x, x ∈ s'.registry ↔ R x ∨ x ∈ s.registry ∧ x ≠ a)
    (hpending : ∀ u x, s'.IsPending u x ↔ s.IsPending u x) (hown : s'.own = s.own)
    (k : Holder ι) (x : Address) :
    s'.Holds k x ↔ k = .registry ∧ R x ∨ s.Holds k x ∧ x ≠ a := by
  have hne (k : Holder ι) (hk : k ≠ .registry) : s.Holds k x ∧ x ≠ a ↔ s.Holds k x :=
    h.held.and_ne_iff (show s.Holds .registry a from ha) hk
  cases k with
  | registry => simp [Holds, hregistry]
  | pending u =>
    rw [hne (.pending u) nofun]
    simpa [Holds] using hpending u x
  | program =>
    rw [hne .program nofun]
    simp [Holds, hown]

end Sound

/-- Who has an address if neither the registry nor a pending block changes. -/
theorem holds_congr (hregistry : s'.registry = s.registry)
    (hpending : ∀ u x, s'.IsPending u x ↔ s.IsPending u x) (hown : s'.own = s.own)
    (k : Holder ι) (x : Address) : s'.Holds k x ↔ s.Holds k x := by
  cases k with
  | registry => rw [Holds, Holds, hregistry]
  | pending u => exact hpending u x
  | program => rw [Holds, Holds, hown]

/-- A block of the registry that is given back is nobody's. -/
theorem Sound.held_free (h : s.Sound) {count : Nat} (hcall : s.calls t = .sweeping count)
    (hlive : a ∈ s.tracker.live)
    (htracker : s'.tracker = { s.tracker.delist a with memory := s.tracker.memory.release a })
    (hlock : s'.lock = s.lock) (hcalls : s'.calls = s.calls) (hown : s'.own = s.own) :
    IsHeld s'.tracker.memory.IsAllocated s'.Holds := by
  have hregistry : s.registry = s.tracker.live := h.registry_eq hcall trivial
  have hlocked : s'.lock = some t := hlock.trans (h.lock_eq (hcall ▸ trivial))
  have hmem (x : Address) : x ∈ s'.registry ↔ False ∨ x ∈ s.registry ∧ x ≠ a := by
    rw [hregistry, registry_of_locked hlocked, hcalls, hcall, htracker, false_or]
    exact mem_live_delist
  refine (h.held.take a).congr (fun x ↦ ?_) fun k x ↦ ?_
  · rw [htracker]
    exact Memory.isAllocated_release
  · have hholds := h.holds_registry (hregistry ▸ hlive) hmem
      (fun u x ↦ by rw [IsPending, hcalls, IsPending]) hown k x
    rwa [and_false, false_or] at hholds

/-- A block that the program takes for itself. -/
theorem Sound.held_takeOwn (h : s.Sound) (hfree : ¬s.tracker.memory.IsAllocated a)
    (hallocated : ∀ x, s'.tracker.memory.IsAllocated x ↔ x = a ∨ s.tracker.memory.IsAllocated x)
    (hregistry : s'.registry = s.registry) (hcalls : s'.calls = s.calls)
    (hown : s'.own = insert a s.own) : IsHeld s'.tracker.memory.IsAllocated s'.Holds := by
  refine (h.held.give hfree .program).congr hallocated fun k x ↦ ?_
  cases k with
  | registry => simp [Holds, hregistry]
  | pending u => simp [Holds, IsPending, hcalls]
  | program => simp [Holds, hown]

/-- A block of the program that it gives back. -/
theorem Sound.held_giveOwn (h : s.Sound) (hmem : a ∈ s.own)
    (hallocated : ∀ x, s'.tracker.memory.IsAllocated x ↔ s.tracker.memory.IsAllocated x ∧ x ≠ a)
    (hregistry : s'.registry = s.registry) (hcalls : s'.calls = s.calls)
    (hown : s'.own = s.own.erase a) : IsHeld s'.tracker.memory.IsAllocated s'.Holds := by
  have hne (k : Holder ι) {x : Address} (hk : k ≠ .program) :
      s.Holds k x ∧ x ≠ a ↔ s.Holds k x :=
    h.held.and_ne_iff (show s.Holds .program a from hmem) hk
  refine (h.held.take a).congr hallocated fun k x ↦ ?_
  cases k with
  | registry =>
    rw [hne .registry nofun]
    simp [Holds, hregistry]
  | pending u =>
    rw [hne (.pending u) nofun]
    simp [Holds, IsPending, hcalls]
  | program => simp [Holds, hown, and_comm]

/-! ### What a step keeps -/

variable [DecidableEq ι]

theorem calls_put_self : (s.put t call).calls t = call := Function.update_self ..

theorem calls_put_of_ne (h : u ≠ t) : (s.put t call).calls u = s.calls u :=
  Function.update_of_ne h ..

theorem isPending_put :
    (s.put t call).IsPending u x ↔
      u = t ∧ call.pending? = some x ∨ u ≠ t ∧ s.IsPending u x := by
  by_cases hu : u = t
  · simp [hu, IsPending, calls_put_self]
  · simp [hu, IsPending, calls_put_of_ne hu]

/-- A call goes on without the lock, or with it as before. -/
theorem locks_put (h : s.Sound) (hcall : call.Locks ↔ (s.calls t).Locks) :
    ((s.put t call).calls u).Locks ↔ s.lock = some u := by
  by_cases hu : u = t
  · rw [hu, calls_put_self, hcall, h.locks_iff]
  · rw [calls_put_of_ne hu, h.locks_iff]

/-- A call takes the lock. -/
theorem locks_put_lock (h : s.Sound) (hunlocked : s.lock = none) (hcall : call.Locks) :
    ((s.put t call).calls u).Locks ↔ some t = some u := by
  by_cases hu : u = t
  · simp [hu, calls_put_self, hcall]
  · simp [calls_put_of_ne hu, h.locks_iff, hunlocked, Ne.symm hu]

/-- A call leaves the lock. -/
theorem locks_put_unlock (h : s.Sound) (hlocked : (s.calls t).Locks) (hcall : ¬call.Locks) :
    ((s.put t call).calls u).Locks ↔ none = some u := by
  by_cases hu : u = t
  · simp [hu, calls_put_self, hcall]
  · simp [calls_put_of_ne hu, h.locks_iff, h.lock_eq hlocked, Ne.symm hu]

theorem Sound.step_locks_iff (h : s.Sound) (hstep : Step s e s') (u : ι) :
    (s'.calls u).Locks ↔ s'.lock = some u := by
  cases hstep with
  | refuse => exact h.locks_iff u
  | allocate _ call => exact locks_put h (by rw [call]; rfl)
  | enlist call =>
    exact locks_put h (iff_of_false (Wish.not_locks_rest _ _) (by rw [call]; exact id))
  | write call => exact locks_put h (by rw [call]; rfl)
  | seize n call unlocked => exact locks_put_lock h unlocked trivial
  | fail call => exact locks_put_unlock h (call ▸ trivial) id
  | resize call => exact locks_put h (by rw [call]; rfl)
  | record call => exact locks_put_unlock h (call ▸ trivial) id
  | sweep call unlocked => exact locks_put_lock h unlocked trivial
  | free => exact h.locks_iff u
  | finish call => exact locks_put_unlock h (call ▸ trivial) id
  | takeOwn => exact h.locks_iff u
  | giveOwn => exact h.locks_iff u

theorem Sound.step_nodup (h : s.Sound) (hstep : Step s e s') : s'.tracker.live.Nodup := by
  cases hstep with
  | enlist => exact nodup_live_enlist h.nodup
  | record => exact nodup_live_enlist (nodup_live_delist h.nodup)
  | free => exact nodup_live_delist h.nodup
  | _ => exact h.nodup

theorem Sound.step_bounded (h : s.Sound) (hstep : Step s e s') : s'.tracker.memory.IsBounded := by
  cases hstep with
  | allocate => exact h.bounded.occupy _ _ _
  | write => exact h.bounded.fill _ _
  | resize => exact h.bounded.relocate _ _ _
  | free => exact h.bounded.release _
  | takeOwn => exact h.bounded.occupy _ _ _
  | giveOwn => exact h.bounded.release _
  | _ => exact h.bounded

/-! ### The registry and who has an address -/

/-- The registry stays as it is while a thread without the lock goes on. -/
theorem Sound.registry_put (h : s.Sound) (hcall : ¬(s.calls t).Locks)
    (hlive : s'.tracker.live = s.tracker.live) (hlock : s'.lock = s.lock)
    (hcalls : s'.calls = (s.put t call).calls) : s'.registry = s.registry :=
  registry_congr hlive hlock fun u hu ↦ by
    have hut : u ≠ t := by
      rintro rfl
      exact h.lock_ne hcall hu
    rw [hcalls, calls_put_of_ne hut]

/-- What a call with the lock records in a step makes the registry. -/
theorem registry_put_locked (hlock : s'.lock = some t) (hcalls : s'.calls = (s.put t call).calls) :
    s'.registry = (call.settle s'.tracker).live := by
  rw [registry_of_locked hlock, hcalls, calls_put_self]

/-- A call that has no pending block before and after a step leaves those of the others. -/
theorem isPending_iff_of_put (hcalls : s'.calls = (s.put t call).calls)
    (hbefore : (s.calls t).pending? = none) (hafter : call.pending? = none) (u : ι) (x : Address) :
    s'.IsPending u x ↔ s.IsPending u x := by
  rw [IsPending, hcalls, ← IsPending, isPending_put]
  by_cases hu : u = t
  · simp [hu, hafter, IsPending, hbefore]
  · simp [hu]

/-- A step of a call that changes neither what is allocated nor who has it. -/
theorem Sound.held_put (h : s.Sound)
    (hallocated : ∀ x, s'.tracker.memory.IsAllocated x ↔ s.tracker.memory.IsAllocated x)
    (hregistry : s'.registry = s.registry) (hcalls : s'.calls = (s.put t call).calls)
    (hown : s'.own = s.own) (hbefore : (s.calls t).pending? = none)
    (hafter : call.pending? = none) : IsHeld s'.tracker.memory.IsAllocated s'.Holds :=
  h.held.congr hallocated
    (holds_congr hregistry (isPending_iff_of_put hcalls hbefore hafter) hown)

/-- A block that a call has been given is pending. -/
theorem Sound.held_allocate (h : s.Sound) (hfree : ¬s.tracker.memory.IsAllocated a)
    (hcall : (s.calls t).pending? = none) (hregistry : s'.registry = s.registry)
    (hallocated : ∀ x, s'.tracker.memory.IsAllocated x ↔ x = a ∨ s.tracker.memory.IsAllocated x)
    (hcalls : s'.calls = (s.put t call).calls) (hpending : call.pending? = some a)
    (hown : s'.own = s.own) : IsHeld s'.tracker.memory.IsAllocated s'.Holds := by
  refine (h.held.give hfree (.pending t)).congr hallocated fun k x ↦ ?_
  cases k with
  | registry => simp [Holds, hregistry]
  | pending u =>
    rw [Holds, IsPending, hcalls, ← IsPending, isPending_put, hpending]
    by_cases hu : u = t
    · simp [hu, Holds, IsPending, hcall, eq_comm]
    · simp [hu, Holds]
  | program => simp [Holds, hown]

/-- A block that was pending is in the registry. -/
theorem Sound.held_enlist (h : s.Sound) (hcall : (s.calls t).pending? = some a)
    (hunlocked : s.lock = none) (hlock : s'.lock = none)
    (hlive : ∀ x, x ∈ s'.tracker.live ↔ x = a ∨ x ∈ s.tracker.live)
    (hcalls : s'.calls = (s.put t call).calls) (hpending : call.pending? = none)
    (hmemory : s'.tracker.memory = s.tracker.memory) (hown : s'.own = s.own) :
    IsHeld s'.tracker.memory.IsAllocated s'.Holds := by
  have ha : s.Holds (.pending t) a := hcall
  have hne (k : Holder ι) {x : Address} (hk : k ≠ .pending t) :
      s.Holds k x ∧ x ≠ a ↔ s.Holds k x := h.held.and_ne_iff ha hk
  refine ((h.held.take a).give (fun h ↦ h.2 rfl) .registry).congr (fun x ↦ ?_) fun k x ↦ ?_
  · rw [hmemory]
    by_cases hx : x = a
    · simp [hx, (h.held.allocated_iff a).2 ⟨_, ha⟩]
    · simp [hx]
  cases k with
  | registry =>
    rw [hne .registry nofun]
    simp [Holds, registry_of_unlocked, hunlocked, hlock, hlive]
  | pending u =>
    rw [Holds, IsPending, hcalls, ← IsPending, isPending_put, hpending]
    by_cases hu : u = t
    · simp [hu, Holds, IsPending, hcall, eq_comm]
    · rw [hne (.pending u) fun hk ↦ hu (Holder.pending.inj hk)]
      simp [hu, Holds]
  | program =>
    rw [hne .program nofun]
    simp [Holds, hown]

/-- A resized block is at another address, which was not allocated, or where it was. -/
theorem Sound.held_resize (h : s.Sound) {n : Nat} (hcall : s.calls t = .resizing a n)
    (hfree : b = a ∨ ¬s.tracker.memory.IsAllocated b)
    (htracker : s'.tracker = { s.tracker with memory := s.tracker.memory.relocate a b n })
    (hlock : s'.lock = s.lock) (hcalls : s'.calls = (s.put t (.moving a b)).calls)
    (hown : s'.own = s.own) : IsHeld s'.tracker.memory.IsAllocated s'.Holds := by
  have hregistry : s.registry = s.tracker.live := h.registry_eq hcall trivial
  have hlocked : s'.lock = some t := hlock.trans (h.lock_eq (hcall ▸ trivial))
  have hfree' : ¬(s.tracker.memory.IsAllocated b ∧ b ≠ a) := fun hb ↦ hfree.elim hb.2 (· hb.1)
  refine ((h.held.take a).give hfree' .registry).congr (fun x ↦ ?_)
    (h.holds_registry (hregistry ▸ h.mem_live hcall) (fun x ↦ ?_)
      (isPending_iff_of_put hcalls (by rw [hcall]; rfl) rfl) hown)
  · rw [htracker]
    exact Memory.isAllocated_relocate
  · rw [hregistry, registry_put_locked hlocked hcalls, htracker]
    exact mem_live_enlist.trans (or_congr_right mem_live_delist)

/-! ### Steps -/

/-- After every step what is allocated is had by someone, and by one only. -/
theorem Sound.step_held (h : s.Sound) (hstep : Step s e s') :
    IsHeld s'.tracker.memory.IsAllocated s'.Holds := by
  cases hstep with
  | refuse => exact h.held
  | allocate wish call free =>
    exact h.held_allocate free (by rw [call]; rfl)
      (h.registry_put (by rw [call]; exact id) rfl rfl rfl)
      (fun x ↦ Memory.isAllocated_occupy) rfl rfl rfl
  | @enlist t wish a call unlocked =>
    exact h.held_enlist (by rw [call]; rfl) unlocked unlocked (fun x ↦ mem_live_enlist) rfl
      (wish.pending?_rest a) rfl rfl
  | write call =>
    exact h.held_put (fun x ↦ Memory.isAllocated_fill)
      (h.registry_put (by rw [call]; exact id) rfl rfl rfl) rfl rfl (by rw [call]; rfl) rfl
  | seize n call unlocked =>
    exact h.held_put (fun x ↦ Iff.rfl)
      (Eq.trans (registry_put_locked rfl rfl) (registry_of_unlocked unlocked).symm) rfl rfl
      (by rw [call]; rfl) rfl
  | fail call =>
    exact h.held_put (fun x ↦ Iff.rfl)
      (Eq.trans (registry_of_unlocked rfl) (h.registry_eq call trivial).symm) rfl rfl
      (by rw [call]; rfl) rfl
  | resize call free => exact h.held_resize call free rfl rfl rfl rfl
  | record call =>
    exact h.held_put (fun x ↦ Iff.rfl)
      (Eq.trans (registry_of_unlocked rfl) (h.registry_eq call trivial).symm) rfl rfl
      (by rw [call]; rfl) rfl
  | sweep call unlocked =>
    exact h.held_put (fun x ↦ Iff.rfl)
      (Eq.trans (registry_put_locked rfl rfl) (registry_of_unlocked unlocked).symm) rfl rfl
      (by rw [call]; rfl) rfl
  | free call live => exact h.held_free call live rfl rfl rfl rfl
  | finish call =>
    exact h.held_put (fun x ↦ Iff.rfl)
      (Eq.trans (registry_of_unlocked rfl) (h.registry_eq call trivial).symm) rfl rfl
      (by rw [call]; rfl) rfl
  | takeOwn n call free =>
    exact h.held_takeOwn free (fun x ↦ Memory.isAllocated_occupy)
      (registry_congr rfl rfl fun _ _ ↦ rfl) rfl rfl
  | giveOwn call mem =>
    exact h.held_giveOwn mem (fun x ↦ Memory.isAllocated_release)
      (registry_congr rfl rfl fun _ _ ↦ rfl) rfl rfl

/-- A step of another thread leaves a thread where it is in its call. -/
theorem Step.calls_of_ne {act : Act} (hstep : Step s (t, act) s') (hne : u ≠ t) :
    s'.calls u = s.calls u := by
  cases hstep with
  | refuse | free | takeOwn | giveOwn => rfl
  | _ => exact calls_put_of_ne hne

/-- While a thread has the lock, the others leave it, and they leave the registry. -/
theorem Sound.step_of_locked {act : Act} (h : s.Sound) (hlock : s.lock = some u)
    (hstep : Step s (t, act) s') (hne : u ≠ t) :
    s'.lock = s.lock ∧ s'.tracker.live = s.tracker.live := by
  have hunlocked : s.lock ≠ none := by simp [hlock]
  have hcall : ¬(s.calls t).Locks := fun hlocks ↦
    hne (Option.some.inj (hlock.symm.trans (h.lock_eq hlocks)))
  cases hstep with
  | refuse | allocate | write | takeOwn | giveOwn => exact ⟨rfl, rfl⟩
  | enlist _ unlocked | seize _ _ unlocked | sweep _ unlocked => exact absurd unlocked hunlocked
  | fail call | resize call | record call | free call | finish call =>
    exact absurd (by rw [call]; trivial) hcall

/-- A block that is to be resized is in the registry when the lock is taken, and stays in it. -/
theorem Sound.step_mem_live (h : s.Sound) (hstep : Step s e s') {n : Nat}
    (hcall : s'.calls u = .resizing a n) : a ∈ s'.tracker.live := by
  rcases e with ⟨t, act⟩
  by_cases hu : u = t
  · subst hu
    cases hstep with
    | seize _ _ _ live =>
      obtain ⟨rfl, -⟩ := Call.resizing.inj (calls_put_self.symm.trans hcall)
      exact live
    | @enlist _ wish => cases wish <;> cases calls_put_self.symm.trans hcall
    | refuse _ call | takeOwn _ call | giveOwn call | free call => cases call.symm.trans hcall
    | _ => cases calls_put_self.symm.trans hcall
  · rw [hstep.calls_of_ne hu] at hcall
    rw [(h.step_of_locked (h.lock_eq (hcall ▸ trivial)) hstep hu).2]
    exact h.mem_live hcall

/-- Every step keeps what holds between the steps. -/
theorem Sound.step (h : s.Sound) (hstep : Step s e s') : s'.Sound where
  locks_iff := h.step_locks_iff hstep
  nodup := h.step_nodup hstep
  mem_live := h.step_mem_live hstep
  held := h.step_held hstep
  bounded := h.step_bounded hstep

end Shared

end Tracker

end ScriptHost
