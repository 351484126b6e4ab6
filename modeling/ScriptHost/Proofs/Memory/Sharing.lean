import Mathlib.Data.Finset.Basic
import Mathlib.Logic.Function.Basic
import ScriptHost.Proofs.Concurrent.Runs
import ScriptHost.Proofs.Memory.Blocks
import ScriptHost.Tracker

/-!
# A tracker that threads share

Several threads call one tracker.  A lock guards its registry, while the system's allocator answers
at any time and with any address that is not allocated.  So a block is allocated before the registry
has it, and a block that is being resized has a new address before the registry is told; meanwhile
its old address may be given out again.

## Main definitions

* `Tracker.Shared`, `Tracker.Shared.Step` : the tracker with its threads, and their steps.
* `Tracker.Shared.Holds` : who has an address: the registry, a call, or the program for itself.
* `Tracker.Shared.IsHeld` : what is allocated is had by someone, and by one only.

## Main results

* `Tracker.Shared.IsHeld.give`, `Tracker.Shared.IsHeld.take` : addresses that are given and taken.
-/

namespace ScriptHost

namespace Tracker

/-! ### Calls and their steps -/

/-- What a block is wanted for: to be handed out, or for a copy of some bytes. -/
inductive Wish where
  | block (n : Nat)
  | copy (bytes : List UInt8)

/-- How large the block is. -/
def Wish.size : Wish → Nat
  | block n => n
  | copy bytes => bytes.length + 1

/-- Where a thread is in its call of the tracker. -/
inductive Call where
  /-- It is in no call. -/
  | idle
  /-- The system has given out a block that the registry does not have yet. -/
  | enlisting (wish : Wish) (a : Address)
  /-- The registry has the block of a copy, which is still to be written. -/
  | copying (a : Address) (bytes : List UInt8)
  /-- It has the lock, and the system is to resize a block. -/
  | resizing (a : Address) (n : Nat)
  /-- It has the lock, and the registry is to be told where a resized block is. -/
  | moving (a b : Address)
  /-- It has the lock and gives the blocks of the registry back; there were so many. -/
  | sweeping (count : Nat)

/-- The calls during which a thread has the lock. -/
def Call.Locks : Call → Prop
  | resizing .. | moving .. | sweeping .. => True
  | _ => False

/-- The block of a call that the registry does not have yet. -/
def Call.pending? : Call → Option Address
  | enlisting _ a => some a
  | _ => none

/-- What is left of a call when the registry has the block. -/
def Wish.rest (a : Address) : Wish → Call
  | block _ => .idle
  | copy bytes => .copying a bytes

theorem Wish.not_locks_rest (wish : Wish) (a : Address) : ¬(wish.rest a).Locks := by
  cases wish <;> exact id

theorem Wish.pending?_rest (wish : Wish) (a : Address) : (wish.rest a).pending? = none := by
  cases wish <;> rfl

/-- The tracker as it is when what the system has done is recorded. -/
def Call.settle (tracker : Tracker) : Call → Tracker
  | moving a b => (tracker.delist a).enlist b
  | _ => tracker

/-- What a thread does in one step. -/
inductive Act where
  /-- It has the system answer a request for a block. -/
  | allocate (wish : Wish) (p : Pointer)
  /-- It adds a block to the registry. -/
  | enlist (a : Address)
  /-- It writes a copy. -/
  | write (a : Address)
  /-- It takes the lock to have a block resized. -/
  | seize (a : Address) (n : Nat)
  /-- It has the system resize a block. -/
  | resize (a : Address) (p : Pointer)
  /-- It tells the registry where a resized block is, and leaves the lock. -/
  | record (a b : Address)
  /-- It takes the lock to give all blocks back. -/
  | sweep
  /-- It has the system take a block back. -/
  | free (a : Address)
  /-- It leaves the lock when the registry is empty, and tells how many blocks there were. -/
  | finish (count : Nat)
  /-- It takes a block that is not for the tracker. -/
  | takeOwn (a : Address)
  /-- It gives such a block back. -/
  | giveOwn (a : Address)

/-- A tracker and the threads that share it. -/
structure Shared (ι : Type) where
  tracker : Tracker
  /-- Who has the lock. -/
  lock : Option ι
  /-- Where the threads are in their calls. -/
  calls : ι → Call
  /-- The addresses that the program has for itself. -/
  own : Finset Address

namespace Shared

variable {ι : Type}

/-- Nothing is allocated, and no thread is in a call. -/
def initial : Shared ι := ⟨.empty, none, fun _ ↦ .idle, ∅⟩

section Steps

variable [DecidableEq ι]

/-- With a thread at another point of its call. -/
def put (s : Shared ι) (t : ι) (call : Call) : Shared ι :=
  { s with calls := Function.update s.calls t call }

/-- The steps of the threads.  The system answers with any address that is not allocated; a pointer
whose block is to be resized is one that the registry has. -/
inductive Step (s : Shared ι) : ι × Act → Shared ι → Prop
  | refuse {t : ι} (wish : Wish) (call : s.calls t = .idle) : Step s (t, .allocate wish none) s
  | allocate {t : ι} {a : Address} (wish : Wish) (call : s.calls t = .idle)
      (free : ¬s.tracker.memory.IsAllocated a) :
      Step s (t, .allocate wish (some a)) { s.put t (.enlisting wish a) with
        tracker.memory := s.tracker.memory.occupy a wish.size [] }
  | enlist {t : ι} {wish : Wish} {a : Address} (call : s.calls t = .enlisting wish a)
      (unlocked : s.lock = none) :
      Step s (t, .enlist a) { s.put t (wish.rest a) with tracker := s.tracker.enlist a }
  | write {t : ι} {a : Address} {bytes : List UInt8} (call : s.calls t = .copying a bytes) :
      Step s (t, .write a) { s.put t .idle with
        tracker.memory := s.tracker.memory.fill a (bytes ++ [0]) }
  | seize {t : ι} {a : Address} (n : Nat) (call : s.calls t = .idle) (unlocked : s.lock = none)
      (live : a ∈ s.tracker.live) :
      Step s (t, .seize a n) { s.put t (.resizing a n) with lock := some t }
  | fail {t : ι} {a : Address} {n : Nat} (call : s.calls t = .resizing a n) :
      Step s (t, .resize a none) { s.put t .idle with lock := none }
  | resize {t : ι} {a b : Address} {n : Nat} (call : s.calls t = .resizing a n)
      (free : b = a ∨ ¬s.tracker.memory.IsAllocated b) :
      Step s (t, .resize a (some b)) { s.put t (.moving a b) with
        tracker.memory := s.tracker.memory.relocate a b n }
  | record {t : ι} {a b : Address} (call : s.calls t = .moving a b) :
      Step s (t, .record a b) { s.put t .idle with
        tracker := (s.tracker.delist a).enlist b
        lock := none }
  | sweep {t : ι} (call : s.calls t = .idle) (unlocked : s.lock = none) :
      Step s (t, .sweep) { s.put t (.sweeping s.tracker.liveCount) with lock := some t }
  | free {t : ι} {count : Nat} {a : Address} (call : s.calls t = .sweeping count)
      (live : a ∈ s.tracker.live) :
      Step s (t, .free a) { s with
        tracker := { s.tracker.delist a with memory := s.tracker.memory.release a } }
  | finish {t : ι} {count : Nat} (call : s.calls t = .sweeping count)
      (done : s.tracker.live = []) :
      Step s (t, .finish count) { s.put t .idle with lock := none }
  | takeOwn {t : ι} {a : Address} (n : Nat) (call : s.calls t = .idle)
      (free : ¬s.tracker.memory.IsAllocated a) :
      Step s (t, .takeOwn a) { s with
        tracker.memory := s.tracker.memory.occupy a n []
        own := insert a s.own }
  | giveOwn {t : ι} {a : Address} (call : s.calls t = .idle) (mem : a ∈ s.own) :
      Step s (t, .giveOwn a) { s with
        tracker.memory := s.tracker.memory.release a
        own := s.own.erase a }

end Steps

/-! ### Who has an address -/

/-- What can have an address. -/
inductive Holder (ι : Type) where
  | registry
  /-- A call whose block the registry does not have yet. -/
  | pending (t : ι)
  /-- The program for itself. -/
  | program

/-- The registry as it is when what the holder of the lock has had done is recorded. -/
def registry (s : Shared ι) : List Address :=
  match s.lock with
  | none => s.tracker.live
  | some t => ((s.calls t).settle s.tracker).live

/-- A thread has a block that the registry does not have yet. -/
def IsPending (s : Shared ι) (t : ι) (a : Address) : Prop := (s.calls t).pending? = some a

/-- Who has an address. -/
def Holds (s : Shared ι) : Holder ι → Address → Prop
  | .registry, a => a ∈ s.registry
  | .pending t, a => s.IsPending t a
  | .program, a => a ∈ s.own

/-- What is allocated is had by someone, and by one only. -/
structure IsHeld {η : Type} (allocated : Address → Prop) (holds : η → Address → Prop) : Prop where
  allocated_iff (a : Address) : allocated a ↔ ∃ k, holds k a
  unique {k k' : η} {a : Address} : holds k a → holds k' a → k = k'

namespace IsHeld

variable {η : Type} {allocated allocated' : Address → Prop} {holds holds' : η → Address → Prop}
  {k k' : η} {a b : Address}

theorem congr (h : IsHeld allocated holds) (hallocated : ∀ x, allocated' x ↔ allocated x)
    (hholds : ∀ k x, holds' k x ↔ holds k x) : IsHeld allocated' holds' where
  allocated_iff x := by simp only [hallocated, hholds, h.allocated_iff]
  unique hk hk' := h.unique ((hholds _ _).1 hk) ((hholds _ _).1 hk')

/-- An address that was not allocated is given to someone. -/
theorem give (h : IsHeld allocated holds) (hfree : ¬allocated a) (k₀ : η) :
    IsHeld (fun x ↦ x = a ∨ allocated x) fun k x ↦ k = k₀ ∧ x = a ∨ holds k x where
  allocated_iff x := by
    rw [h.allocated_iff]
    constructor
    · rintro (hx | ⟨k, hk⟩)
      · exact ⟨k₀, .inl ⟨rfl, hx⟩⟩
      · exact ⟨k, .inr hk⟩
    · rintro ⟨k, ⟨-, hx⟩ | hk⟩
      · exact .inl hx
      · exact .inr ⟨k, hk⟩
  unique := by
    rintro k k' x (⟨rfl, rfl⟩ | hk) (⟨rfl, hx⟩ | hk')
    · rfl
    · exact absurd ((h.allocated_iff x).2 ⟨k', hk'⟩) hfree
    · exact absurd ((h.allocated_iff x).2 ⟨k, hk⟩) (hx ▸ hfree)
    · exact h.unique hk hk'

/-- An address is taken from the one who has it. -/
theorem take (h : IsHeld allocated holds) (a : Address) :
    IsHeld (fun x ↦ allocated x ∧ x ≠ a) fun k x ↦ holds k x ∧ x ≠ a where
  allocated_iff x := by rw [h.allocated_iff, exists_and_right]
  unique hk hk' := h.unique hk.1 hk'.1

/-- Who has an address does not have what another one has. -/
theorem and_ne_iff (h : IsHeld allocated holds) (ha : holds k a) (hne : k' ≠ k) {x : Address} :
    holds k' x ∧ x ≠ a ↔ holds k' x :=
  and_iff_left_of_imp fun hx hxa ↦ hne (h.unique hx (hxa ▸ ha))

end IsHeld

/-! ### The registry -/

section Registry

variable {tracker : Tracker} {a x : Address}

theorem mem_live_enlist : x ∈ (tracker.enlist a).live ↔ x = a ∨ x ∈ tracker.live := by
  rw [Tracker.enlist]
  by_cases ha : a ∈ tracker.live
  · simp only [List.contains_iff_mem, ha, if_true]
    exact ⟨.inr, fun h ↦ h.elim (· ▸ ha) id⟩
  · simp [ha]

theorem mem_live_delist : x ∈ (tracker.delist a).live ↔ x ∈ tracker.live ∧ x ≠ a := by
  simp [Tracker.delist]

theorem nodup_live_enlist (h : tracker.live.Nodup) : (tracker.enlist a).live.Nodup := by
  rw [Tracker.enlist]
  by_cases ha : a ∈ tracker.live
  · simpa [ha] using h
  · simp [ha, h]

theorem nodup_live_delist (h : tracker.live.Nodup) : (tracker.delist a).live.Nodup := h.filter _

end Registry

variable {s s' : Shared ι} {t : ι}

theorem registry_of_unlocked (h : s.lock = none) : s.registry = s.tracker.live := by
  rw [registry, h]

theorem registry_of_locked (h : s.lock = some t) :
    s.registry = ((s.calls t).settle s.tracker).live := by
  rw [registry, h]

theorem live_settle_congr {tracker tracker' : Tracker} (h : tracker'.live = tracker.live)
    (call : Call) : (call.settle tracker').live = (call.settle tracker).live := by
  rcases tracker with ⟨memory, live⟩
  rcases tracker' with ⟨memory', live'⟩
  obtain rfl : live' = live := h
  cases call <;> rfl

/-- The registry as it is recorded depends on the call of who has the lock only. -/
theorem registry_congr (hlive : s'.tracker.live = s.tracker.live) (hlock : s'.lock = s.lock)
    (hcalls : ∀ t, s.lock = some t → s'.calls t = s.calls t) : s'.registry = s.registry := by
  cases h : s.lock with
  | none => rw [registry_of_unlocked h, registry_of_unlocked (hlock.trans h), hlive]
  | some t =>
    rw [registry_of_locked h, registry_of_locked (hlock.trans h), hcalls t h,
      live_settle_congr hlive]

end Shared

end Tracker

end ScriptHost
