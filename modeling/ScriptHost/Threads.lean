import ScriptHost.Heap

/-!
# Threads of the program

Threads are known by handles, texts that number them.  A handle is used up by joining or detaching
its thread.

## Main definitions

* `Threads` : the threads that are neither joined nor detached, with what is known of each.
* `Threads.takeId`, `Threads.insert`, `Threads.remove` : the steps of spawning, joining and
  detaching.
-/

namespace ScriptHost

/-- What a thread has come to: its value, or none if it panicked. -/
abbrev ThreadOutcome := Option Value

/-- The threads that are neither joined nor detached, each with what is known of it, and the next
number to give out. -/
structure Threads (τ : Type) where
  next : UInt64
  live : List (String × τ)

namespace Threads

variable {τ : Type}

/-- No threads; numbers begin with one. -/
def empty : Threads τ := ⟨1, []⟩

instance : Inhabited (Threads τ) := ⟨empty⟩

/-- The handle with a number. -/
def handle (n : UInt64) : String := "thread:" ++ Nat.repr n.toNat

/-- Takes a number.  The same one is given out again only after all the others. -/
def takeId (ts : Threads τ) : UInt64 × Threads τ := (ts.next, { ts with next := ts.next + 1 })

/-- Adds a thread under its handle. -/
def insert (ts : Threads τ) (handle : String) (thread : τ) : Threads τ :=
  { ts with live := (handle, thread) :: ts.live.filter (·.1 != handle) }

/-- Takes out the thread with this handle. -/
def remove (ts : Threads τ) (handle : String) : Option τ × Threads τ :=
  (ts.live.lookup handle, { ts with live := ts.live.filter (·.1 != handle) })

theorem remove_fst (ts : Threads τ) (handle : String) :
    (ts.remove handle).1 = ts.live.lookup handle := rfl

/-- A handle that is not in the table takes nothing out of it. -/
theorem remove_eq_self {ts : Threads τ} {handle : String}
    (h : (ts.remove handle).1 = none) : (ts.remove handle).2 = ts := by
  have hne : ∀ e ∈ ts.live, (e.1 != handle) = true := fun e he ↦
    bne_iff_ne.2 (bne_iff_ne.1 (List.lookup_eq_none_iff.1 h e he)).symm
  simp [remove, List.filter_eq_self.2 hne]

/-- How many threads are neither joined nor detached. -/
def liveCount (ts : Threads τ) : Nat := ts.live.length

end Threads

end ScriptHost
