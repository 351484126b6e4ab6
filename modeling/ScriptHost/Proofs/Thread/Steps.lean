import Mathlib.Data.List.Basic
import Mathlib.Logic.Function.Basic
import ScriptHost.Builtin.Serving
import ScriptHost.Proofs.Concurrent.Runs

/-!
# Spawning and joining by several callers

Callers of one table spawn, join and detach threads in any order.  A spawn takes a number, then has
the system start a thread, which may fail, and then puts the thread into the table and answers with
its handle.  A join takes the thread out of the table and then waits for it.  The threads come to
something at any time after they were started.  Every act of a caller tells whose it is, and what a
thread comes to is told with the world in which it did so and the world after it.

## Main definitions

* `Threads.Act` : what is done in one step.
* `Threads.Shared`, `Threads.Shared.Step` : the table with its callers and threads, and their steps.
* `Threads.spawned`, `Threads.consumed` : what the acts so far have put into the table and taken out
  of it.
-/

namespace ScriptHost

namespace Threads

/-- A thread that was started: the function it calls with its argument, and what it has come to. -/
structure Started where
  cb : Callback
  arg : Value
  outcome? : Option ThreadOutcome

/-- Where a caller is in its call. -/
inductive Call where
  /-- It is in no call. -/
  | idle
  /-- It has taken a number and is to have a thread started. -/
  | starting (id : UInt64) (cb : Callback) (arg : Value)
  /-- Its thread was started and is to be put into the table. -/
  | inserting (id : UInt64) (cb : Callback) (arg : Value) (thread : Nat)
  /-- It has taken a thread out of the table and waits for it. -/
  | waiting (handle : String) (thread : Nat)

/-- The number that a call has taken and not answered with. -/
def Call.number? : Call → Option UInt64
  | starting id .. | inserting id .. => some id
  | _ => none

/-- The thread that a call has started and not put into the table. -/
def Call.thread? : Call → Option Nat
  | inserting _ _ _ thread => some thread
  | _ => none

/-- The thread that a call waits for. -/
def Call.waited? : Call → Option Nat
  | waiting _ thread => some thread
  | _ => none

/-- What is done in one step, by which caller if it is one of a call. -/
inductive Act (ι : Type) where
  /-- A spawn takes a number. -/
  | take (t : ι) (id : UInt64)
  /-- The system starts no thread, and the spawn fails. -/
  | refuse (t : ι) (id : UInt64)
  | start (t : ι) (thread : Nat)
  /-- A spawn puts its thread into the table and answers with the handle of its number. -/
  | insert (t : ι) (id : UInt64) (cb : Callback) (arg : Value) (thread : Nat)
  /-- A join takes the thread of a handle out of the table.  If there is none, it answers nil. -/
  | seek (t : ι) (handle : String) (thread? : Option Nat)
  /-- A join answers with what its thread has come to: nil if it has panicked. -/
  | join (t : ι) (handle : String) (thread : Nat) (outcome : ThreadOutcome)
  /-- A detach takes the thread of a handle out of the table and tells whether there was one. -/
  | detach (t : ι) (handle : String) (thread? : Option Nat)
  /-- A thread comes to something in the world `w`, which becomes `w'`. -/
  | finish (thread : Nat) (outcome : ThreadOutcome) (w w' : World)
  /-- Something else happens in the world, which becomes `w`. -/
  | other (w : World)

/-! ### What was done so far -/

section

variable {ι : Type}

/-- The number that an act takes. -/
def Act.taken? : Act ι → Option UInt64
  | take _ id => some id
  | _ => none

/-- The number that a spawn answers with in an act, and its thread. -/
def Act.spawned? : Act ι → Option (UInt64 × Nat)
  | insert _ id _ _ thread => some (id, thread)
  | _ => none

/-- The number of a spawn that ends in an act, with an answer or without. -/
def Act.settled? : Act ι → Option UInt64
  | refuse _ id | insert _ id .. => some id
  | _ => none

/-- The handle for which a join or a detach finds a thread in an act, and the thread. -/
def Act.consumed? : Act ι → Option (String × Nat)
  | seek _ handle thread? | detach _ handle thread? => thread?.map fun thread ↦ (handle, thread)
  | _ => none

/-- The thread of which a join answers what it has come to, or a detach that there was one. -/
def Act.answered? : Act ι → Option Nat
  | join _ _ thread _ => some thread
  | detach _ _ thread? => thread?
  | _ => none

/-- The thread that comes to something in an act. -/
def Act.finished? : Act ι → Option Nat
  | finish thread .. => some thread
  | _ => none

/-- The numbers that were taken. -/
def taken (record : List (Act ι)) : List UInt64 := record.filterMap Act.taken?

/-- The numbers of the spawns that have ended. -/
def settled (record : List (Act ι)) : List UInt64 := record.filterMap Act.settled?

/-- The numbers that spawns have answered with, each with its thread. -/
def spawned (record : List (Act ι)) : List (UInt64 × Nat) := record.filterMap Act.spawned?

/-- The handles that spawns have answered with, each with its thread. -/
def issued (record : List (Act ι)) : List (String × Nat) :=
  (spawned record).map fun p ↦ (handle p.1, p.2)

/-- The handles for which a join or a detach has found a thread, each with it. -/
def consumed (record : List (Act ι)) : List (String × Nat) := record.filterMap Act.consumed?

/-- The threads for which joins and detaches have answered. -/
def answered (record : List (Act ι)) : List Nat := record.filterMap Act.answered?

/-- The threads that have come to something. -/
def finished (record : List (Act ι)) : List Nat := record.filterMap Act.finished?

variable (record : List (Act ι)) (act : Act ι)

/-- What one act more adds to what was done. -/
theorem filterMap_concat {α : Type} (f : Act ι → Option α) :
    (record ++ [act]).filterMap f = record.filterMap f ++ (f act).toList := by
  rw [List.filterMap_append]
  cases h : f act <;> simp [h]

theorem taken_append : taken (record ++ [act]) = taken record ++ act.taken?.toList :=
  filterMap_concat record act Act.taken?

theorem settled_append : settled (record ++ [act]) = settled record ++ act.settled?.toList :=
  filterMap_concat record act Act.settled?

theorem spawned_append : spawned (record ++ [act]) = spawned record ++ act.spawned?.toList :=
  filterMap_concat record act Act.spawned?

theorem consumed_append : consumed (record ++ [act]) = consumed record ++ act.consumed?.toList :=
  filterMap_concat record act Act.consumed?

theorem answered_append : answered (record ++ [act]) = answered record ++ act.answered?.toList :=
  filterMap_concat record act Act.answered?

theorem finished_append : finished (record ++ [act]) = finished record ++ act.finished?.toList :=
  filterMap_concat record act Act.finished?

end

/-! ### Steps -/

/-- A table and the callers and threads around it. -/
structure Shared (ι : Type) where
  /-- The table, which knows the threads by when they were started. -/
  threads : Threads Nat
  /-- The threads in the order in which they were started. -/
  started : List Started
  world : World
  /-- Where the callers are in their calls. -/
  calls : ι → Call

namespace Shared

variable {ι : Type}

/-- No threads, and no caller in a call. -/
def initial (world : World) : Shared ι := ⟨.empty, [], world, fun _ ↦ .idle⟩

/-- What a thread has come to, if it has. -/
def outcomeOf? (s : Shared ι) (thread : Nat) : Option ThreadOutcome :=
  s.started[thread]?.bind Started.outcome?

theorem outcomeOf?_eq_some_iff {s : Shared ι} {thread : Nat} {outcome : ThreadOutcome} :
    s.outcomeOf? thread = some outcome ↔
      ∃ cb arg, s.started[thread]? = some ⟨cb, arg, some outcome⟩ := by
  rw [outcomeOf?, Option.bind_eq_some_iff]
  constructor
  · rintro ⟨⟨cb, arg, outcome?⟩, hstarted, rfl⟩
    exact ⟨cb, arg, hstarted⟩
  · rintro ⟨cb, arg, hstarted⟩
    exact ⟨_, hstarted, rfl⟩

variable [DecidableEq ι]

/-- With a caller at another point of its call. -/
def put (s : Shared ι) (t : ι) (call : Call) : Shared ι :=
  { s with calls := Function.update s.calls t call }

section

variable {s : Shared ι} {t u : ι} {call : Call}

theorem calls_put_self : (s.put t call).calls t = call := Function.update_self ..

theorem calls_put_of_ne (h : u ≠ t) : (s.put t call).calls u = s.calls u :=
  Function.update_of_ne h ..

end

/-- How a join goes on when it has looked for its thread. -/
def afterSeek (handle : String) : Option Nat → Call
  | some thread => .waiting handle thread
  | none => .idle

/-- The steps of the callers and the threads. -/
inductive Step (s : Shared ι) : Act ι → Shared ι → Prop
  | take {t : ι} (cb : Callback) (arg : Value) (call : s.calls t = .idle) :
      Step s (.take t s.threads.takeId.1) { s.put t (.starting s.threads.takeId.1 cb arg) with
        threads := s.threads.takeId.2 }
  | refuse {t : ι} {id : UInt64} {cb : Callback} {arg : Value}
      (call : s.calls t = .starting id cb arg) : Step s (.refuse t id) (s.put t .idle)
  | start {t : ι} {id : UInt64} {cb : Callback} {arg : Value}
      (call : s.calls t = .starting id cb arg) :
      Step s (.start t s.started.length) { s.put t (.inserting id cb arg s.started.length) with
        started := s.started ++ [⟨cb, arg, none⟩] }
  | insert {t : ι} {id : UInt64} {cb : Callback} {arg : Value} {thread : Nat}
      (call : s.calls t = .inserting id cb arg thread) :
      Step s (.insert t id cb arg thread) { s.put t .idle with
        threads := s.threads.insert (handle id) thread }
  | seek {t : ι} (handle : String) (call : s.calls t = .idle) :
      Step s (.seek t handle (s.threads.remove handle).1)
        { s.put t (afterSeek handle (s.threads.remove handle).1) with
          threads := (s.threads.remove handle).2 }
  | join {t : ι} {handle : String} {thread : Nat} {cb : Callback} {arg : Value}
      {outcome : ThreadOutcome} (call : s.calls t = .waiting handle thread)
      (ended : s.started[thread]? = some ⟨cb, arg, some outcome⟩) :
      Step s (.join t handle thread outcome) (s.put t .idle)
  | detach {t : ι} (handle : String) (call : s.calls t = .idle) :
      Step s (.detach t handle (s.threads.remove handle).1) { s with
        threads := (s.threads.remove handle).2 }
  | finish {thread : Nat} {cb : Callback} {arg : Value} {outcome : ThreadOutcome} {world : World}
      (running : s.started[thread]? = some ⟨cb, arg, none⟩)
      (ran : Builtin.runThread cb arg s.world = .ok outcome world) :
      Step s (.finish thread outcome s.world world) { s with
        started := s.started.set thread ⟨cb, arg, some outcome⟩
        world }
  | other (world : World) : Step s (.other world) { s with world }

end Shared

end Threads

end ScriptHost
