import ScriptHost.Memory

/-!
# Tracked allocations

Memory that is handed out to compiled code and released in one sweep.  The tracker keeps the
addresses of the blocks that it is to release.

## Main definitions

* `Tracker.alloc`, `Tracker.realloc` : tracked blocks, as far as the system grants them.
* `Tracker.dup`, `Tracker.dupPrefix` : tracked copies that end in a zero byte.
* `Tracker.releaseAll` : the sweep.
-/

namespace ScriptHost

/-- The memory and the addresses to be released. -/
structure Tracker where
  memory : Memory
  live : List Address

namespace Tracker

/-- Nothing allocated. -/
def empty : Tracker := ⟨.empty, []⟩

instance : Inhabited Tracker := ⟨empty⟩

/-- Whether a pointer is to be released. -/
def isTracked (t : Tracker) : Pointer → Bool
  | some a => t.live.contains a
  | none => false

/-- How many blocks are to be released. -/
def liveCount (t : Tracker) : Nat := t.live.length

/-- Adds an address to those to be released. -/
def enlist (t : Tracker) (a : Address) : Tracker :=
  { t with live := if t.live.contains a then t.live else a :: t.live }

/-- Takes an address from those to be released. -/
def delist (t : Tracker) (a : Address) : Tracker :=
  { t with live := t.live.filter (· != a) }

/-- A tracked block for `n` bytes. -/
def alloc (t : Tracker) (allocator : Memory.Allocator) (n : Nat) : Pointer × Tracker :=
  match t.memory.reserve allocator n with
  | none => (none, t)
  | some (a, memory) => (some a, { t with memory }.enlist a)

/-- Resizes a tracked block; the null pointer gets a new one.  On failure nothing changes. -/
def realloc (t : Tracker) (allocator : Memory.Allocator) (p : Pointer) (n : Nat) :
    Pointer × Tracker :=
  match p with
  | none => t.alloc allocator n
  | some a =>
    match t.memory.resize allocator a n with
    | none => (none, t)
    | some (b, memory) => (some b, ({ t with memory }.delist a).enlist b)

/-- A tracked copy with a zero byte after it. -/
def dup (t : Tracker) (allocator : Memory.Allocator) (bytes : List UInt8) : Pointer × Tracker :=
  match t.alloc allocator (bytes.length + 1) with
  | (none, t) => (none, t)
  | (some a, t) => (some a, { t with memory := t.memory.fill a (bytes ++ [0]) })

/-- A tracked copy of at most `n` bytes, which ends before the first zero byte. -/
def dupPrefix (t : Tracker) (allocator : Memory.Allocator) (bytes : List UInt8) (n : Nat) :
    Pointer × Tracker :=
  t.dup allocator ((bytes.take n).takeWhile (· != 0))

/-- Releases every tracked block once, and tells how many there were. -/
def releaseAll (t : Tracker) : Nat × Tracker :=
  (t.live.length, ⟨t.live.foldl Memory.release t.memory, []⟩)

end Tracker

end ScriptHost
