import ScriptHost.Files.Tree
import ScriptHost.Heap
import ScriptHost.Log
import ScriptHost.Network.Isolated
import ScriptHost.Tracker

/-!
# The world around a program

All that an operation of the host may look at or change besides its own tables, and the actions on
it.  An action answers with a value, fails with a message or panics; what it has done to the world
by then stays done.

## Main definitions

* `World` : the heap, the tracked memory, the files, the environment and what was written.
* `Abort`, `Action` : actions on the world.
* `Entropy` : the source of random bytes.
-/

namespace ScriptHost

/-- A source of random bytes: broken, or giving bytes in equal steps. -/
inductive Entropy where
  | broken
  | steps (next step : Nat)
deriving DecidableEq

/-- The next `n` bytes of a source and what it gives afterwards. -/
def Entropy.take (n : Nat) : Entropy → Option (List UInt8 × Entropy)
  | broken => none
  | steps next step =>
    some ((List.range n).map fun i ↦ UInt8.ofNat (next + i * step), steps (next + n * step) step)

/-- All that an operation of the host may look at or change besides its own tables. -/
structure World where
  heap : Heap
  memory : Tracker
  allocator : Memory.Allocator
  files : Files.Tree
  environment : List (String × String)
  /-- Seconds since the epoch. -/
  clock : Int
  entropy : Entropy
  network : Network
  /-- What the system says while it starts no threads. -/
  threadFault : Option String
  /-- What was written to the standard output. -/
  printed : String
  /-- The records logged, the latest last. -/
  log : Array Log.Entry
  /-- What each connection that was served has got, the latest last. -/
  sent : Array (List UInt8)

namespace World

/-- Where the system looks for programs. -/
def searchPath : String := "/usr/local/sbin:/usr/local/bin:/usr/sbin:/usr/bin:/sbin:/bin"

/-- A world in which nothing has happened. -/
def initial : World where
  heap := .empty
  memory := .empty
  allocator := .unlimited
  files := .initial
  environment := [("PATH", searchPath)]
  clock := 0
  entropy := .steps 0 0
  network := .isolated
  threadFault := none
  printed := ""
  log := #[]
  sent := #[]

instance : Inhabited World := ⟨initial⟩

/-- The value of a variable of the environment.  The environment is a list of lines `name=value`,
and the value is what follows the name and an equals sign on the first line that starts so. -/
def setting? (w : World) (name : String) : Option String :=
  let start := name.toList ++ ['=']
  w.environment.findSome? fun (key, value) ↦
    let line := key.toList ++ '=' :: value.toList
    if start.isPrefixOf line then some (String.ofList (line.drop start.length)) else none

end World

/-- Why an action gives no value. -/
inductive Abort where
  | failed (message : String)
  | panicked
deriving DecidableEq

/-- An action on the world. -/
abbrev Action := EStateM Abort World

namespace Action

variable {α : Type}

/-- Fails with a message. -/
def fail (message : String) : Action α := throw (.failed message)

/-- Panics. -/
def panic : Action α := throw .panicked

/-- Logs a record. -/
def log (level : Log.Level) (source : Log.Source) (message : String) : Action Unit :=
  modify fun w ↦ { w with log := w.log.push ⟨level, source, message⟩ }

/-- Looks at the heap. -/
def inspect (f : Heap → α) : Action α := do return f (← get).heap

/-- Works on the heap. -/
def onHeap (f : Heap → α × Heap) : Action α :=
  modifyGet fun w ↦
    let (a, heap) := f w.heap
    (a, { w with heap })

/-- Makes an object. -/
def make (o : Object Value) : Action Value :=
  onHeap fun heap ↦
    let (h, heap) := heap.alloc o
    (.object h, heap)

/-- Sets a variable of the environment.  A name that is empty or has an equals sign is a panic, and
so is a zero character in the name or the value. -/
def setVariable (name value : String) : Action Unit :=
  if name = "" ∨ '=' ∈ name.toList ∨ '\x00' ∈ name.toList ∨ '\x00' ∈ value.toList then panic
  else modify fun w ↦ { w with environment := Members.put name value w.environment }

/-- Writes to the standard output. -/
def print (text : String) : Action Unit := modify fun w ↦ { w with printed := w.printed ++ text }

/-- Gives a message as a failure or a value as an answer. -/
def ofExcept : Except String α → Action α
  | .ok a => pure a
  | .error message => fail message

end Action

end ScriptHost
