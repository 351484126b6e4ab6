import ScriptHost.Builtin.Arguments
import ScriptHost.Host
import ScriptHost.Http.Lookup
import ScriptHost.Http.Server

/-!
# Web and threads

The builtins that look values up in requests, serve a route table, and run callbacks on threads.
-/

namespace ScriptHost.Builtin

/-- A string, or nil for none. -/
def orNil : Option (List Char) → Value
  | some s => .string (String.ofList s)
  | none => .nil

/-- Looks a name up in a text. -/
def lookupIn (name : String) (find : List Char → List Char → Option (List Char))
    (args : List Value) : Action Value := do
  expect name args 2
  let text ← toText (← argument args 0)
  let key ← toText (← argument args 1)
  return orNil (find text.toList key.toList)

/-- The value of a name in a query string. -/
def queryGet : List Value → Action Value := lookupIn "blaze_qs_get" Http.queryGet?

/-- The value of a name in a cookie header. -/
def cookieGet : List Value → Action Value := lookupIn "blaze_cookie_get" Http.cookieGet?

/-- The port that a number stands for; its fraction is dropped. -/
def port? : Value → Option Nat
  | .number n => if n.le (.ofNat 65535) then (if n.isZero then some 0 else n.floor?) else none
  | _ => none

/-- Serves a route table; false if the server does not start or breaks. -/
def serve (args : List Value) : Native Value := do
  match port? (arg args 0) with
  | none => rejected "blaze_run"
  | some port =>
    let host ← get
    match ← Http.serve (host.settings.withPort port) host.callbacks (arg args 1) with
    | .ok handled =>
      Action.log .info .web ("served " ++ Nat.repr handled ++ " connections")
      return .boolean true
    | .error fault =>
      Action.log .error .web fault.message
      return .boolean false

/-- What a callback comes to on a thread of its own. -/
def runThread (cb : Callback) (v : Value) : Action ThreadOutcome := fun world ↦
  match cb.run [v] world with
  | .ok result world => .ok (some result) world
  | .error _ world => .ok none world

/-- Runs a callback on a new thread of a given name.  A name with a zero character is a panic, and
the system may start no thread. -/
def runNamed (name : String) (cb : Callback) (v : Value) : Action ThreadOutcome :=
  if '\x00' ∈ name.toList then Action.panic
  else do
    match (← get).threadFault with
    | some message => Action.fail message
    | none => runThread cb v

/-- The name of a thread has a zero character if that of its callback has one. -/
theorem zero_mem_threadName {name : String} :
    '\x00' ∈ ("snask-" ++ name).toList ↔ '\x00' ∈ name.toList := by
  simp [String.toList_append]

/-- Starts a callback on a new thread and answers with its handle; nil if there is none.  The number
of the handle is taken before the thread is started, and stays taken if it is not. -/
def threadSpawn (args : List Value) : Native Value := do
  expect "thread_spawn" args 1
  let name ← toText (← argument args 0)
  match ← (← get).callbacks.find name .single with
  | none => return .nil
  | some cb =>
    let id ← modifyGet fun host ↦
      let (id, threads) := host.threads.takeId
      (id, { host with threads })
    let outcome ← runNamed ("snask-" ++ name) cb (arg args 1)
    let handle := Threads.handle id
    Action.log .debug .threads ("spawned " ++ handle ++ " running " ++ name)
    modify fun host ↦ { host with threads := host.threads.insert handle outcome }
    return .string handle

/-- Takes a thread out of the table. -/
def takeThread (handle : String) : Native (Option ThreadOutcome) :=
  modifyGet fun host ↦
    let (outcome, threads) := host.threads.remove handle
    (outcome, { host with threads })

/-- Waits for a thread and answers with its result; nil if it is unknown or has panicked. -/
def threadJoin (args : List Value) : Native Value := do
  expect "thread_join" args 1
  let handle ← toText (← argument args 0)
  match ← takeThread handle with
  | none => return .nil
  | some (some v) => return v
  | some none =>
    Action.log .warn .threads (handle ++ " panicked")
    return .nil

/-- Lets a thread go on by itself. -/
def threadDetach (args : List Value) : Native Value := do
  match arg args 0 with
  | .string handle => return .boolean (← takeThread handle).isSome
  | _ => rejected "thread_detach"

end ScriptHost.Builtin
