import ScriptHost.Http.Reading
import ScriptHost.Http.Service
import ScriptHost.Http.Settings

/-!
# Serving connections

Connections are served one after another: the whole request is read, the whole response is written,
then the next connection is accepted.

## Main definitions

* `Http.drive` : the accept loop.
* `Http.serveOne` : one connection.
* `Http.serve`, `Http.serveArrivals` : a server from its route table.
-/

namespace ScriptHost.Http

/-- After this many failed accepts in a row the listener counts as broken. -/
def maxAcceptFailures : Nat := 32

/-- Gives the connections that arrive to `handle` until `limit` of them are handled, a fault is
fatal or too many faults follow each other; tells how many were handled. -/
def driveFrom {m : Type → Type} [Monad m] {σ : Type} (limit : Option Nat) (warn : String → m Unit)
    (handle : σ → m Unit) (handled failures : Nat) :
    List (Arrival σ) → m (Except AcceptFault Nat)
  | [] => pure (.ok handled)
  | .error fault :: arrivals =>
    if fault.isFatal || maxAcceptFailures ≤ failures + 1 then pure (.error fault)
    else do
      warn fault.message
      driveFrom limit warn handle handled (failures + 1) arrivals
  | .ok connection :: arrivals => do
    handle connection
    if limit.any (· ≤ handled + 1) then pure (.ok (handled + 1))
    else driveFrom limit warn handle (handled + 1) 0 arrivals

/-- The accept loop from its beginning. -/
def drive {m : Type → Type} [Monad m] {σ : Type} (limit : Option Nat) (warn : String → m Unit)
    (handle : σ → m Unit) (arrivals : List (Arrival σ)) : m (Except AcceptFault Nat) :=
  driveFrom limit warn handle 0 0 arrivals

/-- Sends bytes to the connection that is served. -/
def send (bytes : List UInt8) : Action Unit := modify fun w ↦ { w with sent := w.sent.push bytes }

/-- The log record on a request that was answered. -/
def summary (raw : List UInt8) (r : Response) : String :=
  let line := Text.trimEndWhile Text.isBlank (Text.Utf8.decode (raw.takeWhile (· != lineFeed)))
  String.ofList line ++ " -> " ++ Nat.repr r.status ++ " (" ++ Nat.repr r.body.utf8ByteSize ++
    " bytes)"

/-- Serves one connection.  One that cannot be read gets nothing; a buffer that cannot be had is a
panic. -/
def serveOne (routes : Routes) (callbacks : Callbacks) (maxRequestBytes : Nat)
    (connection : Connection) : Action Unit := do
  match receive maxRequestBytes connection with
  | .error .bufferTooLarge => Action.panic
  | .error (.reset _) =>
    Action.log .warn .server
      "failed to read request: Connection reset by peer (os error 104)"
    send []
  | .ok received =>
    let response ← routes.handle callbacks received.buffer
    Action.log .info .server (summary received.buffer response)
    send response.bytes

/-- Serves the connections that arrive; tells how many were handled. -/
def serveArrivals (settings : Settings) (callbacks : Callbacks) (routes : Routes)
    (arrivals : List (Arrival Connection)) : Action (Except ServeFault Nat) := do
  let ended ← drive settings.maxRequests
    (fun message ↦ Action.log .warn .server ("accept failed: " ++ message))
    (serveOne routes callbacks settings.maxRequestBytes) arrivals
  match ended with
  | .ok handled => return .ok handled
  | .error fault => return .error (.accept fault.message)

/-- Serves a route table at the address of the settings.  The table is looked at before anything is
listened on. -/
def serve (settings : Settings) (callbacks : Callbacks) (table : Value) :
    Action (Except ServeFault Nat) := do
  match ← Action.inspect fun heap ↦ Routes.ofValue heap table with
  | .error fault => return .error fault
  | .ok routes =>
    match (← get).network.listen settings.host settings.port with
    | .error reason => return .error (.listen settings.address reason)
    | .ok arrivals =>
      Action.log .info .server ("listening on " ++ settings.address)
      serveArrivals settings callbacks routes arrivals

end ScriptHost.Http
