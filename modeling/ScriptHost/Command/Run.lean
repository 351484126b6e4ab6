import ScriptHost.Command.Usage
import ScriptHost.Http.Server
import ScriptHost.Path

/-!
# Running commands

## Main definitions

* `Command.Result` : what a command leaves behind.
* `Command.run` : a command in a world, given what reading its file gave.
* `Command.refuse` : the answer that needs no command to be run.
-/

namespace ScriptHost.Command

/-- What a command leaves behind: its exit code and what it wrote; whether it would go on waiting
for connections instead of ending. -/
structure Result where
  code : Nat
  output : String
  errors : String
  waiting : Bool
deriving DecidableEq

/-- The file that a command reads. -/
def file : Command → String
  | serve routes .. => routes
  | format file _ => file
  | check file => file
  | lookUp file _ => file

/-- The result of a command that ends well. -/
def success (output : String) : Result := ⟨0, output, "", false⟩

/-- The result of a command whose answer is no. -/
def failure (message : String) : Result := ⟨1, "", message ++ "\n", false⟩

/-- The result of a command that could not do its work. -/
def fatal (message : String) : Result := ⟨2, "", "error: " ++ message ++ "\n", false⟩

/-- The text of the file, or the result when there is none. -/
def textOf (file : String) (contents : Except Files.Fault (List UInt8)) : Except Result String :=
  let refuse (fault : Files.Fault) : Except Result String :=
    .error (fatal ("failed to read " ++ file ++ ": " ++ fault.message))
  match contents with
  | .error fault => refuse fault
  | .ok bytes =>
    match Text.Utf8.decode? bytes with
    | some text => .ok (String.ofList text)
    | none => refuse .notUtf8

/-- The tree of the document in the file, or the result when it is none. -/
def treeOf (file : String) (contents : Except Files.Fault (List UInt8)) : Except Result Tree :=
  match textOf file contents with
  | .error result => .error result
  | .ok text =>
    match Json.parse text with
    | .ok t => .ok t
    | .error f => .error (fatal ("invalid JSON in " ++ file ++ ": " ++ f.message))

/-- The settings of a server: those of the environment under those of the command line. -/
def settings (host : Option String) (port maxRequests : Option Nat) (base : Http.Settings) :
    Http.Settings :=
  let s := { base with host := host.getD base.host, port := port.getD base.port }
  match maxRequests with
  | some n => s.withMaxRequests (some n)
  | none => s

/-- The message of a fault with the causes below it. -/
def chain (fault : Http.ServeFault) : String :=
  match fault with
  | .listen _ reason => fault.message ++ ": " ++ reason
  | .accept reason => fault.message ++ ": " ++ reason
  | .routesNotObject _ => fault.message

/-- Serves the route table in the file. -/
def runServe (file : String) (host : Option String) (port maxRequests : Option Nat)
    (contents : Except Files.Fault (List UInt8)) : Action Result := do
  match treeOf file contents with
  | .error result => return result
  | .ok t =>
    let table ← Action.onHeap (·.realize t)
    let type := (← get).heap.typeName table
    if type != "object" then
      return fatal (file ++ ": route table must be an object, got " ++ type)
    else
      Action.log .debug .memory "tracking allocator exit hook registered (rc=0)"
      let settings := settings host port maxRequests (.ofEnvironment (← get).setting?)
      match ← Http.serve settings .empty table with
      | .error fault => return fatal ("serving " ++ file ++ ": " ++ chain fault)
      | .ok handled =>
        if settings.maxRequests.any (· ≤ handled) then
          Action.log .info .serveCommand ("served " ++ Nat.repr handled ++ " connections")
          return success ""
        else return { success "" with waiting := true }

/-- Does what a command asks for, given what reading its file gave. -/
def perform (contents : Except Files.Fault (List UInt8)) : Command → Action Result
  | serve file host port maxRequests => runServe file host port maxRequests contents
  | format file compact =>
    match treeOf file contents with
    | .error result => return result
    | .ok t => do
      let v ← Action.onHeap (·.realize t)
      let heap := (← get).heap
      return success ((if compact then Json.compact heap v else Json.pretty heap v) ++ "\n")
  | check file =>
    match textOf file contents with
    | .error result => return result
    | .ok text =>
      match Json.parse text with
      | .ok _ => return success "ok\n"
      | .error f => return failure (file ++ ": " ++ f.message)
  | lookUp file path =>
    match treeOf file contents with
    | .error result => return result
    | .ok t => do
      let root ← Action.onHeap (·.realize t)
      let report ← Action.onHeap (·.pathReport root path)
      let heap := (← get).heap
      if (heap.member report "ok").isTruthy then
        return success (Json.compact heap (heap.member report "value") ++ "\n")
      else return failure (heap.display (heap.member report "error"))

/-- Which records are shown: as many as the command line asks for, or else what the environment
says, or else warnings. -/
def threshold (verbosity : Option Nat) (setting? : String → Option String) : Log.Threshold :=
  match verbosity with
  | some 1 => ⟨3⟩
  | some 2 => ⟨4⟩
  | some _ => ⟨5⟩
  | none =>
    ((setting? "SNASK_LOG").bind fun word ↦
      Log.Threshold.ofWord? (Text.trim word.toList)).getD ⟨2⟩

/-- Runs a command; the records that are shown come before its own messages. -/
def run (invocation : Invocation) (contents : Except Files.Fault (List UInt8)) (world : World) :
    Result × World :=
  let shown := threshold invocation.verbosity world.setting?
  let finish (result : Result) (after : World) : Result × World :=
    let records := after.log.toList.filter shown.shows
    ({ result with errors := String.join (records.map Log.Entry.line) ++ result.errors }, after)
  match perform contents invocation.command world with
  | .ok result after => finish result after
  | .error (.failed message) after => finish (fatal message) after
  | .error .panicked after => finish ⟨101, "", "", false⟩ after

/-- The name and the version of the program. -/
def versionLine : String := "snask 0.1.0\n"

/-- The explanation of the usage. -/
def usageText : String :=
  "Usage: snask [-v]... serve <ROUTES> [--host <HOST>] [--port <PORT>] [--max-requests <N>]\n" ++
  "       snask [-v]... json fmt <FILE> [--compact]\n" ++
  "       snask [-v]... json check <FILE>\n" ++
  "       snask [-v]... json get <FILE> <PATH>\n"

/-- The answer that needs no command to be run. -/
def refuse : Refusal → Result
  | .version => success versionLine
  | .help => success usageText
  | .misuse => ⟨2, "", usageText, false⟩

end ScriptHost.Command
