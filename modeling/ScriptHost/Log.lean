/-!
# Log records

## Main definitions

* `Log.Level`, `Log.Source` : how grave a record is and which part wrote it.
* `Log.Entry` : a record, `Log.Entry.line` its text on the error stream.
* `Log.Threshold` : which records are shown.
-/

namespace ScriptHost.Log

/-- How grave a record is. -/
inductive Level where
  | error
  | warn
  | info
  | debug
  | trace
deriving DecidableEq

/-- The name of a level. -/
def Level.name : Level → String
  | error => "ERROR"
  | warn => "WARN"
  | info => "INFO"
  | debug => "DEBUG"
  | trace => "TRACE"

/-- The graver a level the lower its rank; ranks begin with one. -/
def Level.rank : Level → Nat
  | error => 1
  | warn => 2
  | info => 3
  | debug => 4
  | trace => 5

/-- The part that wrote a record. -/
inductive Source where
  | memory
  | callbacks
  | threads
  | server
  | builtins
  | files
  | arguments
  | web
  | foreign
  | serveCommand
deriving DecidableEq

/-- The name under which a part is logged. -/
def Source.name : Source → String
  | memory => "snask_core::track"
  | callbacks => "snask_runtime::dispatch"
  | threads => "snask_runtime::threads"
  | server => "snask_runtime::http::server"
  | builtins => "snask_runtime::runtime"
  | files => "snask_runtime::builtins::fs"
  | arguments => "snask_runtime::builtins::common"
  | web => "snask_runtime::builtins::http"
  | foreign => "snask_runtime::abi"
  | serveCommand => "snask::commands::serve"

/-- A record. -/
structure Entry where
  level : Level
  source : Source
  message : String
deriving DecidableEq

/-- The text of a record on the error stream, its level padded to five characters. -/
def Entry.line (e : Entry) : String :=
  let level := e.level.name
  let pad := String.ofList (List.replicate (5 - level.length) ' ')
  "[" ++ level ++ pad ++ " " ++ e.source.name ++ "] " ++ e.message ++ "\n"

/-- The rank of the least grave level that is shown; zero shows nothing. -/
structure Threshold where
  rank : Nat
deriving DecidableEq

/-- The threshold that a word names, in any letter case. -/
def Threshold.ofWord? (word : List Char) : Option Threshold :=
  match String.ofList (word.map Char.toUpper) with
  | "OFF" => some ⟨0⟩
  | "ERROR" => some ⟨1⟩
  | "WARN" => some ⟨2⟩
  | "INFO" => some ⟨3⟩
  | "DEBUG" => some ⟨4⟩
  | "TRACE" => some ⟨5⟩
  | _ => none

/-- Whether a record is shown. -/
def Threshold.shows (t : Threshold) (e : Entry) : Bool := e.level.rank ≤ t.rank

end ScriptHost.Log
