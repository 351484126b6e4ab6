import ScriptHost.Decimal.Literal
import ScriptHost.Text.Pieces

/-!
# The command line

What the words of a command line ask for.  Words are taken from left to right, and the first one
that does not fit ends the reading.

## Main definitions

* `Command`, `Command.Invocation` : what can be asked for.
* `Command.Refusal` : what is answered without doing anything.
* `Command.Level`, `Command.scan` : the words of one level of commands.
* `Command.parse` : the invocation that some words ask for.
-/

namespace ScriptHost

/-- A command with its arguments. -/
inductive Command where
  /-- Serves the route table in a file. -/
  | serve (routes : String) (host : Option String) (port maxRequests : Option Nat)
  /-- Writes a document anew. -/
  | format (file : String) (compact : Bool)
  /-- Tells whether a document can be read. -/
  | check (file : String)
  /-- Writes the value at a path in a document. -/
  | lookUp (file path : String)
deriving DecidableEq

namespace Command

/-- A command and how much it is to log; none if the command line does not say. -/
structure Invocation where
  verbosity : Option Nat
  command : Command
deriving DecidableEq

/-- What is answered without doing anything. -/
inductive Refusal where
  | version
  | help
  | misuse
deriving DecidableEq

/-- The words that one level of commands takes, besides those that every level takes. -/
structure Level where
  /-- Whether the version may be asked for. -/
  version : Bool
  subcommands : List String
  /-- The tests that the positional arguments pass, in order. -/
  positionals : List (String → Bool)
  switches : List String
  /-- The names of options with the tests that their values pass. -/
  options : List (String × (String → Bool))

/-- What the words of one level say: how often more records were asked for, the switches, options
and positional arguments, and the subcommand with the words after it. -/
structure Scan where
  verbose : Nat
  switches : List String
  options : List (String × String)
  positionals : List String
  subcommand : Option (String × List String)

namespace Scan

/-- Nothing said yet. -/
def nothing : Scan := ⟨0, [], [], [], none⟩

end Scan

/-- Whether a word can only be a switch or an option. -/
def looksLikeOption (word : String) : Bool := word.startsWith "-" && word != "-"

/-- Takes one more positional argument. -/
def takePositional (level : Level) (s : Scan) (word : String) : Except Refusal Scan :=
  match level.positionals[s.positionals.length]? with
  | some test =>
    if test word then .ok { s with positionals := s.positionals ++ [word] } else .error .misuse
  | none => .error .misuse

/-- Takes the value of an option, which is given at most once. -/
def takeOption (level : Level) (s : Scan) (name value : String) : Except Refusal Scan :=
  match level.options.lookup name with
  | some test =>
    if test value && (s.options.lookup name).isNone then
      .ok { s with options := (name, value) :: s.options }
    else .error .misuse
  | none => .error .misuse

/-- Takes a word of two hyphens and a name without a value. -/
def takeSwitch (level : Level) (s : Scan) (name : String) : Except Refusal Scan :=
  if name = "help" then .error .help
  else if name = "version" ∧ level.version then .error .version
  else if name = "verbose" then .ok { s with verbose := s.verbose + 1 }
  else if level.switches.contains name && !s.switches.contains name then
    .ok { s with switches := name :: s.switches }
  else .error .misuse

/-- Takes the letters after a single hyphen. -/
def takeLetters (level : Level) (s : Scan) : List Char → Except Refusal Scan
  | [] => .ok s
  | 'v' :: cs => takeLetters level { s with verbose := s.verbose + 1 } cs
  | 'h' :: _ => .error .help
  | 'V' :: _ => .error (if level.version then .version else .misuse)
  | _ => .error .misuse

/-- Takes the words of one level up to its subcommand. -/
def scan (level : Level) (s : Scan) : List String → Except Refusal Scan
  | [] => .ok s
  | "--" :: words => words.foldlM (takePositional level) s
  | word :: words =>
    match word.toList with
    | '-' :: '-' :: cs =>
      match Text.splitOnce '=' cs with
      | some (name, value) =>
        (takeOption level s (String.ofList name) (String.ofList value)).bind fun s ↦
          scan level s words
      | none =>
        let name := String.ofList cs
        if (level.options.lookup name).isSome then
          match words with
          | value :: words =>
            if looksLikeOption value then .error .misuse
            else (takeOption level s name value).bind fun s ↦ scan level s words
          | [] => .error .misuse
        else (takeSwitch level s name).bind fun s ↦ scan level s words
    | '-' :: c :: cs => (takeLetters level s (c :: cs)).bind fun s ↦ scan level s words
    | _ =>
      if level.subcommands.isEmpty then
        (takePositional level s word).bind fun s ↦ scan level s words
      else if level.subcommands.contains word then
        .ok { s with subcommand := some (word, words) }
      else .error .misuse

/-- A path of a file is not empty. -/
def isPath (word : String) : Bool := !word.isEmpty

/-- Anything at all. -/
def isAnything (_ : String) : Bool := true

/-- The port that a word denotes. -/
def port? (word : String) : Option Nat :=
  (Decimal.readInt (1 <<< 63) word.toList).bind fun i ↦
    if 0 ≤ i ∧ i < 65536 then some i.toNat else none

/-- The count that a word denotes. -/
def count? (word : String) : Option Nat := Decimal.readNat (1 <<< 64) word.toList

/-- The first level. -/
def topLevel : Level := ⟨true, ["serve", "json", "help"], [], [], []⟩

/-- The level below `json`. -/
def jsonLevel : Level := ⟨false, ["fmt", "check", "get", "help"], [], [], []⟩

/-- The words after `serve`. -/
def serveLevel : Level :=
  ⟨false, [], [isPath], [], [("host", isAnything), ("port", fun w ↦ (port? w).isSome),
    ("max-requests", fun w ↦ (count? w).isSome)]⟩

/-- The words after `fmt`. -/
def formatLevel : Level := ⟨false, [], [isPath], ["compact"], []⟩

/-- The words after `check`. -/
def checkLevel : Level := ⟨false, [], [isPath], [], []⟩

/-- The words after `get`. -/
def lookUpLevel : Level := ⟨false, [], [isPath, isAnything], [], []⟩

/-- How much is to be logged: what the innermost level says, if any says something. -/
def verbosity (outer : Option Nat) (s : Scan) : Option Nat :=
  if s.verbose = 0 then outer else some s.verbose

/-- Whether words name a command, word by word. -/
def namesCommand : List String → Bool
  | [] => true
  | [c] => ["serve", "json", "help"].contains c
  | ["json", c] => ["fmt", "check", "get", "help"].contains c
  | _ => false

/-- Help on a command, if there is such a command. -/
def helpOn (words : List String) : Refusal := if namesCommand words then .help else .misuse

/-- The invocation that words after `serve` ask for. -/
def parseServe (outer : Option Nat) (words : List String) : Except Refusal Invocation := do
  let s ← scan serveLevel .nothing words
  match s.positionals with
  | [routes] =>
    return ⟨verbosity outer s, .serve routes (s.options.lookup "host")
      ((s.options.lookup "port").bind port?) ((s.options.lookup "max-requests").bind count?)⟩
  | _ => throw .misuse

/-- The invocation that words after `json` ask for. -/
def parseJson (outer : Option Nat) (words : List String) : Except Refusal Invocation := do
  let s ← scan jsonLevel .nothing words
  let outer := verbosity outer s
  match s.subcommand with
  | some ("fmt", words) =>
    let s ← scan formatLevel .nothing words
    match s.positionals with
    | [file] => return ⟨verbosity outer s, .format file (s.switches.contains "compact")⟩
    | _ => throw .misuse
  | some ("check", words) =>
    let s ← scan checkLevel .nothing words
    match s.positionals with
    | [file] => return ⟨verbosity outer s, .check file⟩
    | _ => throw .misuse
  | some ("get", words) =>
    let s ← scan lookUpLevel .nothing words
    match s.positionals with
    | [file, path] => return ⟨verbosity outer s, .lookUp file path⟩
    | _ => throw .misuse
  | some ("help", words) => throw (helpOn ("json" :: words))
  | _ => throw .misuse

/-- The invocation that the words of a command line ask for. -/
def parse (words : List String) : Except Refusal Invocation := do
  let s ← scan topLevel .nothing words
  let outer := verbosity none s
  match s.subcommand with
  | some ("serve", words) => parseServe outer words
  | some ("json", words) => parseJson outer words
  | some ("help", words) => throw (helpOn words)
  | _ => throw .misuse

end Command

end ScriptHost
