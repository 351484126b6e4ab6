import ScriptHost.Builtin.Standard
import ScriptHost.Equality
import ScriptHost.Foreign.Header

/-!
# Entry points for foreign code

Functions that take pointers to headers and write their result through an out pointer, which may be
null.

## Main definitions

* `Foreign.callBuiltin`, `Foreign.allocObject` : builtins by name, and new objects.
* `Foreign.Entry`, `Foreign.Entry.run` : the entry points that only take headers.
* `Foreign.register` : foreign functions as callbacks.
-/

namespace ScriptHost.Foreign

/-- A pointer to a header. -/
abbrev HeaderPointer := Option Header

/-- The text behind a pointer to characters. -/
def nameText (name : List UInt8) : String :=
  String.ofList (Text.Utf8.decode (name.takeWhile (· != 0)))

/-- Writes a value through an out pointer; nothing is done for the null pointer.  Answers with what
was written. -/
def writeOut (out : Bool) (v : Value) : Action HeaderPointer :=
  if out then do return some (← Header.ofValue v) else return none

/-- Calls a builtin with the values behind some pointers. -/
def forward (builtins : Builtins) (out : Bool) (name : String) (args : List HeaderPointer) :
    Native HeaderPointer := do
  let values ← Header.readAll args
  let v ← builtins.call name values
  writeOut out v

/-- Calls a builtin; the null pointer as its name calls none. -/
def callBuiltin (builtins : Builtins) (out : Bool) (name : Option (List UInt8))
    (args : List Header) : Native HeaderPointer :=
  match name with
  | none => writeOut out .nil
  | some name => forward builtins out (nameText name) (args.map some)

/-- Makes an object with some names, null pointers among them aside. -/
def allocObject (builtins : Builtins) (out : Bool) (names : List (Option (List UInt8))) :
    Native HeaderPointer := do
  let v ← builtins.call "s_alloc_obj"
    (names.filterMap fun name ↦ name.map fun bytes ↦ .string (nameText bytes))
  writeOut out v

/-- The entry points that only take headers. -/
inductive Entry where
  /-- A builtin with a fixed count of arguments. -/
  | builtin (name : String) (arity : Nat)
  /-- A callback by the string in the first header. -/
  | callback (kind : Callback.Kind)
  | looseEqual
  | strictEqual
deriving DecidableEq

namespace Entry

/-- The exported symbols. -/
def symbols : List (String × Entry) :=
  [("snask_json_parse", builtin "json_parse" 1),
    ("snask_json_parse_ex", builtin "json_parse_ex" 1),
    ("snask_json_stringify", builtin "json_stringify" 1),
    ("snask_json_stringify_pretty", builtin "json_stringify_pretty" 1),
    ("snask_get_member", builtin "s_get_member" 2),
    ("snask_set_member", builtin "s_set_member" 3),
    ("snask_path_get", builtin "sjson_path_get" 2),
    ("snask_qs_get", builtin "blaze_qs_get" 2),
    ("snask_cookie_get", builtin "blaze_cookie_get" 2),
    ("snask_blaze_run", builtin "blaze_run" 2),
    ("snask_call1", callback .single),
    ("snask_call2", callback .context),
    ("snask_loose_eq", looseEqual),
    ("snask_strict_eq", strictEqual)]

/-- The pointer at a position; those that are not given are null. -/
def pointer (args : List HeaderPointer) (i : Nat) : HeaderPointer := (args[i]?).getD none

/-- Calls an entry point. -/
def run (builtins : Builtins) (out : Bool) (args : List HeaderPointer) :
    Entry → Native HeaderPointer
  | builtin name arity => forward builtins out name ((List.range arity).map (pointer args))
  | callback kind => do
    let v ← match ← Header.read (pointer args 0) with
      | .string name => do
        let values ← Header.readAll ((List.range kind.arity).map fun i ↦ pointer args (i + 1))
        (← get).callbacks.call name kind values
      | _ => pure .nil
    writeOut out v
  | looseEqual => do
    let a ← Header.read (pointer args 0)
    let b ← Header.read (pointer args 1)
    writeOut out (.boolean (a.looseEq b))
  | strictEqual => do
    let a ← Header.read (pointer args 0)
    let b ← Header.read (pointer args 1)
    writeOut out (.boolean (a.strictEq b))

end Entry

/-- A foreign function: given the headers of its arguments it writes a header, or none. -/
abbrev Function := List Header → Action HeaderPointer

/-- A foreign function as a callback.  What it does not write is nil. -/
def callbackOf (kind : Callback.Kind) (f : Function) : Callback where
  kind := kind
  run args := do
    let headers ← args.mapM Header.ofValue
    let written ← f headers
    Header.read (some (written.getD .nil))

/-- Registers a foreign function, and tells whether it could; neither the function nor its name may
be the null pointer. -/
def register (name : Option (List UInt8)) (kind : Callback.Kind) (f : Option Function) :
    Native Bool := do
  match f, name with
  | some f, some name =>
    match ← Native.register (nameText name) (callbackOf kind f) with
    | .ok () => return true
    | .error fault =>
      Action.log .error .foreign fault.message
      return false
  | _, _ => return false

end ScriptHost.Foreign
