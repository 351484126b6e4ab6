import ScriptHost.Builtin.Arguments
import ScriptHost.Double.Nearest
import ScriptHost.Files.Tree.Operations
import ScriptHost.Text.Utf8

/-!
# Files and their names

The builtins on files answer false or nil when the system refuses; its error is only logged.
-/

namespace ScriptHost.Builtin

/-- Logs a fault with the name of the operation and the path. -/
def logFault (operation path : String) (fault : Files.Fault) : Action Unit :=
  Action.log .debug .files (operation ++ " " ++ path ++ ": " ++ fault.message)

/-- Looks at the files; a fault is logged. -/
def consult {α : Type} (operation path : String) (f : Files.Tree → Except Files.Fault α) :
    Action (Option α) := do
  match f (← get).files with
  | .ok a => return some a
  | .error fault =>
    logFault operation path fault
    return none

/-- Changes the files, and answers whether the system let it. -/
def alter (operation path : String) (f : Files.Tree → Except Files.Fault Files.Tree) :
    Action Value := do
  match ← consult operation path f with
  | some files =>
    modify fun w ↦ { w with files }
    return .boolean true
  | none => return .boolean false

/-- Runs a flag that takes a path. -/
def withPath (name : String) (args : List Value) (f : String → Action Value) : Action Value :=
  match arg args 0 with
  | .string path => f path
  | _ => rejected name

/-- Runs a flag that takes a path and another text. -/
def withPathAnd (name : String) (args : List Value) (f : String → String → Action Value) :
    Action Value :=
  match arg args 0, arg args 1 with
  | .string path, .string other => f path other
  | _, _ => rejected name

/-- Answers with what the files tell of a path, nil on a fault. -/
def tellOf {α : Type} (name operation : String)
    (f : Files.Tree → String → Except Files.Fault α) (answer : α → Action Value)
    (args : List Value) : Action Value := do
  expect name args 1
  let path ← toText (← argument args 0)
  match ← consult operation path (f · path) with
  | some a => answer a
  | none => return .nil

/-- The text of a file, nil if it cannot be read. -/
def fileRead : List Value → Action Value :=
  tellOf "sfs_read" "read" Files.Tree.read fun bytes ↦
    return .string (String.ofList (Text.Utf8.decode bytes))

/-- Writes a file anew. -/
def fileWrite (args : List Value) : Action Value :=
  withPathAnd "sfs_write" args fun path text ↦
    alter "write" path (·.write path (Text.Utf8.encode text.toList))

/-- Writes at the end of a file. -/
def fileAppend (args : List Value) : Action Value :=
  withPathAnd "sfs_append" args fun path text ↦
    alter "append" path (·.append path (Text.Utf8.encode text.toList))

/-- Removes a file. -/
def fileDelete (args : List Value) : Action Value :=
  withPath "sfs_delete" args fun path ↦ alter "delete" path (·.delete path)

/-- Whether a path leads anywhere. -/
def fileExists (args : List Value) : Action Value :=
  withPath "sfs_exists" args fun path ↦ do return .boolean ((← get).files.contains path)

/-- Copies a file. -/
def fileCopy (args : List Value) : Action Value :=
  withPathAnd "sfs_copy" args fun source target ↦ alter "copy" source (·.copy source target)

/-- Moves a file or a directory. -/
def fileMove (args : List Value) : Action Value :=
  withPathAnd "sfs_move" args fun source target ↦ alter "move" source (·.move source target)

/-- Makes a directory and those above it. -/
def directoryMake (args : List Value) : Action Value :=
  withPath "sfs_mkdir" args fun path ↦ do
    let (fault?, files) := (← get).files.makeDirectories path
    modify fun w ↦ { w with files }
    match fault? with
    | none => return .boolean true
    | some fault =>
      logFault "mkdir" path fault
      return .boolean false

/-- Removes an empty directory. -/
def directoryRemove (args : List Value) : Action Value :=
  withPath "sfs_rmdir" args fun path ↦ alter "rmdir" path (·.removeDirectory path)

/-- Whether a path leads to a file. -/
def isFile (args : List Value) : Action Value :=
  withPath "sfs_is_file" args fun path ↦ do return .boolean ((← get).files.isFile path)

/-- Whether a path leads to a directory. -/
def isDirectory (args : List Value) : Action Value :=
  withPath "sfs_is_dir" args fun path ↦ do return .boolean ((← get).files.isDirectory path)

/-- The names in a directory as a sorted array, nil if it cannot be read. -/
def directoryList : List Value → Action Value :=
  tellOf "sfs_listdir" "listdir" Files.Tree.list fun names ↦
    Action.make (.ofValues (names.map .string))

/-- The size of a file, nil if it cannot be told. -/
def fileSize : List Value → Action Value :=
  tellOf "sfs_size" "stat" Files.Tree.size fun n ↦ return .number (.ofNat n)

/-- When a file was last changed, nil if it cannot be told.  The tree keeps no times: whatever is in
it counts as changed just now. -/
def fileTime : List Value → Action Value :=
  tellOf "sfs_mtime" "stat" Files.Tree.stat fun _ ↦ do return .number (.ofInt (← get).clock)

/-- A text computed from a path. -/
def onPath (name : String) (f : List Char → List Char) (args : List Value) : Action Value := do
  expect name args 1
  let path ← toText (← argument args 0)
  return .string (String.ofList (f path.toList))

/-- The last piece of a path. -/
def pathBase : List Value → Action Value :=
  onPath "path_basename" fun path ↦ (Files.fileName? path).getD []

/-- A path without its last piece; a dot if nothing is left of it. -/
def pathDirectory : List Value → Action Value :=
  onPath "path_dirname" fun path ↦
    match Files.parent? path with
    | some [] => ['.']
    | some above => above
    | none => path

/-- The extension of a path with its dot. -/
def pathExtension : List Value → Action Value :=
  onPath "path_extname" fun path ↦
    match Files.extension? path with
    | some ext => '.' :: ext
    | none => []

/-- One path below another. -/
def pathJoin (args : List Value) : Action Value := do
  expect "path_join" args 2
  let path ← toText (← argument args 0)
  let below ← toText (← argument args 1)
  return .string (String.ofList (Files.join path.toList below.toList))

end ScriptHost.Builtin
