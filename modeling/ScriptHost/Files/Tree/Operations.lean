import ScriptHost.Files.Name
import ScriptHost.Files.Tree

/-!
# Operations on files

What can be asked of a tree of files and done to it.  Every operation answers with its result or
with the system's error.  Where several errors are at hand, the order of the tests says which one
wins.

## Main definitions

* `Files.Tree.read`, `Files.Tree.size`, `Files.Tree.list` : what can be asked.
* `Files.Tree.write`, `Files.Tree.append`, `Files.Tree.delete`, `Files.Tree.copy`,
  `Files.Tree.move` : what can be done with files.
* `Files.Tree.makeDirectories`, `Files.Tree.removeDirectory` : what can be done with directories.
-/

namespace ScriptHost.Files

namespace Tree

/-- The size of an entry. -/
def size (t : Tree) (path : String) : Except Fault Nat := do
  match ← t.stat path with
  | .file bytes => return bytes.size
  | .directory _ => return (← t.locate path).directory.size
  | .device _ => return 0

/-- The bytes of a file. -/
def read (t : Tree) (path : String) : Except Fault (List UInt8) := do
  match ← t.stat path with
  | .file bytes => return bytes.data.toList
  | .directory _ => throw .isADirectory
  | .device _ => return []

/-- Writes a file, made if it is not there; `f` gives its new bytes from the old ones. -/
def modify (t : Tree) (path : String) (f : ByteArray → ByteArray) : Except Fault Tree := do
  let p ← t.locate path
  if p.slashed then throw .isADirectory
  else match ← p.look with
    | some (.directory _) => throw .isADirectory
    | some (.file bytes) =>
      if p.isOpen then return t.put p (.file (f bytes)) else throw .permissionDenied
    | some (.device full) => if full && (f .empty).size != 0 then throw .noSpace else return t
    | none => if p.isOpen then return t.put p (.file (f .empty)) else throw .permissionDenied

/-- Writes a file anew. -/
def write (t : Tree) (path : String) (bytes : List UInt8) : Except Fault Tree :=
  t.modify path fun _ ↦ ⟨bytes.toArray⟩

/-- Writes at the end of a file. -/
def append (t : Tree) (path : String) (bytes : List UInt8) : Except Fault Tree :=
  t.modify path (· ++ ⟨bytes.toArray⟩)

/-- Removes a file. -/
def delete (t : Tree) (path : String) : Except Fault Tree := do
  let p ← t.locate path
  if !p.isNamed then throw .isADirectory
  else match ← p.look with
    | none => throw .notFound
    | some e =>
      if p.slashed then throw (if e.isDirectory then .isADirectory else .notADirectory)
      if !p.isOpen then throw .permissionDenied
      if e.isDirectory then throw .isADirectory
      return t.erase p

/-- Copies a file.  A copy onto itself leaves it empty. -/
def copy (t : Tree) (source target : String) : Except Fault Tree := do
  if !(← t.stat source).isFile then throw .notARegularFile
  let t ← t.write target []
  let bytes ← t.read source
  t.write target bytes

/-- Moves an entry, over a file or an empty directory if one of its kind is there. -/
def move (t : Tree) (source target : String) : Except Fault Tree := do
  if source.toList.contains '\x00' || target.toList.contains '\x00' then throw .zeroByte
  let p ← t.locate source
  let q ← t.locate target
  if mount? p.directory.names != mount? q.directory.names then throw .crossDevice
  if !p.isNamed || !q.isNamed then throw .busy
  match ← p.look with
  | none => throw .notFound
  | some e =>
    let old? ← q.look
    if !e.isDirectory && (p.slashed || q.slashed) then throw .notADirectory
    if p.names == q.names then return t
    if p.names.isPrefixOf q.names then throw .invalidArgument
    if q.names.isPrefixOf p.names then throw .notEmpty
    if !p.isOpen || !q.isOpen then throw .permissionDenied
    match old? with
    | none => return t.transfer p e q
    | some old =>
      if e.isDirectory && !old.isDirectory then throw .notADirectory
      if !e.isDirectory && old.isDirectory then throw .isADirectory
      if !old.entries.isEmpty then throw .notEmpty
      return t.transfer p e q

/-- Makes a directory. -/
def makeDirectory (t : Tree) (path : String) : Except Fault Tree := do
  let p ← t.locate path
  if !p.isNamed then throw .exists
  else match ← p.look with
    | some _ => throw .exists
    | none => if p.isOpen then return t.put p (.directory []) else throw .permissionDenied

/-- Whether a path leads to a directory. -/
def isDirectory (t : Tree) (path : String) : Bool :=
  match t.stat path with
  | .ok e => e.isDirectory
  | .error _ => false

/-- Whether a path leads to a file. -/
def isFile (t : Tree) (path : String) : Bool :=
  match t.stat path with
  | .ok e => e.isFile
  | .error _ => false

/-- Whether a path leads anywhere. -/
def contains (t : Tree) (path : String) : Bool := (t.stat path).toOption.isSome

/-- Makes a directory; one that is already there passes for a new one. -/
def ensureDirectory (t : Tree) (path : String) : Except Fault Tree :=
  match t.makeDirectory path with
  | .ok t' => .ok t'
  | .error fault => if t.isDirectory path then .ok t else .error fault

/-- Makes a directory and those above it that are missing, at most `levels` of them.  What was made
before a fault stays. -/
def makeDirectoriesWithin (t : Tree) (path : List Char) : (levels : Nat) → Option Fault × Tree
  | 0 => (none, t)
  | levels + 1 =>
    if path.isEmpty then (none, t)
    else
      let finish (t : Tree) : Option Fault × Tree :=
        match t.ensureDirectory (String.ofList path) with
        | .ok t' => (none, t')
        | .error fault => (some fault, t)
      match t.makeDirectory (String.ofList path) with
      | .error .notFound =>
        match parent? path with
        | none => (some .notFound, t)
        | some above =>
          match t.makeDirectoriesWithin above levels with
          | (none, t) => finish t
          | faulty => faulty
      | _ => finish t

/-- Makes a directory and those above it that are missing.  What was made before a fault stays. -/
def makeDirectories (t : Tree) (path : String) : Option Fault × Tree :=
  t.makeDirectoriesWithin path.toList (path.length + 1)

/-- Removes an empty directory. -/
def removeDirectory (t : Tree) (path : String) : Except Fault Tree := do
  let p ← t.locate path
  match p.ending with
  | .root => throw .busy
  | .dot => throw .invalidArgument
  | .dots => throw .notEmpty
  | .name =>
    match ← p.look with
    | none => throw .notFound
    | some e =>
      if !p.isOpen then throw .permissionDenied
      if !e.isDirectory then throw .notADirectory
      if !e.entries.isEmpty then throw .notEmpty
      return t.erase p

/-- The names in a directory, in the order of their characters. -/
def list (t : Tree) (path : String) : Except Fault (List String) := do
  match ← t.stat path with
  | .file _ | .device _ => throw .notADirectory
  | .directory entries => return (entries.map Prod.fst).mergeSort fun a b ↦ !decide (b < a)

end Tree

end ScriptHost.Files
