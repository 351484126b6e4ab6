import ScriptHost.Files.Entry
import ScriptHost.Files.Fault
import ScriptHost.Files.Location
import ScriptHost.Text.Pieces

/-!
# A tree of files

The file system as a tree of named entries, with a current directory.  A path is a way through the
tree, from the root or from the current directory.  Only what is below the directories for temporary
files can be changed; the rest of the tree belongs to the system.

## Main definitions

* `Files.Tree` : the tree and its current directory.
* `Files.Tree.locate` : where a path leads.
* `Files.Tree.stat` : what is there.
* `Files.Tree.put`, `Files.Tree.erase`, `Files.Tree.transfer` : the changes at a place.
-/

namespace ScriptHost.Files

/-- The files and the current directory. -/
structure Tree where
  root : Entry
  current : Location

namespace Tree

/-- The directories for temporary files. -/
def openDirectories : List (List String) := [["tmp"], ["var", "tmp"], ["dev", "shm"]]

/-- The directories at the root that are mounts.  Nothing moves from one mount to another. -/
def mounts : List String := ["dev", "proc", "sys"]

/-- The mount that a directory belongs to, none for the one at the root. -/
def mount? (names : List String) : Option String := names.head?.filter mounts.contains

/-- What the system has at the root besides the current directory. -/
def systemEntries : List (String × Entry) :=
  let devices := .directory
    [("full", .device true), ("null", .device false), ("shm", .directory [])]
  let users := .file "root:x:0:0:root:/root:/bin/bash\n".toUTF8
  let bare := ["bin", "boot", "home", "lib", "lib64", "media", "mnt", "opt", "proc", "root", "run",
    "sbin", "srv", "sys", "usr"]
  ("dev", devices) :: ("etc", .directory [("passwd", users)]) ::
    ("var", .directory [("tmp", .directory [])]) :: bare.map fun name ↦ (name, .directory [])

/-- The system with an empty current directory, which is a temporary one. -/
def initial : Tree :=
  ⟨.directory (("tmp", .directory [("work", .directory [])]) :: systemEntries),
    .ofNames ["tmp", "work"]⟩

/-- The path of the current directory.  A removed one has none. -/
def currentPath? (t : Tree) : Option String :=
  if t.current.isRemoved then none else some ("/" ++ "/".intercalate t.current.names)

/-- The longest name of an entry, in bytes. -/
def maxName : Nat := 255

/-- The length, in bytes, that a path stays below. -/
def maxPath : Nat := 4096

/-- What the last piece of a path is: a name, one dot, two dots, or nothing after the root. -/
inductive Ending where
  | name
  | dot
  | dots
  | root
deriving DecidableEq

/-- Where a path leads. -/
structure Place where
  /-- The directory that the path leads to or, if it ends in a name, the one that has the name. -/
  directory : Location
  /-- The names that lead to the end of the path from the root. -/
  names : List String
  /-- What is there. -/
  entry? : Option Entry
  ending : Ending
  /-- Whether a slash follows the last piece. -/
  slashed : Bool

namespace Place

/-- Whether the last piece of the path is a name. -/
def isNamed (p : Place) : Bool := p.ending == .name

/-- Whether the last name can be made and removed. -/
def isOpen (p : Place) : Bool := openDirectories.any (·.isPrefixOf p.names.dropLast)

/-- What is there.  Looking is what finds out that the last name stands in a removed directory,
where nothing can be, or is too long. -/
def look (p : Place) : Except Fault (Option Entry) :=
  if !p.isNamed then .ok p.entry?
  else if p.directory.isRemoved then .error .notFound
  else if p.names.getLast?.any (maxName < ·.utf8ByteSize) then .error .nameTooLong
  else .ok p.entry?

end Place

/-- What is at a location.  A removed directory is empty. -/
def entryAt? (t : Tree) (l : Location) : Option Entry :=
  if l.isRemoved then some (.directory []) else t.root.at? l.names

/-- One step from a directory. -/
def descend (t : Tree) (l : Location) (piece : List Char) : Except Fault Location :=
  if piece.isEmpty || piece == ['.'] then .ok l
  else if piece == ['.', '.'] then .ok l.above
  else if l.isRemoved then .error .notFound
  else if maxName < Text.byteCount piece then .error .nameTooLong
  else
    let names := l.names ++ [String.ofList piece]
    match t.root.at? names with
    | none => .error .notFound
    | some e => if e.isDirectory then .ok (.ofNames names) else .error .notADirectory

/-- Where a path leads.  All of it but the last piece must be there. -/
def locate (t : Tree) (path : String) : Except Fault Place :=
  let s := path.toList
  if s.contains '\x00' then .error .zeroByte
  else if s.isEmpty then .error .notFound
  else if maxPath ≤ Text.byteCount s then .error .nameTooLong
  else do
    let start := if s.head? = some '/' then .root else t.current
    let pieces := s.splitOn '/'
    let last := (pieces.filter (!·.isEmpty)).getLast?
    let slashed := s.getLast? = some '/'
    let above := ((pieces.reverse.dropWhile List.isEmpty).drop 1).reverse
    let dir ← above.foldlM t.descend start
    let arrive (l : Location) (ending : Ending) : Place :=
      ⟨l, l.names, t.entryAt? l, ending, slashed⟩
    match last with
    | none => return arrive dir .root
    | some ['.'] => return arrive dir .dot
    | some ['.', '.'] => return arrive dir.above .dots
    | some piece =>
      let names := dir.names ++ [String.ofList piece]
      return ⟨dir, names, t.root.at? names, .name, slashed⟩

/-- Puts an entry at a place. -/
def put (t : Tree) (p : Place) (e : Entry) : Tree :=
  { t with root := t.root.change (fun _ ↦ some e) p.names }

/-- Removes the entry at a place.  A directory is left with no size. -/
def erase (t : Tree) (p : Place) : Tree :=
  ⟨t.root.change (fun _ ↦ none) p.names, t.current.afterRemoval p.names 0⟩

/-- Moves an entry from one place to another.  What is there makes room; a directory that does so
keeps its size. -/
def transfer (t : Tree) (p : Place) (e : Entry) (q : Place) : Tree :=
  ⟨(t.root.change (fun _ ↦ none) p.names).change (fun _ ↦ some e) q.names,
    (t.current.afterRemoval q.names directorySize).afterMove p.names q.names⟩

/-- What is at the end of a path. -/
def stat (t : Tree) (path : String) : Except Fault Entry := do
  let p ← t.locate path
  match ← p.look with
  | none => throw .notFound
  | some e => if p.slashed && !e.isDirectory then throw .notADirectory else return e

end Tree

end ScriptHost.Files
