import ScriptHost.Text.Pieces

/-!
# File names

Paths in the file system taken apart as text.  Repeated slashes and dots that stand for the
directory itself count for nothing, save a dot at the very front.

## Main definitions

* `Files.fileName?`, `Files.parent?`, `Files.extension?` : the parts of a path.
* `Files.join` : a path below another one.
-/

namespace ScriptHost.Files

/-- A path taken apart: a slash or a dot at its front, and the pieces after it. -/
structure Parts where
  lead : List Char
  pieces : List (List Char)

/-- Whether a piece counts for nothing. -/
def isVoid (piece : List Char) : Bool := piece.isEmpty || piece == ['.']

/-- Pieces without those at the end that count for nothing. -/
def trimPieces (pieces : List (List Char)) : List (List Char) :=
  (pieces.reverse.dropWhile isVoid).reverse

/-- The parts of a path. -/
def parts : List Char → Parts
  | '/' :: s => ⟨['/'], trimPieces (s.splitOn '/')⟩
  | ['.'] => ⟨['.'], []⟩
  | '.' :: '/' :: s => ⟨['.'], trimPieces (('/' :: s).splitOn '/')⟩
  | s => ⟨[], trimPieces (s.splitOn '/')⟩

/-- Pieces with slashes between them. -/
def joinPieces (pieces : List (List Char)) : List Char := ['/'].intercalate pieces

/-- The last piece of a path, unless it stands for a parent directory. -/
def fileName? (path : List Char) : Option (List Char) :=
  match (parts path).pieces.getLast? with
  | some ['.', '.'] => none
  | last => last

/-- The path without its last piece.  The root and the empty path have none. -/
def parent? (path : List Char) : Option (List Char) :=
  let p := parts path
  if p.pieces.isEmpty then
    if p.lead == ['.'] then some [] else none
  else some (p.lead ++ joinPieces (trimPieces p.pieces.dropLast))

/-- What follows the last dot of the file name, if anything stands before that dot. -/
def extension? (path : List Char) : Option (List Char) := do
  let name ← fileName? path
  let (after, before) ← Text.splitOnce '.' name.reverse
  if before.isEmpty then none else some after.reverse

/-- The path `below` as seen from `path`; a path from the root stands for itself. -/
def join (path below : List Char) : List Char :=
  if below.head? = some '/' then below
  else match path.getLast? with
    | none => below
    | some c => if c = '/' then path ++ below else path ++ '/' :: below

end ScriptHost.Files
