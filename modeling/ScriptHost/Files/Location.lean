/-!
# Where a directory is

A directory is more than a path to it: it stays the same directory when it or one above it moves,
and also when it is removed.  A removed directory has no names in it and takes none, but still leads
up to the one that it stood in.

## Main definitions

* `Files.Location` : a directory, there or removed.
* `Files.Location.afterRemoval`, `Files.Location.afterMove` : what becomes of it.

## Main results

* `Files.Location.above_afterRemoval` : a removed directory keeps what is above it.
* `Files.Location.afterMove_append` : a directory moves along with an entry above it.
-/

namespace ScriptHost.Files

/-- The size that a directory is shown with. -/
def directorySize : Nat := 4096

/-- Where a directory is: the names that lead to it from the root or, if it has been removed, to the
lowest one above it that is still there. -/
structure Location where
  names : List String
  /-- The removed directories that lead down from there, this one first, each by the size that it is
  shown with. -/
  removed : List Nat
deriving DecidableEq

namespace Location

/-- The location of a directory that is there. -/
def ofNames (names : List String) : Location := ⟨names, []⟩

/-- The root. -/
def root : Location := ofNames []

/-- Whether the directory has been removed. -/
def isRemoved (l : Location) : Bool := !l.removed.isEmpty

/-- The size that the directory is shown with. -/
def size (l : Location) : Nat := l.removed.head?.getD directorySize

/-- One step up.  The root is above itself. -/
def above (l : Location) : Location :=
  match l.removed with
  | [] => ofNames l.names.dropLast
  | _ :: removed => ⟨l.names, removed⟩

/-- Where the directory is when the one at some names has been removed, and left with a size. -/
def afterRemoval (l : Location) (names : List String) (size : Nat) : Location :=
  if l.names = names then ⟨names.dropLast, l.removed ++ [size]⟩ else l

/-- Where the directory is when the entry at some names has moved to others. -/
def afterMove (l : Location) (old new : List String) : Location :=
  if old.isPrefixOf l.names then ⟨new ++ l.names.drop old.length, l.removed⟩ else l

/-- A removed directory keeps what is above it. -/
theorem above_afterRemoval (names : List String) (size : Nat) :
    ((ofNames names).afterRemoval names size).above = (ofNames names).above := by
  simp [afterRemoval, above, ofNames]

/-- A directory moves along with its entry. -/
theorem afterMove_append (old new names : List String) :
    (ofNames (old ++ names)).afterMove old new = ofNames (new ++ names) := by
  simp [afterMove, ofNames]

end Location

end ScriptHost.Files
