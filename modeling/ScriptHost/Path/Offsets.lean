import ScriptHost.Json.Cursor
import ScriptHost.Path

/-!
# Reading paths by byte offsets

The reader of `ScriptHost.Path` as it goes over the bytes of a segment, with the index at which the
groups that are left begin.  A piece of a segment is taken between two indices, which have to be in
range and may not lie within a character; a piece that cannot be taken is a panic, which stands as
no answer here.

## Main definitions

* `Path.Offsets.spanName?` : the name of a segment and what follows it.
* `Path.Offsets.readGroups`, `Path.Offsets.readSegment` : the steps of a segment.
* `Path.Offsets.parse` : the steps that a text denotes.
-/

namespace ScriptHost.Path.Offsets

open Json.Cursor (skipWhile slice? le_skipWhile)

/-- The index of the first `c` from `i` on, or that of the end if there is none. -/
def find (c : Char) (bytes : List UInt8) (i : Nat) : Nat := skipWhile bytes (· != c) i

theorem le_find (c : Char) (bytes : List UInt8) (i : Nat) : i ≤ find c bytes i :=
  le_skipWhile bytes _ i

/-- The groups in brackets from an index on. -/
def readGroups (bytes : List UInt8) (i : Nat) : Option (Except Fault (List Step)) :=
  if i < bytes.length then
    let close := find ']' bytes i
    if close < bytes.length then do
      let inside ← slice? bytes (i + 1) close
      match Decimal.readNat indexBound inside with
      | none => return .error .badIndex
      | some n =>
        let rest ← slice? bytes (close + 1) bytes.length
        if rest.isEmpty || rest.head? == some '[' then
          let steps ← readGroups bytes (close + 1)
          return steps.map (.index n :: ·)
        else return .error (.unexpected (String.ofList rest))
    else some (.error .unclosedBracket)
  else some (.ok [])
termination_by bytes.length - i
decreasing_by
  have hle := le_find ']' bytes i
  omega

/-- The name in front of the first bracket of a segment, and what follows from there on. -/
def spanName? (segment : List Char) : Option (List Char × List Char) :=
  let bytes := Text.Utf8.encode segment
  let stop := find '[' bytes 0
  if stop < bytes.length then do
    let name ← slice? bytes 0 stop
    let rest ← slice? bytes stop bytes.length
    return (name, rest)
  else some (segment, [])

/-- The steps of a segment: a name, groups in brackets, or both. -/
def readSegment (segment : List Char) : Option (Except Fault (List Step)) := do
  let (name, rest) ← spanName? segment
  if name.isEmpty && rest.isEmpty then return .error .emptySegment
  else
    let groups ← readGroups (Text.Utf8.encode rest) 0
    return groups.map fun steps ↦
      if name.isEmpty then steps else .key (String.ofList name) :: steps

/-- The steps of segments, up to the first one that has none. -/
def readSegments : List (List Char) → Option (Except Fault (List Step))
  | [] => some (.ok [])
  | segment :: segments => do
    match ← readSegment segment with
    | .error fault => return .error fault
    | .ok steps =>
      let more ← readSegments segments
      return more.map (steps ++ ·)

/-- The steps that a text denotes. -/
def parse (path : String) : Option (Except Fault (List Step)) :=
  if path == "" then some (.ok []) else readSegments (path.toList.splitOn '.')

end ScriptHost.Path.Offsets
