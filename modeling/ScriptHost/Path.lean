import ScriptHost.Decimal.General
import ScriptHost.Decimal.Literal
import ScriptHost.Json.Report
import ScriptHost.Text.Pieces

/-!
# Paths into nested objects

A path is a list of steps: a member by name, written between dots, or an element by position,
written in brackets, as in `users[0].name`.

## Main definitions

* `Path.Step`, `Path.parse` : the steps that a text denotes.
* `Path.render` : the text of a list of steps.
* `Heap.follow` : what a path leads to.
* `Heap.pathReport` : the report on following a path given as text.
-/

namespace ScriptHost

namespace Path

/-- One step into an object. -/
inductive Step where
  | key (name : String)
  | index (i : Nat)
deriving DecidableEq

/-- Why a text is no path. -/
inductive Fault where
  | emptySegment
  | unclosedBracket
  | badIndex
  | unexpected (rest : String)
deriving DecidableEq

/-- The wording of a fault in `path`. -/
def Fault.message (path : String) : Fault → String
  | emptySegment => "Invalid path: empty segment in '" ++ path ++ "'"
  | unclosedBracket => "Invalid path: unclosed '[' in '" ++ path ++ "'"
  | badIndex => "Invalid path: bad index in '" ++ path ++ "'"
  | unexpected rest => "Invalid path: unexpected '" ++ rest ++ "' in '" ++ path ++ "'"

/-- Positions are below this bound. -/
def indexBound : Nat := 1 <<< 64

/-- The groups in brackets that make up the rest of a segment. -/
def readGroups (s : List Char) : Except Fault (List Step) :=
  match s with
  | [] => .ok []
  | '[' :: s' =>
    match h : Text.splitOnce ']' s' with
    | none => .error .unclosedBracket
    | some (inside, after) =>
      match Decimal.readNat indexBound inside with
      | none => .error .badIndex
      | some i =>
        have := Text.length_after_splitOnce h
        match readGroups after with
        | .ok steps => .ok (.index i :: steps)
        | .error fault => .error fault
  | s' => .error (.unexpected (String.ofList s'))
termination_by s.length
decreasing_by simp; omega

/-- The steps of a segment: a name, groups in brackets, or both. -/
def readSegment (s : List Char) : Except Fault (List Step) :=
  if s.isEmpty then .error .emptySegment
  else
    let name := s.takeWhile (· != '[')
    match readGroups (s.dropWhile (· != '[')) with
    | .ok steps => .ok (if name.isEmpty then steps else .key (String.ofList name) :: steps)
    | .error fault => .error fault

/-- The steps that a text denotes. -/
def parse (path : String) : Except Fault (List Step) :=
  if path == "" then .ok []
  else do return (← (path.toList.splitOn '.').mapM readSegment).flatten

/-- The text of the steps walked so far with one more. -/
def extend (walked : List Char) : Step → List Char
  | .key name => (if walked.isEmpty then walked else walked ++ ['.']) ++ name.toList
  | .index i => walked ++ '[' :: Decimal.digits i ++ [']']

/-- The text of a list of steps. -/
def render (steps : List Step) : List Char := steps.foldl extend []

/-- Why a path leads nowhere. -/
inductive Reason where
  | notAnObject
  | keyNotFound
  | indexOutOfBounds
deriving DecidableEq

/-- The wording of a reason. -/
def Reason.message : Reason → String
  | notAnObject => "Not an object"
  | keyNotFound => "Key not found"
  | indexOutOfBounds => "Index out of bounds"

/-- A reason and the text of the shortest beginning of the path that leads nowhere. -/
structure DeadEnd where
  reason : Reason
  walked : List Char
deriving DecidableEq

/-- The wording of a dead end. -/
def DeadEnd.message (d : DeadEnd) : String :=
  d.reason.message ++ " at '" ++ String.ofList d.walked ++ "'"

end Path

namespace Heap

/-- What one step from a value leads to. -/
def step (heap : Heap) (v : Value) (s : Path.Step) : Except Path.Reason Value :=
  match v, s with
  | .object h, .key name => ((heap.get h).get? name).elim (.error .keyNotFound) .ok
  | .object h, .index i => ((heap.get h).valueAt? i).elim (.error .indexOutOfBounds) .ok
  | _, _ => .error .notAnObject

/-- What some more steps lead to from a value at the end of the text `walked`. -/
def followFrom (heap : Heap) (walked : List Char) (v : Value) :
    List Path.Step → Except Path.DeadEnd Value
  | [] => .ok v
  | s :: steps =>
    let walked := Path.extend walked s
    match heap.step v s with
    | .error reason => .error ⟨reason, walked⟩
    | .ok w => heap.followFrom walked w steps

/-- What a path leads to. -/
def follow (heap : Heap) (root : Value) (steps : List Path.Step) : Except Path.DeadEnd Value :=
  heap.followFrom [] root steps

/-- The report on following a path given as text. -/
def pathReport (heap : Heap) (root : Value) (path : String) : Value × Heap :=
  match Path.parse path with
  | .error fault => heap.report false .nil (fault.message path)
  | .ok steps =>
    match heap.follow root steps with
    | .error deadEnd => heap.report false .nil deadEnd.message
    | .ok v => heap.report true v ""

end Heap

end ScriptHost
