import ScriptHost.Builtin.Scalars
import ScriptHost.Path

/-!
# JSON and objects

The builtins that read and write JSON, and those that look into objects and write their members.
-/

namespace ScriptHost.Builtin

/-- The value of a JSON document, nil if the text is none. -/
def jsonParse (args : List Value) : Action Value := do
  expect "json_parse" args 1
  let text ← toText (← argument args 0)
  Action.onHeap (·.parseOrNil text)

/-- The report on reading a JSON document. -/
def jsonParseReport (args : List Value) : Action Value := do
  expect "json_parse_ex" args 1
  let text ← toText (← argument args 0)
  Action.onHeap (·.parseReport text)

/-- The JSON text of a value on one line. -/
def jsonCompact (args : List Value) : Action Value :=
  Action.inspect fun heap ↦ .string (Json.compact heap (arg args 0))

/-- The indented JSON text of a value. -/
def jsonPretty (args : List Value) : Action Value :=
  Action.inspect fun heap ↦ .string (Json.pretty heap (arg args 0))

/-- The member with a name, nil if there is none; `builtin` names the operation in messages. -/
def member (builtin : String) (args : List Value) : Action Value := do
  expect builtin args 2
  let v ← argument args 0
  let name ← toText (← argument args 1)
  Action.inspect fun heap ↦ heap.member v name

/-- Whether there is a member with a name. -/
def jsonHas (args : List Value) : Action Value := do
  match arg args 1 with
  | .string name =>
    match arg args 0 with
    | .object h => Action.inspect fun heap ↦ .boolean ((heap.get h).contains name)
    | _ => return .boolean false
  | _ => rejected "json_has"

/-- The length of a value, zero if none is given. -/
def jsonLen (args : List Value) : Action Value :=
  Action.inspect fun heap ↦ .number (.ofNat (lengthOf heap (arg args 0)))

/-- The member at a position, whatever its name; nil if there is none. -/
def jsonIndex (args : List Value) : Action Value := do
  expect "json_index" args 2
  let v ← argument args 0
  let i ← toIndex (← argument args 1)
  Action.inspect fun heap ↦ heap.element v i

/-- Writes a member of an object; false if it is given no object or no name. -/
def setMember (args : List Value) : Action Value :=
  match arg args 0, arg args 1 with
  | .object h, .string name =>
    Action.onHeap fun heap ↦
      (.boolean true, heap.write h ((heap.get h).set name (arg args 2)))
  | _, _ => return .boolean false

/-- A new object without members. -/
def newObject (_ : List Value) : Action Value := Action.make (.empty .map)

/-- A new array without elements. -/
def newArray (_ : List Value) : Action Value := Action.make (.empty .array)

/-- The name of a value's type. -/
def typeOf (args : List Value) : Action Value :=
  Action.inspect fun heap ↦ .string (heap.typeName (arg args 0))

/-- How many members an object has; zero for all else. -/
def arrayLen (args : List Value) : Action Value :=
  Action.inspect fun heap ↦
    .number (.ofNat (((arg args 0).asObject?.map fun h ↦ (heap.get h).size).getD 0))

/-- Replaces an element of an array, which does not grow. -/
def arraySet (args : List Value) : Action Value :=
  match arg args 0, index? (arg args 1) with
  | .object h, some i =>
    Action.onHeap fun heap ↦
      match (heap.get h).replaceAt i (arg args 2) with
      | some o => (.boolean true, heap.write h o)
      | none => (.boolean false, heap)
  | _, _ => rejected "sjson_arr_set"

/-- Adds an element to an array. -/
def arrayPush (args : List Value) : Action Value :=
  match arg args 0 with
  | .object h =>
    Action.onHeap fun heap ↦ (.boolean true, heap.write h ((heap.get h).push (arg args 1)))
  | _ => rejected "sjson_arr_push"

/-- The report on following a path. -/
def pathGet (args : List Value) : Action Value := do
  expect "sjson_path_get" args 2
  let v ← argument args 0
  let path ← toText (← argument args 1)
  Action.onHeap (·.pathReport v path)

/-- A new object with given names, all nil.  The names are the strings in one object or the
arguments themselves, which must then be strings. -/
def allocObject (args : List Value) : Action Value := do
  let names ← match args with
    | [.object h] =>
      Action.inspect fun heap ↦ (heap.get h).members.filterMap fun m ↦ m.2.asString?
    | _ => args.mapM toText
  Action.make (.ofKeys names .nil)

end ScriptHost.Builtin
