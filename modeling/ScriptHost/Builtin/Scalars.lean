import ScriptHost.Builtin.Arguments
import ScriptHost.Decimal.Literal
import ScriptHost.Json.Printer
import ScriptHost.Text.Blank

/-!
# Printing, strings and numbers

The builtins that work on scalars alone.
-/

namespace ScriptHost.Builtin

/-- Writes each argument with a space after it. -/
def print (args : List Value) : Action Value := do
  let heap := (← get).heap
  Action.print (String.join (args.map fun v ↦ heap.display v ++ " "))
  return .nil

/-- Writes the arguments on one line with spaces between them. -/
def printLine (args : List Value) : Action Value := do
  let heap := (← get).heap
  Action.print (" ".intercalate (args.map heap.display) ++ "\n")
  return .nil

/-- How many bytes a string has, how many members an object; zero for all else. -/
def lengthOf (heap : Heap) : Value → Nat
  | .string s => s.utf8ByteSize
  | .object h => (heap.get h).size
  | _ => 0

/-- The length of a value, which must be given. -/
def len (args : List Value) : Action Value := do
  expect "len" args 1
  let v ← argument args 0
  Action.inspect fun heap ↦ .number (.ofNat (lengthOf heap v))

/-- Changes the characters of a string and leaves any other value as it is. -/
def mapCharacters (f : Char → Char) : Value → Value
  | .string s => .string (String.ofList (s.toList.map f))
  | v => v

/-- A string with its ASCII letters in upper case. -/
def upper (args : List Value) : Action Value := do
  expect "upper" args 1
  return mapCharacters Char.toUpper (← argument args 0)

/-- A string with its ASCII letters in lower case. -/
def lower (args : List Value) : Action Value := do
  expect "lower" args 1
  return mapCharacters Char.toLower (← argument args 0)

/-- One string after another. -/
def concat (args : List Value) : Action Value := do
  expect "concat" args 2
  let a ← toText (← argument args 0)
  let b ← toText (← argument args 1)
  return .string (a ++ b)

/-- The number that a string denotes, white space around it aside; nil if it denotes none. -/
def textToNumber (args : List Value) : Action Value := do
  expect "str_to_num" args 1
  match ← argument args 0 with
  | .string s => return ((Decimal.readDouble (Text.trim s.toList)).map Value.number).getD .nil
  | .number n => return .number n
  | _ => return .nil

/-- The default text of a number. -/
def numberToText (args : List Value) : Action Value := do
  expect "num_to_str" args 1
  return .string (String.ofList (← toNumber (← argument args 0)).text)

/-- A number without its sign. -/
def absolute (args : List Value) : Action Value := do
  expect "abs" args 1
  return .number (← toNumber (← argument args 0)).abs

/-- A number computed from two. -/
def ofTwo (name : String) (f : Double → Double → Double) (args : List Value) : Action Value := do
  expect name args 2
  let v ← argument args 0
  let w ← argument args 1
  let a ← toNumber v
  let b ← toNumber w
  return .number (f a b)

/-- The larger of two numbers. -/
def larger : List Value → Action Value := ofTwo "max" Double.max

/-- The smaller of two numbers. -/
def smaller : List Value → Action Value := ofTwo "min" Double.min

/-- Whether the first argument is nil. -/
def isNil (args : List Value) : Action Value := return .boolean (arg args 0 == .nil)

/-- Whether the first argument is a string. -/
def isString (args : List Value) : Action Value :=
  return .boolean (arg args 0).asString?.isSome

/-- Whether the first argument is an object. -/
def isObject (args : List Value) : Action Value :=
  return .boolean (arg args 0).asObject?.isSome

end ScriptHost.Builtin
