import ScriptHost.Builtin.Arguments
import ScriptHost.Double.Nearest
import ScriptHost.Http.Reading
import ScriptHost.Text.Hex
import ScriptHost.Text.Utf8

/-!
# Environment, time, randomness and secrets
-/

namespace ScriptHost.Builtin

/-- The path of the current directory, nil if it has been removed. -/
def currentDirectory (_ : List Value) : Action Value := do
  return ((← get).files.currentPath?.map Value.string).getD .nil

/-- The name of the operating system. -/
def platform (_ : List Value) : Action Value := return .string "linux"

/-- The name of the processor's architecture. -/
def architecture (_ : List Value) : Action Value := return .string "x86_64"

/-- The value of a variable of the environment, nil if it is not set. -/
def getVariable (args : List Value) : Action Value := do
  expect "os_getenv" args 1
  let name ← toText (← argument args 0)
  return (((← get).setting? name).map Value.string).getD .nil

/-- Whether a variable may have this name and this value. -/
def isVariable (name value : String) : Bool :=
  !name.isEmpty && name.toList.all (fun c ↦ c != '=' && c != '\x00') &&
    value.toList.all (· != '\x00')

/-- Sets a variable of the environment. -/
def setVariable (args : List Value) : Action Value :=
  match arg args 0, arg args 1 with
  | .string name, .string value =>
    if isVariable name value then do
      Action.setVariable name value
      return .boolean true
    else return .boolean false
  | _, _ => rejected "os_setenv"

/-- How many random bytes are given when no number is asked for. -/
def standardTokenBytes : Nat := 16

/-- How many random bytes are given at most. -/
def maxTokenBytes : Nat := 4096

/-- Random bytes in a buffer of their own, in hexadecimal in another.  A buffer that cannot be had
is a panic. -/
def randomText (n : Nat) : Action (List Char) := do
  if Http.maxBufferBytes < n then Action.panic
  match (← get).entropy.take n with
  | none => Action.fail "random source: entropy unavailable"
  | some (bytes, entropy) =>
    modify fun w ↦ { w with entropy }
    if Http.maxBufferBytes < n * 2 then Action.panic
    return Text.Hex.encode bytes

/-- Random bytes in hexadecimal. -/
def randomHex (args : List Value) : Action Value := do
  let n ← match arg args 0 with
    | .nil => pure standardTokenBytes
    | v => (min · maxTokenBytes) <$> toIndex v
  return .string (String.ofList (← randomText n))

/-- Seconds since the epoch. -/
def time (_ : List Value) : Action Value := do return .number (.ofInt (← get).clock)

/-- How many seconds a pause must stay below. -/
def pauseBound : Nat := 1 <<< 64

/-- Pauses for some milliseconds.  Numbers that are not above zero, and those that are not finite,
make no pause; a pause too long for the system's clock is a panic. -/
def sleep (args : List Value) : Action Value := do
  expect "sleep" args 1
  let ms ← toNumber (← argument args 0)
  match ms with
  | .finite false x =>
    let seconds := Double.ofRatio false x.units (Magnitude.unitsPerOne * 1000)
    if seconds.floor?.any (· < pauseBound) then return .nil else Action.panic
  | _ => return .nil

/-- The bits set in `d` or in the difference of two bytes at one position.  The shorter string
counts as followed by zeros, from which a byte differs in just the bits that it has. -/
def gatherDifferences (d : UInt8) : List UInt8 → List UInt8 → UInt8
  | a :: as, b :: bs => gatherDifferences (d ||| (a ^^^ b)) as bs
  | as, [] => as.foldl (· ||| ·) d
  | [], bs => bs.foldl (· ||| ·) d

/-- Whether two byte strings are equal, by a computation that takes the same steps for all of the
same lengths: the differences of all bytes are gathered in one. -/
def sameBytes (a b : List UInt8) : Bool :=
  gatherDifferences (if a.length = b.length then 0 else 1) a b == 0

/-- Whether two secrets are equal. -/
def sameSecret (args : List Value) : Action Value :=
  match arg args 0, arg args 1 with
  | .string a, .string b =>
    return .boolean (sameBytes (Text.Utf8.encode a.toList) (Text.Utf8.encode b.toList))
  | _, _ => rejected "auth_const_time_eq"

end ScriptHost.Builtin
