import ScriptHost.Http.Reading

/-!
# Taking requests apart by positions

The parser of `ScriptHost.Http.Request` as it goes over a buffer, with the positions that it
computes.  A piece of the bytes is taken between two positions, which have to be in order and within
the bytes; positions are added as machine words.  A piece that cannot be taken, a byte that is not
there and a sum that is no position are panics, which stand as no answer here.

## Main definitions

* `Http.Buffer` : the bytes that a buffer may hold.
* `Http.Offsets.slice?`, `Http.Offsets.add?` : the pieces that can be taken, the sums that exist.
* `Http.Offsets.parse` : the request in a buffer.
-/

namespace ScriptHost.Http

/-- The bytes in a buffer, of which there are never more than a buffer may have. -/
structure Buffer where
  bytes : List UInt8
  length_le : bytes.length ≤ maxBufferBytes

/-- The sum of two lengths, or the greatest length if the sum is beyond all lengths. -/
def saturatingAdd (i j : Nat) : Nat := min (i + j) (lengthBound - 1)

namespace Offsets

/-- The sum of two positions, where it is one. -/
def add? (i j : Nat) : Option Nat := if i + j < lengthBound then some (i + j) else none

/-- The bytes between two positions, where they can be taken. -/
def slice? (bytes : List UInt8) (i j : Nat) : Option (List UInt8) :=
  if i ≤ j ∧ j ≤ bytes.length then some (bytes.extract i j) else none

/-- The first line without its line end. -/
def firstLine? (bytes : List UInt8) : Option (List UInt8) := do
  let line ← slice? bytes 0 (bytes.findIdx (· == lineFeed))
  return if line.getLast? = some carriageReturn then line.dropLast else line

/-- The bytes of a method's name. -/
def nameBytes (m : Method) : List UInt8 := Text.Utf8.encode m.name.toList

/-- Whether a line begins with the name of a method and a space.  The byte behind the name is looked
at only in a longer line. -/
def hasMethod? (bytes : List UInt8) (m : Method) : Option Bool :=
  let name := nameBytes m
  if name.length < bytes.length ∧ name.isPrefixOf bytes then bytes[name.length]?.map (· == space)
  else some false

/-- The first of some methods that a line begins with. -/
def findMethod? (line : List UInt8) : List Method → Option (Option Method)
  | [] => some none
  | m :: ms =>
    match hasMethod? line m with
    | none => none
    | some true => some (some m)
    | some false => findMethod? line ms

/-- What stands behind the method on a line up to a space, if there is one and something before
it. -/
def target? (line : List UInt8) (m : Method) : Option (Option (List UInt8)) := do
  let start ← add? (nameBytes m).length 1
  let rest ← slice? line start line.length
  match rest.findIdx? (· == space) with
  | none => return none
  | some 0 => return none
  | some stop =>
    let target ← slice? rest 0 stop
    return some target

/-- The headers between the first line and the end of the header block. -/
def headers? (bytes : List UInt8) : Option (List (String × String)) :=
  let lineStop := bytes.findIdx (· == lineFeed)
  let headStop := (headerEnd? bytes).getD bytes.length
  if lineStop < headStop then do
    let start ← add? lineStop 1
    let head ← slice? bytes start headStop
    return readHeaders (Text.Utf8.decode head)
  else some []

/-- The body behind the header block. -/
def body? (bytes : List UInt8) (headers : List (String × String)) : Option String :=
  match headerEnd? bytes, contentLengthIn? headers with
  | some headStop, some length => do
    let start ← add? headStop 4
    let stop := min (saturatingAdd start length) bytes.length
    if start < stop then
      let body ← slice? bytes start stop
      return textOf body
    else return ""
  | _, _ => some ""

/-- The request in a buffer. -/
def parse (bytes : List UInt8) : Option (Except RequestFault Request) :=
  if bytes.isEmpty then some (.error .empty)
  else do
    let line ← firstLine? bytes
    match ← findMethod? line Method.all with
    | none => return .error .unsupportedMethod
    | some method =>
      match ← target? line method with
      | none => return .error .malformedRequestLine
      | some target =>
        let target := Text.Utf8.decode target
        let (path, query) := (Text.splitOnce '?' target).getD (target, [])
        let headers ← headers? bytes
        let body ← body? bytes headers
        return .ok {
          method
          target := String.ofList target
          path := String.ofList path
          query := String.ofList query
          headers
          body }

end Offsets

end ScriptHost.Http
