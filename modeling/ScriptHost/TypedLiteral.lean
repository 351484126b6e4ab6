import ScriptHost.Text.Base64
import ScriptHost.Decimal.Literal
import ScriptHost.Tree

/-!
# Typed literals

Values that JSON has no form for are kept as small objects with reserved names: one member named
after the type, or the name of the type and the payload as two members.

## Main definitions

* `TypedLiteral` : the types and their payloads.
* `TypedLiteral.toTree`, `TypedLiteral.ofValue?` : the object of a literal, and back.
* `TypedLiteral.integer` : an integer as a number where that loses nothing, else as a literal.
-/

namespace ScriptHost

/-- A value of a type that JSON has no form for, by its payload. -/
inductive TypedLiteral where
  | int64 (digits : String)
  | date (text : String)
  | decimal (text : String)
  | binary (base64 : String)
  | enumeration (name : String)
  | other (type payload : String)
deriving DecidableEq

namespace TypedLiteral

/-- The literal that a tag and a payload denote. -/
def ofTag (tag payload : String) : TypedLiteral :=
  match tag with
  | "i64" => int64 payload
  | "date" => date payload
  | "dec" => decimal payload
  | "bin" => binary payload
  | "enum" => enumeration payload
  | _ => other tag payload

/-- The reserved members of a literal. -/
def members : TypedLiteral → List (String × String)
  | int64 s => [("$i64", s)]
  | date s => [("$date", s)]
  | decimal s => [("$dec", s)]
  | binary s => [("$bin", s)]
  | enumeration s => [("$enum", s)]
  | other type payload => [("$type", type), ("value", payload)]

/-- The object of a literal. -/
def toTree (l : TypedLiteral) : Tree := .map (l.members.map fun m ↦ (m.1, .string m.2))

/-- The literal whose only member has this name. -/
def ofMember? (name payload : String) : Option TypedLiteral :=
  match name with
  | "$i64" => some (int64 payload)
  | "$date" => some (date payload)
  | "$dec" => some (decimal payload)
  | "$bin" => some (binary payload)
  | "$enum" => some (enumeration payload)
  | _ => none

/-- The literal of an object with exactly the reserved members, in any order. -/
def ofObject? (o : Object Value) : Option TypedLiteral :=
  match o.members with
  | [(name, .string payload)] => ofMember? name payload
  | [_, _] =>
    match o.get? "$type", o.get? "value" with
    | some (.string type), some (.string payload) => some (other type payload)
    | _, _ => none
  | _ => none

/-- The literal that a value stands for, if it stands for one. -/
def ofValue? (heap : Heap) : Value → Option TypedLiteral
  | .object h => ofObject? (heap.get h)
  | _ => none

/-- The largest magnitude below which every integer is a double. -/
def maxSafeInteger : Nat := 1 <<< 53 - 1

/-- An integer as a number where that loses nothing, else as a literal. -/
def integer (i : Int) : Tree :=
  if i.natAbs ≤ maxSafeInteger then .number (.ofInt i) else (int64 (toString i)).toTree

/-- The literal of some bytes. -/
def ofBytes (bytes : List UInt8) : TypedLiteral := binary (String.ofList (Text.Base64.encode bytes))

/-- The bytes of a binary literal whose payload is well-formed. -/
def bytes? : TypedLiteral → Option (List UInt8)
  | binary s => Text.Base64.decode? s.toList
  | _ => none

/-- The integer of an integer literal whose payload is one of 64 bits. -/
def int64? : TypedLiteral → Option Int
  | int64 s => Decimal.readInt (1 <<< 63) s.toList
  | _ => none

end TypedLiteral

end ScriptHost
