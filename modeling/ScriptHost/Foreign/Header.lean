import ScriptHost.Callbacks
import ScriptHost.Double.Nearest
import ScriptHost.Text.Utf8

/-!
# Headers

The form in which values pass to foreign code and back: a tag, a number, and a pointer to a string
that ends in a zero byte or to an object.

## Main definitions

* `Foreign.Header` : a header.
* `Foreign.Header.ofValue` : the header of a value; strings are copied into tracked memory.
* `Foreign.Header.toValue` : the value of a header.
-/

namespace ScriptHost.Foreign

/-- The pointer in a header. -/
inductive Payload where
  | null
  | string (a : Address)
  | object (h : Handle)
deriving DecidableEq

/-- A value as foreign code sees it. -/
structure Header where
  tag : Double
  num : Double
  payload : Payload
deriving DecidableEq

/-- The tags. -/
inductive Tag where
  | nil
  | number
  | boolean
  | string
  | object
deriving DecidableEq

/-- The number of a tag. -/
def Tag.code : Tag → Double
  | nil => 0
  | number => 1
  | boolean => 2
  | string => 3
  | object => 4

/-- The text at an address, up to its zero byte. -/
def textAt (memory : Memory) (a : Address) : String :=
  String.ofList (Text.Utf8.decode (memory.cString a))

namespace Header

/-- The header of nil. -/
def nil : Header := ⟨Tag.nil.code, 0, .null⟩

instance : Inhabited Header := ⟨nil⟩

/-- The header of a boolean. -/
def ofBoolean (b : Bool) : Header := ⟨Tag.boolean.code, if b then 1 else 0, .null⟩

/-- The header of a value.  A string that finds no memory becomes nil. -/
def ofValue : Value → Action Header
  | .nil => return nil
  | .number n => return ⟨Tag.number.code, n, .null⟩
  | .boolean b => return ofBoolean b
  | .string s =>
    modifyGet fun w ↦
      match w.memory.dup w.allocator (Text.Utf8.encode s.toList) with
      | (some a, memory) => (⟨Tag.string.code, 0, .string a⟩, { w with memory })
      | (none, memory) => (nil, { w with memory })
  | .object h => return ⟨Tag.object.code, 0, .object h⟩

/-- The value of a header.  Unknown tags and missing pointers are read as nil. -/
def toValue (memory : Memory) (r : Header) : Value :=
  if r.tag.same Tag.number.code then .number r.num
  else if r.tag.same Tag.boolean.code then .boolean (!r.num.isZero)
  else match r.payload with
    | .string a => if r.tag.same Tag.string.code then .string (textAt memory a) else .nil
    | .object h => if r.tag.same Tag.object.code then .object h else .nil
    | .null => .nil

/-- The value behind a pointer to a header; the null pointer is read as nil. -/
def read (r : Option Header) : Action Value := do
  let memory := (← get).memory.memory
  return (r.map (toValue memory)).getD .nil

/-- The values behind some pointers. -/
def readAll (rs : List (Option Header)) : Action (List Value) := rs.mapM read

end Header

end ScriptHost.Foreign
