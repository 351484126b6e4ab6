import ScriptHost.Double
import ScriptHost.Object

/-!
# Values and the heap

A value is nil, a scalar, or a handle to an object on the heap.  Copies of a handle name one object,
so a write through one of them is seen through all.

## Main definitions

* `Value` : the values of the language.
* `Heap` : the objects in the order of their making, `Heap.alloc` making one more.
* `Heap.member`, `Heap.element` : looking into a value, nil where there is nothing.
* `Heap.typeName` : the name of a value's type.
-/

namespace ScriptHost

/-- Names one object of a heap. -/
structure Handle where
  index : Nat
deriving DecidableEq

/-- A value of the language. -/
inductive Value where
  | nil
  | number (n : Double)
  | boolean (b : Bool)
  | string (s : String)
  | object (h : Handle)
deriving DecidableEq

namespace Value

instance : Inhabited Value := ⟨nil⟩

/-- Nil, zero, false and the empty string count as false. -/
def isTruthy : Value → Bool
  | nil => false
  | number n => !n.isZero
  | boolean b => b
  | string s => s != ""
  | object _ => true

/-- The number in a value. -/
def asNumber? : Value → Option Double
  | number n => some n
  | _ => none

/-- The truth value in a value. -/
def asBoolean? : Value → Option Bool
  | boolean b => some b
  | _ => none

/-- The string in a value. -/
def asString? : Value → Option String
  | string s => some s
  | _ => none

/-- The handle in a value. -/
def asObject? : Value → Option Handle
  | object h => some h
  | _ => none

end Value

/-- The objects in the order of their making. -/
structure Heap where
  cells : Array (Object Value)

namespace Heap

/-- The heap without objects. -/
def empty : Heap := ⟨#[]⟩

instance : Inhabited Heap := ⟨empty⟩

/-- How many objects there are. -/
def size (heap : Heap) : Nat := heap.cells.size

/-- The object that a handle names. -/
def get (heap : Heap) (h : Handle) : Object Value := heap.cells[h.index]?.getD default

/-- Makes an object. -/
def alloc (heap : Heap) (o : Object Value) : Handle × Heap :=
  (⟨heap.cells.size⟩, ⟨heap.cells.push o⟩)

/-- Replaces the object that a handle names. -/
def write (heap : Heap) (h : Handle) (o : Object Value) : Heap :=
  ⟨heap.cells.setIfInBounds h.index o⟩

/-- A new object is found under the handle it was given. -/
theorem get_alloc_self (heap : Heap) (o : Object Value) :
    (heap.alloc o).2.get (heap.alloc o).1 = o := by
  simp [alloc, get]

/-- Making an object leaves those before it as they are. -/
theorem get_alloc_of_lt {heap : Heap} {h : Handle} {o : Object Value} (hh : h.index < heap.size) :
    (heap.alloc o).2.get h = heap.get h := by
  have hne : h.index ≠ heap.cells.size := Nat.ne_of_lt hh
  simp [alloc, get, Array.getElem?_push, hne]

theorem get_write_self {heap : Heap} {h : Handle} {o : Object Value} (hh : h.index < heap.size) :
    (heap.write h o).get h = o := by
  simp only [size] at hh
  simp [write, get, hh]

/-- Writing an object leaves the others as they are. -/
theorem get_write_of_ne {heap : Heap} {g h : Handle} {o : Object Value} (hgh : g ≠ h) :
    (heap.write h o).get g = heap.get g := by
  have hne : h.index ≠ g.index := fun heq ↦ hgh (by cases g; cases h; exact congrArg _ heq.symm)
  simp [write, get, Array.getElem?_setIfInBounds_ne hne]

/-- The member of a value with this name; nil if it has none. -/
def member (heap : Heap) (v : Value) (name : String) : Value :=
  match v with
  | .object h => ((heap.get h).get? name).getD .nil
  | _ => .nil

/-- The member of a value at this position; nil if it has none. -/
def element (heap : Heap) (v : Value) (i : Nat) : Value :=
  match v with
  | .object h => ((heap.get h).valueAt? i).getD .nil
  | _ => .nil

/-- The name of a value's type.  An object that counts as an array is called one. -/
def typeName (heap : Heap) : Value → String
  | .nil => "nil"
  | .number _ => "number"
  | .boolean _ => "boolean"
  | .string _ => "string"
  | .object h => if (heap.get h).isArray then "array" else "object"

end Heap

end ScriptHost
