import ScriptHost.Double.Nearest
import ScriptHost.Heap

/-!
# Equalities

Three ways for values to be equal: the strict one keeps the types apart and tells objects by
identity; the loose one lets numbers and booleans meet as numbers; the deep one compares objects
member by member.

## Main definitions

* `Value.strictEq`, `Value.looseEq` : equality of two values.
* `Heap.deepEq?` : equality of what two values lead to, undecided where that never ends.
-/

namespace ScriptHost

namespace Value

/-- Equality within one type; objects are equal only to themselves. -/
def strictEq : Value → Value → Bool
  | nil, nil => true
  | number m, number n => m.same n
  | boolean a, boolean b => a == b
  | string s, string t => s == t
  | object g, object h => g == h
  | _, _ => false

/-- The number that a number or a boolean stands for. -/
def asQuantity? : Value → Option Double
  | number n => some n
  | boolean true => some 1
  | boolean false => some 0
  | _ => none

/-- Strict equality, save that booleans count as the numbers one and zero. -/
def looseEq (a b : Value) : Bool :=
  match a.asQuantity?, b.asQuantity? with
  | some m, some n => m.same n
  | none, none => a.strictEq b
  | _, _ => false

end Value

namespace Heap

/-- Members compared in order by `same`, stopping at the first answer that is not yes. -/
def allSame (same : Value → Value → Option Bool) :
    List (String × Value) → List (String × Value) → Option Bool
  | (k, v) :: ms, (l, w) :: ns =>
    if k = l then
      match same v w with
      | some true => allSame same ms ns
      | answer => answer
    else some false
  | _, _ => some true

/-- Deep equality down to `depth` levels; undecided if they do not suffice. -/
def deepEqWithin (heap : Heap) : (depth : Nat) → Value → Value → Option Bool
  | 0, .object g, .object h => if g = h then some true else none
  | depth + 1, .object g, .object h =>
    if g = h then some true
    else
      let x := heap.get g
      let y := heap.get h
      if x.size = y.size ∧ x.isArray = y.isArray then
        allSame (heap.deepEqWithin depth) x.members y.members
      else some false
  | _, a, b => some (a.strictEq b)

/-- Deep equality.  A comparison that meets one pair of objects inside itself never ends, and no
other goes deeper than there are pairs of objects. -/
def deepEq? (heap : Heap) (a b : Value) : Option Bool :=
  heap.deepEqWithin (heap.size * heap.size + 1) a b

end Heap

end ScriptHost
