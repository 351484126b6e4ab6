import ScriptHost.Heap

/-!
# Trees

A value without sharing.  Unfolding a value of a heap copies out what it leads to, where an object
that is already open on the way down becomes nil; realizing a tree makes one object for each of its
nodes.

## Main definitions

* `Tree` : nil, scalars, and nodes with a shape and named members.
* `Heap.unfold` : the tree of a value.
* `Heap.realize` : a value with this tree.
-/

namespace ScriptHost

/-- A value without sharing. -/
inductive Tree where
  | nil
  | number (n : Double)
  | boolean (b : Bool)
  | string (s : String)
  | node (shape : Shape) (members : List (String × Tree))

namespace Tree

instance : Inhabited Tree := ⟨nil⟩

/-- The array of these trees. -/
def array (items : List Tree) : Tree := .node .array (Members.ofValues items)

/-- The map with these members, a repeated name keeping its first place and its last tree. -/
def map (members : List (String × Tree)) : Tree :=
  .node .map (Gathering.ofMembers members).members

/-- The members of a map are what writing them one after another gives. -/
theorem map_eq (members : List (String × Tree)) :
    map members = .node .map (members.foldl (fun ms m ↦ Members.put m.1 m.2 ms) []) :=
  congrArg (Tree.node .map) (Gathering.holds_empty.putAll members).members_eq

/-- Whether members of this shape count as an array. -/
def countsAsArray (shape : Shape) (members : List (String × Tree)) : Bool :=
  if members.isEmpty then shape == .array else Members.isDense members

end Tree

namespace Heap

/-- The tree of a value below the objects that are `opened`.  Each object on the way down is another
one of the heap, so `room`, the number of objects not yet open, bounds the depth. -/
def unfoldBelow (heap : Heap) : (room : Nat) → (opened : List Handle) → Value → Tree
  | _, _, .nil => .nil
  | _, _, .number n => .number n
  | _, _, .boolean b => .boolean b
  | _, _, .string s => .string s
  | 0, _, .object _ => .nil
  | room + 1, opened, .object h =>
    if h ∈ opened then .nil
    else
      let o := heap.get h
      .node o.shape (o.members.map fun m ↦ (m.1, heap.unfoldBelow room (h :: opened) m.2))

/-- The tree of a value. -/
def unfold (heap : Heap) (v : Value) : Tree := heap.unfoldBelow (heap.size + 1) [] v

mutual

/-- A value with this tree, and the heap with the objects made for it. -/
def realize (heap : Heap) : Tree → Value × Heap
  | .nil => (.nil, heap)
  | .number n => (.number n, heap)
  | .boolean b => (.boolean b, heap)
  | .string s => (.string s, heap)
  | .node shape members =>
    let (ms, heap) := heap.realizeMembers members
    let (h, heap) := heap.alloc ((Object.empty shape).setAll ms)
    (.object h, heap)

/-- Members with these trees. -/
def realizeMembers (heap : Heap) : List (String × Tree) → List (String × Value) × Heap
  | [] => ([], heap)
  | (name, t) :: members =>
    let (v, heap) := heap.realize t
    let (ms, heap) := heap.realizeMembers members
    ((name, v) :: ms, heap)

end

end Heap

end ScriptHost
