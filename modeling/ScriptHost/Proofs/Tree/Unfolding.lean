import Mathlib.Data.List.Nodup
import Mathlib.Data.List.Perm.Subperm
import Mathlib.Tactic.Common
import ScriptHost.Proofs.Json.Numerals
import ScriptHost.Proofs.Object.Positions
import ScriptHost.Tree

/-!
# What the text of a value shows

The text of a value shows a tree: an object that is already open on the way down is left out, and so
is a number that has no numeral; every other number is the one that its numeral is read as.  The
relation that says so has no bound on its depth.  It is shown to hold of the tree to which a value
is unfolded, for any heap: on the way down every object is another one, so that the room of the
unfolding, one more than there are objects, is never used up.

## Main definitions

* `Tree.nesting` : how many containers enclose the value of a tree that lies deepest.
* `Tree.HasDistinctNames` : no node has two members of one name.
* `Tree.reread` : a tree after its scalars were written and read.
* `Heap.ShownAs` : the tree that the text of a value shows.

## Main results

* `Heap.shownAs_unfold`, `Heap.ShownAs.unique` : a value is shown as one tree.
-/

namespace ScriptHost

/-! ### Trees -/

namespace Tree

mutual

/-- How many containers enclose the value that lies deepest. -/
def nesting : Tree → Nat
  | .node _ members => if members.isEmpty then 0 else deepest members + 1
  | _ => 0

/-- How many containers below their own enclose the value of members that lies deepest. -/
def deepest : List (String × Tree) → Nat
  | [] => 0
  | (_, t) :: ms => max t.nesting (deepest ms)

end

mutual

/-- No node has two members of one name. -/
def HasDistinctNames : Tree → Prop
  | .node _ members => (Members.keys members).Nodup ∧ MembersHaveDistinctNames members
  | _ => True

/-- No node below these members has two members of one name. -/
def MembersHaveDistinctNames : List (String × Tree) → Prop
  | [] => True
  | (_, t) :: ms => t.HasDistinctNames ∧ MembersHaveDistinctNames ms

end

mutual

/-- A tree after its scalars were written and read: a number is the one that its numeral is read as
and nil if it has none, and a node is what its members count as. -/
def reread : Tree → Tree
  | .nil => .nil
  | .number n => if n.isFinite then .number ((Decimal.readDouble n.text).getD n) else .nil
  | .boolean b => .boolean b
  | .string s => .string s
  | .node shape members =>
    .node (if countsAsArray shape members then .array else .map) (rereadMembers members)

/-- Members after their scalars were written and read. -/
def rereadMembers : List (String × Tree) → List (String × Tree)
  | [] => []
  | (name, t) :: ms => (name, t.reread) :: rereadMembers ms

end

theorem rereadMembers_eq_map (ms : List (String × Tree)) :
    rereadMembers ms = ms.map fun m ↦ (m.1, m.2.reread) := by
  induction ms with
  | nil => rfl
  | cons m ms ih => exact congrArg (_ :: ·) ih

theorem keys_rereadMembers (ms : List (String × Tree)) :
    Members.keys (rereadMembers ms) = Members.keys ms := by
  rw [rereadMembers_eq_map, Members.keys_map]

theorem deepest_le_iff {ms : List (String × Tree)} {d : Nat} :
    deepest ms ≤ d ↔ ∀ m ∈ ms, m.2.nesting ≤ d := by
  induction ms with
  | nil => simp [deepest]
  | cons m ms ih => simp only [deepest, Nat.max_le, ih, List.forall_mem_cons]

theorem membersHaveDistinctNames_iff {ms : List (String × Tree)} :
    MembersHaveDistinctNames ms ↔ ∀ m ∈ ms, m.2.HasDistinctNames := by
  induction ms with
  | nil => simp [MembersHaveDistinctNames]
  | cons m ms ih => simp only [MembersHaveDistinctNames, ih, List.forall_mem_cons]

end Tree

/-- Whether members count as an array depends on their names alone. -/
theorem Tree.countsAsArray_eq_isArray {α : Type} {o : Object α} {ms : List (String × Tree)}
    (h : Members.keys ms = Members.keys o.members) : countsAsArray o.shape ms = o.isArray := by
  have hempty : ms.isEmpty = o.members.isEmpty := by
    rw [← List.isEmpty_map (f := Prod.fst) (l := ms), ← List.isEmpty_map (f := Prod.fst)]
    exact congrArg List.isEmpty h
  rw [countsAsArray, Object.isArray, Object.isDense, hempty, Members.isDense_congr h]

theorem Tree.countsAsArray_map {α : Type} (o : Object α) (f : α → Tree) :
    countsAsArray o.shape (o.members.map fun m ↦ (m.1, f m.2)) = o.isArray :=
  countsAsArray_eq_isArray (Members.keys_map f o.members)

namespace Heap

mutual

/-- The tree that the text of a value shows below the objects that are `opened`. -/
inductive ShownAs (heap : Heap) : List Handle → Value → Tree → Prop
  | nil {opened : List Handle} : ShownAs heap opened .nil .nil
  | numeral {opened : List Handle} {n x : Double} (hn : n.isFinite = true)
      (hx : Decimal.readDouble n.text = some x) : ShownAs heap opened (.number n) (.number x)
  | noNumeral {opened : List Handle} {n : Double} (hn : n.isFinite = false) :
      ShownAs heap opened (.number n) .nil
  | boolean {opened : List Handle} {b : Bool} : ShownAs heap opened (.boolean b) (.boolean b)
  | string {opened : List Handle} {s : String} : ShownAs heap opened (.string s) (.string s)
  | revisited {opened : List Handle} {h : Handle} (hh : h ∈ opened) :
      ShownAs heap opened (.object h) .nil
  | object {opened : List Handle} {h : Handle} {ms : List (String × Tree)} (hh : h ∉ opened)
      (hms : MembersShownAs heap (h :: opened) (heap.get h).members ms) :
      ShownAs heap opened (.object h) (.node (if (heap.get h).isArray then .array else .map) ms)

/-- The trees that the texts of members show, under the same names in the same order. -/
inductive MembersShownAs (heap : Heap) :
    List Handle → List (String × Value) → List (String × Tree) → Prop
  | nil {opened : List Handle} : MembersShownAs heap opened [] []
  | cons {opened : List Handle} {name : String} {v : Value} {t : Tree}
      {ms : List (String × Value)} {ts : List (String × Tree)} (h : ShownAs heap opened v t)
      (hms : MembersShownAs heap opened ms ts) :
      MembersShownAs heap opened ((name, v) :: ms) ((name, t) :: ts)

end

variable {heap : Heap}

mutual

/-- A value is shown as one tree. -/
theorem ShownAs.unique {opened : List Handle} {v : Value} {t u : Tree} :
    ShownAs heap opened v t → ShownAs heap opened v u → t = u
  | .nil, .nil => rfl
  | .numeral _ hx, .numeral _ hy => congrArg Tree.number (Option.some.inj (hx.symm.trans hy))
  | .numeral hn _, .noNumeral hn' => absurd (hn.symm.trans hn') Bool.noConfusion
  | .noNumeral hn', .numeral hn _ => absurd (hn.symm.trans hn') Bool.noConfusion
  | .noNumeral _, .noNumeral _ => rfl
  | .boolean, .boolean => rfl
  | .string, .string => rfl
  | .revisited _, .revisited _ => rfl
  | .revisited hh, .object hh' _ => absurd hh hh'
  | .object hh' _, .revisited hh => absurd hh hh'
  | .object _ hms, .object _ hns => congrArg (Tree.node _) (hms.unique hns)

/-- Members are shown as the same trees. -/
theorem MembersShownAs.unique {opened : List Handle} {ms : List (String × Value)}
    {ts us : List (String × Tree)} :
    MembersShownAs heap opened ms ts → MembersShownAs heap opened ms us → ts = us
  | .nil, .nil => rfl
  | .cons h hms, .cons h' hms' => by rw [h.unique h', hms.unique hms']

end

/-- Members are unfolded to what each of them is shown as. -/
theorem membersShownAs_rereadMembers {opened : List Handle} {f : Value → Tree}
    (ms : List (String × Value)) (hf : ∀ v, ShownAs heap opened v (f v).reread) :
    MembersShownAs heap opened ms (Tree.rereadMembers (ms.map fun m ↦ (m.1, f m.2))) := by
  induction ms with
  | nil => exact .nil
  | cons m ms ih => exact .cons (hf m.2) ih

theorem shownAs_number (opened : List Handle) (n : Double) :
    ShownAs heap opened (.number n) (Tree.number n).reread := by
  rw [Tree.reread]
  split_ifs with hn
  · obtain ⟨x, hx⟩ := Double.exists_numberText_text hn
    have hread := hx.readDouble_eq
    rw [hread]
    exact .numeral hn hread
  · exact .noNumeral (Bool.eq_false_iff.2 hn)

/-- An object that is not open is unfolded to its node, below which it is. -/
theorem unfoldBelow_of_notMem {h : Handle} {opened : List Handle} (hh : h ∉ opened) (room : Nat) :
    heap.unfoldBelow (room + 1) opened (.object h) =
      .node (heap.get h).shape
        ((heap.get h).members.map fun m ↦ (m.1, heap.unfoldBelow room (h :: opened) m.2)) := by
  rw [unfoldBelow, if_neg hh]

/-- Objects that are open at one time are different ones of the heap. -/
structure OpenedWithin (heap : Heap) (opened : List Handle) : Prop where
  nodup : opened.Nodup
  index_lt : ∀ h ∈ opened, h.index < heap.size

namespace OpenedWithin

theorem nil : OpenedWithin heap [] := ⟨List.nodup_nil, List.forall_mem_nil _⟩

theorem cons {opened : List Handle} {h : Handle} (ho : OpenedWithin heap opened)
    (hh : h ∉ opened) (hindex : h.index < heap.size) : OpenedWithin heap (h :: opened) :=
  ⟨List.nodup_cons.2 ⟨hh, ho.nodup⟩, List.forall_mem_cons.2 ⟨hindex, ho.index_lt⟩⟩

/-- No more objects are open than there are. -/
theorem length_le {opened : List Handle} (ho : OpenedWithin heap opened) :
    opened.length ≤ heap.size := by
  have hinj : Function.Injective Handle.index := by
    rintro ⟨i⟩ ⟨j⟩ rfl
    rfl
  have hnodup : (opened.map Handle.index).Nodup := ho.nodup.map hinj
  have hsubset : opened.map Handle.index ⊆ List.range heap.size := by
    intro i hi
    obtain ⟨h, hh, rfl⟩ := List.mem_map.1 hi
    exact List.mem_range.2 (ho.index_lt h hh)
  have hle := (List.subperm_of_subset hnodup hsubset).length_le
  rwa [List.length_map, List.length_range] at hle

end OpenedWithin

/-- The unfolding with room for the objects that are not yet open. -/
theorem shownAs_unfoldBelow (room : Nat) : ∀ {opened : List Handle}, OpenedWithin heap opened →
    room + opened.length = heap.size + 1 →
      ∀ v, ShownAs heap opened v (heap.unfoldBelow room opened v).reread := by
  induction room with
  | zero =>
    intro opened ho hroom
    have hle := ho.length_le
    omega
  | succ room ih =>
    intro opened ho hroom v
    cases v with
    | nil => exact .nil
    | number n => exact shownAs_number opened n
    | boolean b => exact .boolean
    | string s => exact .string
    | object h =>
      rw [unfoldBelow]
      split_ifs with hh
      · exact .revisited hh
      · dsimp only
        rw [Tree.reread, Tree.countsAsArray_map]
        refine .object hh ?_
        by_cases hindex : h.index < heap.size
        · refine membersShownAs_rereadMembers _ (ih (ho.cons hh hindex) ?_)
          rw [List.length_cons]
          omega
        -- A handle to no object shows an object without members.
        · have hget : heap.get h = default := by
            rw [get, Array.getElem?_eq_none (Nat.le_of_not_lt hindex), Option.getD_none]
          rw [hget]
          exact .nil

/-- A value is shown as what its unfolding is reread as. -/
theorem shownAs_unfold (heap : Heap) (v : Value) : ShownAs heap [] v (heap.unfold v).reread :=
  shownAs_unfoldBelow (heap.size + 1) .nil rfl v

/-- The members of an object have distinct names, and so have those of its unfolding. -/
theorem hasDistinctNames_unfoldBelow (room : Nat) (opened : List Handle) (v : Value) :
    (heap.unfoldBelow room opened v).HasDistinctNames := by
  induction room generalizing opened v with
  | zero => cases v <;> exact True.intro
  | succ room ih =>
    cases v with
    | object h =>
      rw [unfoldBelow]
      split_ifs
      · exact True.intro
      · refine ⟨?_, Tree.membersHaveDistinctNames_iff.2 fun m hm ↦ ?_⟩
        · rw [Members.keys_map]
          exact (heap.get h).nodup
        · obtain ⟨n, -, rfl⟩ := List.mem_map.1 hm
          exact ih _ _
    | _ => exact True.intro

theorem hasDistinctNames_unfold (heap : Heap) (v : Value) : (heap.unfold v).HasDistinctNames :=
  hasDistinctNames_unfoldBelow _ _ _

end Heap

end ScriptHost
