import ScriptHost.Proofs.Tree.Reaching
import ScriptHost.Proofs.Tree.Refolding

/-!
# Heaps without cycles

In a heap without cycles no object is led to by one of its own members.  Unfolding an object then
leaves nothing out: its tree is the node with the trees of its members.  What holds of a value once
it holds of the members that the value has, holds of all values, since the trees of the members go
less deep.

## Main definitions

* `Heap.IsAcyclic` : no object is led to by its members.
* `Heap.ReachesNumber` : a value leads to a number.
* `Heap.sharedAndCopied` : a heap in which an array is shared, and copied.

## Main results

* `Heap.isAcyclic_of_index_lt` : objects that were made after what they hold.
* `Heap.IsAcyclic.unfold_object` : the tree of an object.
* `Heap.IsAcyclic.induction` : induction on values.
* `Heap.nesting_unfold_le` : a tree goes no deeper than there are objects.
-/

namespace ScriptHost.Heap

/-- No object is led to by one of its own members. -/
def IsAcyclic (heap : Heap) : Prop :=
  ∀ h : Handle, ∀ m ∈ (heap.get h).members, ¬heap.Reaches h m.2

/-- A value leads to a number: it is this number, or leads to an object with this number as a
member. -/
def ReachesNumber (heap : Heap) (n : Double) (v : Value) : Prop :=
  v = .number n ∨ ∃ h, heap.Reaches h v ∧ ∃ m ∈ (heap.get h).members, m.2 = .number n

variable {heap : Heap} {h : Handle} {v : Value} {m : String × Value}

theorem ReachesNumber.member {n : Double} (hm : m ∈ (heap.get h).members)
    (hn : heap.ReachesNumber n m.2) : heap.ReachesNumber n (.object h) := by
  rcases hn with hn | ⟨g, hg, hn⟩
  · exact .inr ⟨h, .self, m, hm, hn⟩
  · exact .inr ⟨g, .member hm hg, hn⟩

/-- Only an object of the heap has members. -/
theorem index_lt_of_mem (hm : m ∈ (heap.get h).members) : h.index < heap.size := by
  by_contra hindex
  rw [get, Array.getElem?_eq_none (Nat.le_of_not_lt hindex), Option.getD_none] at hm
  exact List.not_mem_nil hm

/-- A value does not lead to a number that is no member of an object. -/
theorem not_reachesNumber {n : Double} (hv : v ≠ .number n)
    (hall : ∀ i < heap.size, ∀ m ∈ (heap.get ⟨i⟩).members, m.2 ≠ .number n) :
    ¬heap.ReachesNumber n v := by
  rintro (heq | ⟨h, -, m, hm, heq⟩)
  · exact hv heq
  · exact hall h.index (index_lt_of_mem hm) m hm heq

/-- What a value leads to has no larger index than the value, if members have a smaller one than
their object. -/
theorem Reaches.index_le {target : Handle}
    (horder : ∀ i < heap.size, ∀ m ∈ (heap.get ⟨i⟩).members, ∀ g ∈ m.2.asObject?, g.index < i)
    (hv : heap.Reaches target v) : ∀ h ∈ v.asObject?, target.index ≤ h.index := by
  induction hv with
  | self => exact fun h hh ↦ Nat.le_of_eq (congrArg Handle.index (Option.some.inj hh))
  | @member g m hm hreach ih =>
    rintro h hh
    obtain rfl := Option.some.inj hh
    cases hvalue : m.2 with
    | object k =>
      have hk : k ∈ m.2.asObject? := congrArg Value.asObject? hvalue
      exact Nat.le_trans (ih k hk) (Nat.le_of_lt (horder g.index (index_lt_of_mem hm) m hm k hk))
    | _ =>
      rw [hvalue] at hreach
      cases hreach

/-- A heap has no cycles if every object was made after those that are its members. -/
theorem isAcyclic_of_index_lt
    (horder : ∀ i < heap.size, ∀ m ∈ (heap.get ⟨i⟩).members, ∀ g ∈ m.2.asObject?, g.index < i) :
    heap.IsAcyclic := by
  intro h m hm hreach
  cases hvalue : m.2 with
  | object g =>
    have hg : g ∈ m.2.asObject? := congrArg Value.asObject? hvalue
    have hle := hreach.index_le horder g hg
    exact Nat.not_le_of_lt (horder h.index (index_lt_of_mem hm) m hm g hg) hle
  | _ =>
    rw [hvalue] at hreach
    cases hreach

/-- A map that holds one array twice, and a map that holds it beside a copy that was made as a
map. -/
def sharedAndCopied : Heap :=
  ⟨#[⟨.array, [("0", .number 1), ("1", .string "a")], by decide⟩,
    ⟨.map, [("0", .number 1), ("1", .string "a")], by decide⟩,
    ⟨.map, [("x", .object ⟨0⟩), ("y", .object ⟨0⟩)], by decide⟩,
    ⟨.map, [("x", .object ⟨0⟩), ("y", .object ⟨1⟩)], by decide⟩]⟩

theorem isAcyclic_sharedAndCopied : sharedAndCopied.IsAcyclic :=
  isAcyclic_of_index_lt (by decide +kernel)

/-! ### Room -/

/-- More room than there are objects makes no difference. -/
theorem unfoldBelow_succ (room : Nat) : ∀ {opened : List Handle}, OpenedWithin heap opened →
    heap.size < room + opened.length →
      ∀ v, heap.unfoldBelow (room + 1) opened v = heap.unfoldBelow room opened v := by
  induction room with
  | zero =>
    intro opened ho hroom
    have hle := ho.length_le
    omega
  | succ room ih =>
    intro opened ho hroom v
    cases v with
    | object h =>
      by_cases hh : h ∈ opened
      · rw [unfoldBelow, unfoldBelow, if_pos hh, if_pos hh]
      · rw [unfoldBelow_of_notMem hh, unfoldBelow_of_notMem hh]
        refine congrArg _ (List.map_congr_left fun m hm ↦ congrArg (m.1, ·) ?_)
        refine ih (ho.cons hh (index_lt_of_mem hm)) ?_ m.2
        rw [List.length_cons]
        omega
    | _ => rfl

/-- Below the objects that are open a tree goes no deeper than there are further objects. -/
theorem nesting_unfoldBelow_le (room : Nat) : ∀ {opened : List Handle}, OpenedWithin heap opened →
    ∀ v, (heap.unfoldBelow room opened v).nesting + opened.length ≤ heap.size := by
  induction room with
  | zero =>
    intro opened ho v
    cases v <;> exact (Nat.zero_add _).trans_le ho.length_le
  | succ room ih =>
    intro opened ho v
    cases v with
    | object h =>
      rw [unfoldBelow]
      split_ifs with hh
      · exact (Nat.zero_add _).trans_le ho.length_le
      dsimp only
      cases hmembers : (heap.get h).members with
      | nil => exact (Nat.zero_add _).trans_le ho.length_le
      | cons m ms =>
        have hopened := ho.cons hh (index_lt_of_mem (hmembers ▸ List.mem_cons_self))
        have hle : opened.length + 1 ≤ heap.size := hopened.length_le
        have hdeepest : Tree.deepest ((m :: ms).map fun m ↦
            (m.1, heap.unfoldBelow room (h :: opened) m.2)) ≤ heap.size - (opened.length + 1) := by
          refine Tree.deepest_le_iff.2 fun t ht ↦ ?_
          obtain ⟨n, -, rfl⟩ := List.mem_map.1 ht
          exact Nat.le_sub_of_add_le (ih hopened n.2)
        have hnode := Nat.add_le_of_le_sub hle hdeepest
        rwa [Nat.add_comm _ 1, ← Nat.add_assoc] at hnode
    | _ => exact (Nat.zero_add _).trans_le ho.length_le

/-- A value is unfolded to a tree that goes no deeper than there are objects. -/
theorem nesting_unfold_le (heap : Heap) (v : Value) : (heap.unfold v).nesting ≤ heap.size :=
  nesting_unfoldBelow_le _ .nil v

/-! ### Without cycles -/

namespace IsAcyclic

/-- Objects to which a value does not lead do not matter for its unfolding. -/
theorem unfoldBelow_congr (hacyclic : heap.IsAcyclic) (room : Nat) :
    ∀ {opened opened' : List Handle} {v : Value}, (∀ h ∈ opened, ¬heap.Reaches h v) →
      (∀ h ∈ opened', ¬heap.Reaches h v) →
        heap.unfoldBelow room opened v = heap.unfoldBelow room opened' v := by
  induction room with
  | zero =>
    intro opened opened' v _ _
    cases v <;> rfl
  | succ room ih =>
    intro opened opened' v hopened hopened'
    cases v with
    | object h =>
      have hbelow {others : List Handle} (hothers : ∀ g ∈ others, ¬heap.Reaches g (.object h))
          {m : String × Value} (hm : m ∈ (heap.get h).members) :
          ∀ g ∈ h :: others, ¬heap.Reaches g m.2 :=
        List.forall_mem_cons.2
          ⟨hacyclic h m hm, fun g hg hreach ↦ hothers g hg (.member hm hreach)⟩
      rw [unfoldBelow_of_notMem fun hh ↦ hopened h hh .self,
        unfoldBelow_of_notMem fun hh ↦ hopened' h hh .self]
      exact congrArg _ (List.map_congr_left fun m hm ↦
        congrArg (m.1, ·) (ih (hbelow hopened hm) (hbelow hopened' hm)))
    | _ => rfl

/-- The tree of an object has the trees of its members, and leaves nothing out. -/
theorem unfold_object (hacyclic : heap.IsAcyclic) (h : Handle) :
    heap.unfold (.object h) =
      .node (heap.get h).shape ((heap.get h).members.map fun m ↦ (m.1, heap.unfold m.2)) := by
  rw [unfold, unfoldBelow_of_notMem List.not_mem_nil]
  refine congrArg _ (List.map_congr_left fun m hm ↦ congrArg (m.1, ·) ?_)
  have hopened : OpenedWithin heap [h] :=
    OpenedWithin.nil.cons List.not_mem_nil (index_lt_of_mem hm)
  rw [← unfoldBelow_succ _ hopened (by rw [List.length_singleton]; omega), unfold]
  exact hacyclic.unfoldBelow_congr _ (List.forall_mem_singleton.2 (hacyclic h m hm))
    (List.forall_mem_nil _)

/-- The tree of a member goes less deep than that of its object. -/
theorem nesting_member_lt (hacyclic : heap.IsAcyclic) (hm : m ∈ (heap.get h).members) :
    (heap.unfold m.2).nesting < (heap.unfold (.object h)).nesting := by
  have hmem : (m.1, heap.unfold m.2) ∈ (heap.get h).members.map fun m ↦ (m.1, heap.unfold m.2) :=
    List.mem_map_of_mem hm
  rw [hacyclic.unfold_object]
  exact Tree.nesting_lt_node hmem _

/-- What holds of a value if it holds of the members that the value has, holds of all values. -/
theorem induction (hacyclic : heap.IsAcyclic) {motive : Value → Prop}
    (step : ∀ v, (∀ h, v = .object h → ∀ m ∈ (heap.get h).members, motive m.2) → motive v)
    (v : Value) : motive v := by
  induction hnesting : (heap.unfold v).nesting using Nat.strong_induction_on generalizing v with
  | _ depth ih =>
    refine step v ?_
    rintro h rfl m hm
    exact ih _ (hnesting ▸ hacyclic.nesting_member_lt hm) m.2 rfl

end IsAcyclic

end ScriptHost.Heap
