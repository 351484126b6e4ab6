import ScriptHost.Proofs.Tree.DeepEquality

/-!
# The texts of deeply equal values

Deep equality looks neither at the sharing of objects nor, where they have members, at how they were
made.  Nor do the texts of a value without cycles: they are written from its tree, in which a node
shows its members, and shows its shape only through whether they count as an array.  So values that
are deeply equal have the same texts, unless a negative zero meets the zero: the two are equal, but
not written alike.

## Main definitions

* `Json.WrittenAlike` : trees with the same text in every layout.

## Main results

* `Heap.IsAcyclic.writtenAlike_unfold` : the trees of deeply equal values.
* `Heap.texts_eq_of_deepEq?` : the texts and the type names of deeply equal values.
-/

namespace ScriptHost

namespace Json

/-- Trees that are written alike, in every layout and at every depth. -/
def WrittenAlike (t u : Tree) : Prop :=
  ∀ (layout : Layout) (depth : Nat) (rest : List Char),
    writeAt layout depth t rest = writeAt layout depth u rest

variable {ms ns : List (String × Tree)}

/-- Members are written alike if their names are the same and their trees are written alike. -/
theorem writeMembers_eq_of_agree (hagree : Members.Agree WrittenAlike ms ns) (layout : Layout)
    (depth : Nat) (array comma : Bool) (rest : List Char) :
    writeMembers layout depth array comma ms rest =
      writeMembers layout depth array comma ns rest := by
  induction hagree generalizing comma with
  | nil => rfl
  | @cons m n ms ns h _ ih =>
    obtain ⟨k, t⟩ := m
    obtain ⟨l, u⟩ := n
    obtain ⟨rfl, htree⟩ := h
    rw [writeMembers, writeMembers, ih, htree]

/-- Nodes are written alike if their members are, and count as arrays in both or in neither. -/
theorem WrittenAlike.node {shape shape' : Shape}
    (harray : Tree.countsAsArray shape ms = Tree.countsAsArray shape' ns)
    (hagree : Members.Agree WrittenAlike ms ns) :
    WrittenAlike (.node shape ms) (.node shape' ns) := by
  intro layout depth rest
  have hmembers := writeMembers_eq_of_agree hagree
  cases hagree with
  | nil => rw [writeAt, writeAt, harray]
  | cons => rw [writeAt, writeAt, harray, hmembers]

end Json

namespace Heap

variable {heap : Heap} {a b : Value}

namespace IsAcyclic

/-- Values that are deeply equal are one value, or objects with deeply equal members that count as
arrays alike, unless one of them is the negative zero. -/
theorem eq_or_object_of_deepEq? (hacyclic : heap.IsAcyclic) (hab : heap.deepEq? a b = some true)
    (ha : ¬heap.ReachesNumber (.finite true .zero) a)
    (hb : ¬heap.ReachesNumber (.finite true .zero) b) :
    a = b ∨ ∃ g h, a = .object g ∧ b = .object h ∧
      (heap.get g).isArray = (heap.get h).isArray ∧
        Members.Agree (fun v w ↦ heap.deepEq? v w = some true)
          (heap.get g).members (heap.get h).members :=
  (hacyclic.deepEq?_eq_true_iff.1 hab).imp_left fun hstrict ↦
    Value.eq_of_strictEq hstrict (mt .inl ha) (mt .inl hb)

/-- The trees of deeply equal values are written alike. -/
theorem writtenAlike_unfold (hacyclic : heap.IsAcyclic) (a : Value) :
    ∀ b, heap.deepEq? a b = some true → ¬heap.ReachesNumber (.finite true .zero) a →
      ¬heap.ReachesNumber (.finite true .zero) b →
        Json.WrittenAlike (heap.unfold a) (heap.unfold b) := by
  induction a using hacyclic.induction with
  | step a ih =>
    intro b hab ha hb
    rcases hacyclic.eq_or_object_of_deepEq? hab ha hb with rfl | ⟨g, h, rfl, rfl, harray, hagree⟩
    · exact fun _ _ _ ↦ rfl
    · rw [hacyclic.unfold_object, hacyclic.unfold_object]
      refine .node ?_ (Members.Agree.map_iff.2 (hagree.imp fun m hm n hn hmn ↦ ?_))
      · rw [Tree.countsAsArray_map, Tree.countsAsArray_map, harray]
      · exact ih g rfl m hm n.2 hmn (mt (.member hm) ha) (mt (.member hn) hb)

end IsAcyclic

/-- Deeply equal values have the same texts and type names. -/
theorem texts_eq_of_deepEq? (hacyclic : heap.IsAcyclic) (hab : heap.deepEq? a b = some true)
    (ha : ¬heap.ReachesNumber (.finite true .zero) a)
    (hb : ¬heap.ReachesNumber (.finite true .zero) b) :
    Json.compact heap a = Json.compact heap b ∧ Json.pretty heap a = Json.pretty heap b ∧
      heap.typeName a = heap.typeName b := by
  have htext (layout : Json.Layout) : Json.write layout (heap.unfold a) [] =
      Json.write layout (heap.unfold b) [] :=
    hacyclic.writtenAlike_unfold a b hab ha hb layout 0 []
  refine ⟨congrArg String.ofList (htext _), congrArg String.ofList (htext _), ?_⟩
  rcases hacyclic.eq_or_object_of_deepEq? hab ha hb with rfl | ⟨g, h, rfl, rfl, harray, -⟩
  · rfl
  · rw [typeName, typeName, harray]

/-- Sharing an array and copying it make no difference for the text. -/
theorem texts_eq_of_deepEq?_sharedAndCopied :
    sharedAndCopied.IsAcyclic ∧
      sharedAndCopied.deepEq? (.object ⟨2⟩) (.object ⟨3⟩) = some true ∧
      ¬sharedAndCopied.ReachesNumber (.finite true .zero) (.object ⟨2⟩) ∧
      ¬sharedAndCopied.ReachesNumber (.finite true .zero) (.object ⟨3⟩) ∧
      Json.compact sharedAndCopied (.object ⟨2⟩) = Json.compact sharedAndCopied (.object ⟨3⟩) ∧
      Json.pretty sharedAndCopied (.object ⟨2⟩) = Json.pretty sharedAndCopied (.object ⟨3⟩) ∧
      sharedAndCopied.typeName (.object ⟨2⟩) = sharedAndCopied.typeName (.object ⟨3⟩) := by
  have heq : sharedAndCopied.deepEq? (.object ⟨2⟩) (.object ⟨3⟩) = some true := by
    decide +kernel
  have hzero (h : Handle) : ¬sharedAndCopied.ReachesNumber (.finite true .zero) (.object h) :=
    not_reachesNumber Value.noConfusion (by decide +kernel)
  exact ⟨isAcyclic_sharedAndCopied, heq, hzero _, hzero _,
    texts_eq_of_deepEq? isAcyclic_sharedAndCopied heq (hzero _) (hzero _)⟩

end Heap

end ScriptHost
