import ScriptHost.Proofs.Json.Recognition
import ScriptHost.Proofs.Json.Writing
import ScriptHost.Proofs.Tree.Realization

/-!
# Writing and reading back

Either text of a value is read back as the tree that the value is shown as, whatever is shared in
the heap or goes round in it, unless that tree goes deeper than the reader allows.

## Main definitions

* `Json.ReadsBack` : a text is read back as a tree, up to the bound on the nesting.

## Main results

* `Heap.exists_readsBack` : the two texts of a value.
-/

namespace ScriptHost

namespace Json

/-- The text is read back as the tree, or refused for its nesting if the tree goes too deep. -/
def ReadsBack (text : String) (t : Tree) : Prop :=
  if t.nesting ≤ 512 then ∃ u, parse text = .ok u ∧ u = t ∧ u.DeepEq t
  else ∃ f, parse text = .error f ∧ f.fault.message = "Nesting too deep"

/-- A text of the grammar without white space around it is read back. -/
theorem ValueText.readsBack {k : List Char} {t : Tree} (h : ValueText t.nesting k t)
    (ht : t.DeepEq t) : ReadsBack (String.ofList k) t := by
  have hdocument : DocumentText t.nesting (String.ofList k).toList t := by
    have hintro := DocumentText.intro isBlank_nil h isBlank_nil
    rwa [List.nil_append, List.append_nil, ← String.toList_ofList (l := k)] at hintro
  unfold ReadsBack
  split_ifs with hd
  · exact ⟨t, hdocument.parse_eq_ok hd, rfl, ht⟩
  · obtain ⟨f, hparse, hfault⟩ := hdocument.parse_eq_error (Nat.lt_of_not_le hd)
    exact ⟨f, hparse, by rw [hfault]; rfl⟩

/-- The text of a value in any layout. -/
theorem readsBack_write (layout : Layout) (heap : Heap) (v : Value) :
    ReadsBack (String.ofList (write layout (heap.unfold v) [])) (heap.unfold v).reread := by
  have hnames := heap.hasDistinctNames_unfold v
  have hwritten : IsWritten layout (heap.unfold v) := isWritten _ hnames
  obtain ⟨k, hk, hwrite⟩ := hwritten 0
  rw [write, hwrite, List.append_nil]
  exact hk.readsBack (Tree.deepEq_self hnames.reread (Tree.hasNoNan_reread _))

end Json

/-- Every value is shown as one tree, as which both its texts are read back. -/
theorem Heap.exists_readsBack (heap : Heap) (v : Value) :
    ∃ t, heap.ShownAs [] v t ∧ (∀ u, heap.ShownAs [] v u → u = t) ∧
      Json.ReadsBack (Json.compact heap v) t ∧ Json.ReadsBack (Json.pretty heap v) t := by
  have hshown := heap.shownAs_unfold v
  exact ⟨_, hshown, fun u hu ↦ hu.unique hshown, Json.readsBack_write .compact heap v,
    Json.readsBack_write (.indented 2) heap v⟩

end ScriptHost
