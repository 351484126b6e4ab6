import ScriptHost.Proofs.Json.Members
import ScriptHost.Proofs.Tree.Unfolding

/-!
# The trees of documents

A text denotes a tree in which no node has two members of one name.  The tree goes no deeper than
the text, and less deep where a member that was written again went deeper.

## Main results

* `Json.DocumentText.nesting_le`, `Json.DocumentText.hasDistinctNames` : the tree of a document.
-/

namespace ScriptHost

namespace Json

/-- No tree goes deeper than this, and none has a node with two members of one name. -/
structure Bounded (d : Nat) (ts : List Tree) : Prop where
  nesting_le : ∀ t ∈ ts, t.nesting ≤ d
  names : ∀ t ∈ ts, t.HasDistinctNames

namespace Bounded

variable {d e : Nat} {t : Tree} {ts us : List Tree}

theorem scalar (hnesting : t.nesting = 0) (hnames : t.HasDistinctNames) : Bounded 0 [t] :=
  ⟨fun _ hu ↦ List.mem_singleton.1 hu ▸ Nat.le_of_eq hnesting,
    fun _ hu ↦ List.mem_singleton.1 hu ▸ hnames⟩

theorem cons (h : Bounded d [t]) (hts : Bounded e ts) : Bounded (max d e) (t :: ts) := by
  refine ⟨List.forall_mem_cons.2 ⟨?_, fun u hu ↦ ?_⟩, List.forall_mem_cons.2 ⟨?_, hts.names⟩⟩
  · exact Nat.le_trans (h.nesting_le t (List.mem_singleton_self t)) (Nat.le_max_left d e)
  · exact Nat.le_trans (hts.nesting_le u hu) (Nat.le_max_right d e)
  · exact h.names t (List.mem_singleton_self t)

theorem subset (h : Bounded d ts) (hus : us ⊆ ts) : Bounded d us :=
  ⟨fun u hu ↦ h.nesting_le u (hus hu), fun u hu ↦ h.names u (hus hu)⟩

/-- A node goes one deeper than its members. -/
theorem node {ms : List (String × Tree)} (h : Bounded d (ms.map Prod.snd))
    (hnodup : (Members.keys ms).Nodup) (shape : Shape) : Bounded (d + 1) [.node shape ms] := by
  have hdeepest : Tree.deepest ms ≤ d := Tree.deepest_le_iff.2 fun m hm ↦
    h.nesting_le _ (List.mem_map_of_mem hm)
  refine ⟨fun u hu ↦ ?_, fun u hu ↦ ?_⟩
  · rw [List.mem_singleton.1 hu, Tree.nesting]
    split_ifs
    · exact Nat.zero_le _
    · exact Nat.succ_le_succ hdeepest
  · rw [List.mem_singleton.1 hu]
    exact ⟨hnodup, Tree.membersHaveDistinctNames_iff.2 fun m hm ↦
      h.names _ (List.mem_map_of_mem hm)⟩

theorem array (h : Bounded d ts) : Bounded (d + 1) [.node .array (Members.ofValues ts)] :=
  node ((Members.map_snd_ofValues ts).symm ▸ h) (Members.nodup_keys_ofValues ts) .array

end Bounded

mutual

/-- The tree of a value. -/
theorem ValueText.bounded {d : Nat} {s : List Char} {t : Tree} : ValueText d s t → Bounded d [t]
  | .nullWord => .scalar rfl trivial
  | .trueWord => .scalar rfl trivial
  | .falseWord => .scalar rfl trivial
  | .number _ => .scalar rfl trivial
  | .string _ => .scalar rfl trivial
  | .emptyArray _ => .scalar rfl ⟨List.nodup_nil, trivial⟩
  | .array h => h.bounded.array
  | .emptyObject _ => .scalar rfl ⟨List.nodup_nil, trivial⟩
  | .object h hkept =>
    (h.bounded.subset (List.map_subset Prod.snd hkept.subset)).node hkept.nodup .map

/-- The trees of elements. -/
theorem ElementsText.bounded {d : Nat} {s : List Char} {ts : List Tree} :
    ElementsText d s ts → Bounded d ts
  | .last _ h _ => h.bounded
  | .cons _ h _ hr => h.bounded.cons hr.bounded

/-- The trees of members. -/
theorem MembersText.bounded {d : Nat} {s : List Char} {ms : List (String × Tree)} :
    MembersText d s ms → Bounded d (ms.map Prod.snd)
  | .last _ _ _ _ h _ => h.bounded
  | .cons _ _ _ _ h _ hr => h.bounded.cons hr.bounded

end

variable {d : Nat} {s : List Char} {t : Tree}

/-- The tree of a document goes no deeper than the document. -/
theorem DocumentText.nesting_le (h : DocumentText d s t) : t.nesting ≤ d := by
  obtain ⟨-, hvalue, -⟩ := h
  exact hvalue.bounded.nesting_le t (List.mem_singleton_self t)

/-- No node in the tree of a document has two members of one name. -/
theorem DocumentText.hasDistinctNames (h : DocumentText d s t) : t.HasDistinctNames := by
  obtain ⟨-, hvalue, -⟩ := h
  exact hvalue.bounded.names t (List.mem_singleton_self t)

end Json

end ScriptHost
