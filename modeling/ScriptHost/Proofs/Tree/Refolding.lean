import ScriptHost.Proofs.Tree.Realization

/-!
# Unfolding what was realized

A value leads to one tree at most.  On the way down the trees get less deep, so that an object is
never met below itself; the unfolding then has nothing to leave out, and gives the tree that the
value leads to.  A realized tree is unfolded to itself, whatever the heap held before.

## Main results

* `Heap.LeadsTo.unique` : a value leads to one tree.
* `Heap.unfold_realize` : a realized tree is unfolded to itself.
-/

namespace ScriptHost

/-- A member goes less deep than its node. -/
theorem Tree.nesting_lt_node {m : String × Tree} {ms : List (String × Tree)} (hm : m ∈ ms)
    (shape : Shape) : m.2.nesting < (Tree.node shape ms).nesting := by
  have hempty : ms.isEmpty = false := List.isEmpty_eq_false_iff.2 (List.ne_nil_of_mem hm)
  rw [nesting, hempty]
  exact Nat.lt_succ_of_le (deepest_le_iff.1 (Nat.le_refl _) m hm)

namespace Heap

variable {heap : Heap}

mutual

/-- A value leads to one tree. -/
theorem LeadsTo.unique {v : Value} {t u : Tree} : LeadsTo heap v t → LeadsTo heap v u → t = u
  | .nil, .nil => rfl
  | .number, .number => rfl
  | .boolean, .boolean => rfl
  | .string, .string => rfl
  | .node _ hshape hms, .node _ hshape' hns => by rw [← hshape, ← hshape', hms.unique hns]

/-- Members lead to the same trees. -/
theorem MembersLeadTo.unique {ms : List (String × Value)} {ts us : List (String × Tree)} :
    MembersLeadTo heap ms ts → MembersLeadTo heap ms us → ts = us
  | .nil, .nil => rfl
  | .cons h hms, .cons h' hns => by rw [h.unique h', hms.unique hns]

end

/-- Members are unfolded to the trees to which they lead, if each of them is. -/
theorem MembersLeadTo.map_eq {ms : List (String × Value)} {ts : List (String × Tree)}
    (h : MembersLeadTo heap ms ts) {f : Value → Tree}
    (hf : ∀ v, ∀ m ∈ ts, LeadsTo heap v m.2 → f v = m.2) :
    ms.map (fun m ↦ (m.1, f m.2)) = ts := by
  induction ms generalizing ts with
  | nil =>
    cases h
    rfl
  | cons m ms ih =>
    cases h with
    | cons h hms =>
      rw [List.map_cons, hf _ _ List.mem_cons_self h,
        ih hms fun v n hn ↦ hf v n (List.mem_cons_of_mem _ hn)]

/-- The unfolding of a value that leads to a tree, below objects that lead to deeper trees. -/
theorem LeadsTo.unfoldBelow_eq (room : Nat) : ∀ {opened : List Handle} {v : Value} {t : Tree},
    LeadsTo heap v t → t.nesting < room →
      (∀ h ∈ opened, ∃ u, LeadsTo heap (.object h) u ∧ t.nesting < u.nesting) →
        heap.unfoldBelow room opened v = t := by
  induction room with
  | zero => exact fun _ hroom ↦ absurd hroom (Nat.not_lt_zero _)
  | succ room ih =>
    intro opened v t hv hroom hopened
    cases hv with
    | nil => rfl
    | number => rfl
    | boolean => rfl
    | string => rfl
    | @node h shape ms hh hshape hms =>
      have hv := LeadsTo.node hh hshape hms
      have hnotMem : h ∉ opened := by
        intro hmem
        obtain ⟨u, hu, hlt⟩ := hopened h hmem
        rw [hv.unique hu] at hlt
        exact Nat.lt_irrefl _ hlt
      have hmembers : (heap.get h).members.map
          (fun m ↦ (m.1, heap.unfoldBelow room (h :: opened) m.2)) = ms := by
        refine hms.map_eq fun w m hm hw ↦ ?_
        have hlt := Tree.nesting_lt_node hm shape
        refine ih hw (by omega) fun g hg ↦ ?_
        rcases List.mem_cons.1 hg with rfl | hg
        · exact ⟨_, hv, hlt⟩
        · obtain ⟨u, hu, hdeeper⟩ := hopened g hg
          exact ⟨u, hu, Nat.lt_trans hlt hdeeper⟩
      rw [unfoldBelow_of_notMem hnotMem, hshape, hmembers]

/-- A realized tree is unfolded to itself. -/
theorem unfold_realize (heap : Heap) {t : Tree} (h : t.HasDistinctNames) :
    (heap.realize t).2.unfold (heap.realize t).1 = t := by
  have hrealized := heap.realized_realize t h
  have hsize := hrealized.size_le
  exact hrealized.leadsTo.unfoldBelow_eq _ (by omega) (List.forall_mem_nil _)

end Heap

end ScriptHost
