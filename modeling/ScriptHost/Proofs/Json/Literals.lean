import ScriptHost.Proofs.Json.Formatting
import ScriptHost.Proofs.Object.Writes
import ScriptHost.TypedLiteral

/-!
# Typed literals as values and as text

The object of a literal is recognized as that literal, and so is what either of its texts is read
as.  What is recognized is just the objects that have the members of a literal, in any order and of
any shape: no member may be missing, none may be added, and each has to be a string.

## Main definitions

* `TypedLiteral.IsObjectOf` : a value is an object with the members of a literal.
* `TypedLiteral.IsTreeOf`, `TypedLiteral.IsTextOf` : what is recognized once it is a value.
* `TypedLiteral.Survives` : a literal is recognized after it has become a value or a text.

## Main results

* `TypedLiteral.ofObject?_eq_some_iff` : which objects are recognized.
* `TypedLiteral.survives_realize` : the object of a literal.
* `TypedLiteral.survives_and_ofValue?_eq_some_iff` : both of these, and that no two literals have
  one encoding.
-/

namespace ScriptHost

/-! ### Members that are strings -/

namespace Heap

variable {heap : Heap} {v : Value}

/-- Only an object leads to a node. -/
theorem LeadsTo.exists_object {shape : Shape} {ts : List (String × Tree)}
    (h : LeadsTo heap v (.node shape ts)) :
    ∃ g, v = .object g ∧ MembersLeadTo heap (heap.get g).members ts := by
  cases h with
  | node _ _ hms => exact ⟨_, rfl, hms⟩

/-- Members that lead to strings are these strings. -/
theorem MembersLeadTo.eq_of_strings {ss : List (String × String)} :
    ∀ {ms : List (String × Value)},
      MembersLeadTo heap ms (ss.map fun m ↦ (m.1, .string m.2)) →
        ms = ss.map fun m ↦ (m.1, .string m.2) := by
  induction ss with
  | nil =>
    intro ms h
    cases h
    rfl
  | cons s ss ih =>
    intro ms h
    cases h with
    | cons hv hms =>
      cases hv
      rw [ih hms]
      rfl

end Heap

namespace TypedLiteral

/-- A value is an object with just the members of a literal, in any order. -/
def IsObjectOf (heap : Heap) (v : Value) (l : TypedLiteral) : Prop :=
  ∃ h, v = .object h ∧ (heap.get h).members.Perm (l.members.map fun m ↦ (m.1, .string m.2))

variable {l : TypedLiteral}

theorem nodup_keys_members (l : TypedLiteral) : (Members.keys l.members).Nodup := by
  cases l <;> simp [Members.keys, members]

/-! ### What is recognized -/

theorem ofMember?_eq_some_iff {name payload : String} :
    ofMember? name payload = some l ↔ l.members = [(name, payload)] := by
  constructor
  · intro h
    unfold ofMember? at h
    split at h <;> cases h <;> rfl
  · intro h
    cases l <;> cases h <;> rfl

/-- The members of a literal that is not of another type are one. -/
theorem exists_members_eq (l : TypedLiteral) :
    (∃ type payload, l = other type payload) ∨ ∃ name payload, l.members = [(name, payload)] := by
  cases l with
  | other type payload => exact .inl ⟨type, payload, rfl⟩
  | _ => exact .inr ⟨_, _, rfl⟩

variable {o : Object Value}

/-- An object is recognized as the literal whose members it has. -/
theorem ofObject?_of_perm (h : o.members.Perm (l.members.map fun m ↦ (m.1, .string m.2))) :
    ofObject? o = some l := by
  obtain ⟨type, payload, rfl⟩ | ⟨name, payload, hmembers⟩ := exists_members_eq l
  · obtain ⟨m, n, hpair⟩ := List.length_eq_two.1 h.length_eq
    have htype : o.get? "$type" = some (.string type) :=
      Object.get?_eq_some_iff.2 (h.mem_iff.2 List.mem_cons_self)
    have hvalue : o.get? "value" = some (.string payload) :=
      Object.get?_eq_some_iff.2 (h.mem_iff.2 (List.mem_cons_of_mem _ List.mem_cons_self))
    simp only [ofObject?, hpair, htype, hvalue]
  · rw [hmembers] at h
    have hsingle : o.members = [(name, .string payload)] := List.perm_singleton.1 h
    simp only [ofObject?, hsingle]
    exact ofMember?_eq_some_iff.2 hmembers

/-- Two members that are found are all of two. -/
theorem perm_pair_of_mem {a b m n : String × Value} (hab : a ≠ b) (ha : a ∈ [m, n])
    (hb : b ∈ [m, n]) : [m, n].Perm [a, b] := by
  have hnodup : [a, b].Nodup := List.nodup_cons.2 ⟨by simpa using hab, List.nodup_singleton b⟩
  have hsubset : [a, b] ⊆ [m, n] :=
    List.cons_subset.2 ⟨ha, List.cons_subset.2 ⟨hb, List.nil_subset _⟩⟩
  exact ((List.subperm_of_subset hnodup hsubset).perm_of_length_le (Nat.le_refl 2)).symm

/-- What is recognized has the members of the literal. -/
theorem perm_of_ofObject?_eq_some (h : ofObject? o = some l) :
    o.members.Perm (l.members.map fun m ↦ (m.1, .string m.2)) := by
  unfold ofObject? at h
  split at h
  · rename_i name payload hsingle
    rw [hsingle, ofMember?_eq_some_iff.1 h]
    exact .refl _
  · rename_i m n hpair
    split at h
    · rename_i type payload htype hvalue
      obtain rfl := Option.some.inj h
      rw [Object.get?_eq_some_iff, hpair] at htype hvalue
      rw [hpair]
      exact perm_pair_of_mem (by simp) htype hvalue
    · cases h
  · cases h

theorem ofObject?_eq_some_iff :
    ofObject? o = some l ↔ o.members.Perm (l.members.map fun m ↦ (m.1, .string m.2)) :=
  ⟨perm_of_ofObject?_eq_some, ofObject?_of_perm⟩

theorem ofValue?_eq_some_iff {heap : Heap} {v : Value} :
    ofValue? heap v = some l ↔ IsObjectOf heap v l := by
  cases v with
  | object h =>
    refine ofObject?_eq_some_iff.trans ⟨fun hperm ↦ ⟨h, rfl, hperm⟩, ?_⟩
    rintro ⟨g, heq, hperm⟩
    cases heq
    exact hperm
  | _ => exact iff_of_false (fun h ↦ by cases h) fun ⟨_, heq, _⟩ ↦ by cases heq

/-! ### Literals as trees -/

/-- The members of the tree of a literal. -/
def nodes (l : TypedLiteral) : List (String × Tree) := l.members.map fun m ↦ (m.1, .string m.2)

/-- A tree is recognized as a literal in whatever heap it becomes a value. -/
def IsTreeOf (t : Tree) (l : TypedLiteral) : Prop :=
  ∀ heap : Heap, ofValue? (heap.realize t).2 (heap.realize t).1 = some l

theorem keys_nodes (l : TypedLiteral) : Members.keys l.nodes = Members.keys l.members := by
  rw [Members.keys, nodes, List.map_map]
  rfl

theorem nodup_keys_nodes (l : TypedLiteral) : (Members.keys l.nodes).Nodup :=
  keys_nodes l ▸ nodup_keys_members l

theorem hasDistinctNames_node (shape : Shape) (l : TypedLiteral) :
    (Tree.node shape l.nodes).HasDistinctNames := by
  refine ⟨nodup_keys_nodes l, Tree.membersHaveDistinctNames_iff.2 fun m hm ↦ ?_⟩
  obtain ⟨s, -, rfl⟩ := List.mem_map.1 hm
  exact True.intro

theorem toTree_eq (l : TypedLiteral) : l.toTree = .node .map l.nodes := by
  have hnodes := Members.foldl_put_of_nodup (nodup_keys_nodes l)
  rw [toTree, Tree.map_eq]
  exact congrArg (Tree.node .map) hnodes

theorem hasDistinctNames_toTree (l : TypedLiteral) : l.toTree.HasDistinctNames :=
  toTree_eq l ▸ hasDistinctNames_node .map l

/-- The node of a literal becomes an object with its members. -/
theorem isObjectOf_realize (shape : Shape) (l : TypedLiteral) (heap : Heap) :
    IsObjectOf (heap.realize (.node shape l.nodes)).2 (heap.realize (.node shape l.nodes)).1 l := by
  have hrealized := heap.realized_realize _ (hasDistinctNames_node shape l)
  obtain ⟨h, hobject, hmembers⟩ := hrealized.leadsTo.exists_object
  exact ⟨h, hobject, hmembers.eq_of_strings ▸ .refl _⟩

theorem isTreeOf_node (shape : Shape) (l : TypedLiteral) : IsTreeOf (.node shape l.nodes) l :=
  fun heap ↦ ofValue?_eq_some_iff.2 (isObjectOf_realize shape l heap)

/-! ### Literals as text -/

/-- A text is read as a tree that is recognized as a literal. -/
def IsTextOf (text : String) (l : TypedLiteral) : Prop :=
  ∃ t, Json.parse text = .ok t ∧ IsTreeOf t l

/-- Writing and reading leaves strings as they are. -/
theorem exists_reread_eq (l : TypedLiteral) : ∃ shape, l.toTree.reread = .node shape l.nodes := by
  rw [toTree_eq, Tree.reread, Tree.rereadMembers_eq_map, nodes, List.map_map]
  exact ⟨_, rfl⟩

/-- Strings lie in no container but the object itself. -/
theorem nesting_toTree_le (l : TypedLiteral) : l.toTree.nesting ≤ Json.maxNesting := by
  have hdeepest : Tree.deepest l.nodes ≤ 0 := by
    refine Tree.deepest_le_iff.2 fun m hm ↦ ?_
    obtain ⟨s, -, rfl⟩ := List.mem_map.1 hm
    exact Nat.le_refl 0
  have hone : 1 ≤ Json.maxNesting := by decide
  rw [toTree_eq, Tree.nesting]
  split_ifs <;> omega

/-- The text of a literal in any layout. -/
theorem isTextOf_write (layout : Json.Layout) (l : TypedLiteral) :
    IsTextOf (String.ofList (Json.write layout l.toTree [])) l := by
  obtain ⟨shape, hreread⟩ := exists_reread_eq l
  refine ⟨l.toTree.reread, Json.parse_write (hasDistinctNames_toTree l) (nesting_toTree_le l), ?_⟩
  rw [hreread]
  exact isTreeOf_node shape l

/-- A text is the text of one literal. -/
theorem IsTextOf.unique {text : String} {l l' : TypedLiteral} (h : IsTextOf text l)
    (h' : IsTextOf text l') : l = l' := by
  obtain ⟨t, ht, htree⟩ := h
  obtain ⟨u, hu, htree'⟩ := h'
  obtain rfl := Except.ok.inj (ht.symm.trans hu)
  exact Option.some.inj ((htree .empty).symm.trans (htree' .empty))

/-! ### Both ways -/

/-- A literal has become a value, which has its members and is recognized as it, and what either
text of the value is read as is recognized as the literal again. -/
structure Survives (heap : Heap) (v : Value) (l : TypedLiteral) : Prop where
  isObjectOf : IsObjectOf heap v l
  ofValue?_eq : ofValue? heap v = some l
  compact : IsTextOf (Json.compact heap v) l
  pretty : IsTextOf (Json.pretty heap v) l

/-- Two values are encoded alike: they lead to one tree or have a text in common. -/
def EncodedAlike (heap : Heap) (v : Value) (heap' : Heap) (v' : Value) : Prop :=
  heap.unfold v = heap'.unfold v' ∨ Json.compact heap v = Json.compact heap' v' ∨
    Json.pretty heap v = Json.pretty heap' v'

/-- The object of a literal, wherever it is made. -/
theorem survives_realize (l : TypedLiteral) (heap : Heap) :
    Survives (heap.realize l.toTree).2 (heap.realize l.toTree).1 l := by
  have hobject := isObjectOf_realize .map l heap
  rw [← toTree_eq] at hobject
  have hunfold := heap.unfold_realize (hasDistinctNames_toTree l)
  refine ⟨hobject, ofValue?_eq_some_iff.2 hobject, ?_, ?_⟩
  · rw [Json.compact, hunfold]
    exact isTextOf_write .compact l
  · rw [Json.pretty, hunfold]
    exact isTextOf_write (.indented 2) l

/-- Literals that are encoded alike are one literal. -/
theorem Survives.unique {heap heap' : Heap} {v v' : Value} {l l' : TypedLiteral}
    (h : Survives heap v l) (h' : Survives heap' v' l') (halike : EncodedAlike heap v heap' v') :
    l = l' := by
  have hcompact : Json.compact heap v = Json.compact heap' v' → l = l' := fun heq ↦
    h.compact.unique (heq ▸ h'.compact)
  obtain htree | heq | heq := halike
  · exact hcompact (by rw [Json.compact, Json.compact, htree])
  · exact hcompact heq
  · exact h.pretty.unique (heq ▸ h'.pretty)

/-- A literal is recognized after it has become a value, and after that was written, in either
layout, and read back, so that different literals are encoded differently.  A value is recognized as
a literal exactly if it is an object with just the members of the literal, whatever their order and
the shape of the object; it is recognized as none if it is no such object of any literal. -/
theorem survives_and_ofValue?_eq_some_iff :
    (∀ (l : TypedLiteral) (heap : Heap),
      let (v, heap) := heap.realize l.toTree
      Survives heap v l) ∧
    (∀ (l l' : TypedLiteral) (heap heap' : Heap),
      let (v, heap) := heap.realize l.toTree
      let (v', heap') := heap'.realize l'.toTree
      EncodedAlike heap v heap' v' → l = l') ∧
    ∀ (heap : Heap) (v : Value),
      (∀ l, ofValue? heap v = some l ↔ IsObjectOf heap v l) ∧
      (ofValue? heap v = none ↔ ∀ l, ¬IsObjectOf heap v l) := by
  refine ⟨survives_realize, fun l l' heap heap' ↦
    (survives_realize l heap).unique (survives_realize l' heap'), fun heap v ↦
    ⟨fun l ↦ ofValue?_eq_some_iff, ?_⟩⟩
  rw [Option.eq_none_iff_forall_ne_some]
  exact forall_congr' fun l ↦ not_congr ofValue?_eq_some_iff

end TypedLiteral

end ScriptHost
