import Mathlib.Tactic.Common
import ScriptHost.Equality
import ScriptHost.Proofs.Tree.Unfolding
import ScriptHost.Proofs.Value.Equality

/-!
# Realizing a tree twice

Realizing a tree makes new objects and leaves those that are there as they are.  Two values that
lead to one tree are deeply equal, and so are those that lead to trees that differ in the shapes of
their nodes only, as long as the same of them count as arrays: the comparison goes no deeper than
the tree, for which there are objects enough.

## Main definitions

* `Tree.Alike` : trees that differ at most in the shapes of their nodes.
* `Heap.Extends` : a heap with further objects.
* `Heap.LeadsTo` : what a value of a heap leads to is this tree.
* `Tree.DeepEq` : two trees are realized as deeply equal values.

## Main results

* `Heap.realized_realize` : realizing a tree gives a value that leads to it.
* `Heap.LeadsTo.deepEq?_eq` : values that lead to trees that are alike are deeply equal.
* `Tree.deepEq_self` : a tree without NaN is realized as deeply equal values.
-/

namespace ScriptHost

namespace Tree

mutual

/-- No number of the tree is NaN. -/
def HasNoNan : Tree → Prop
  | .number n => n ≠ .nan
  | .node _ members => MembersHaveNoNan members
  | _ => True

/-- No number below these members is NaN. -/
def MembersHaveNoNan : List (String × Tree) → Prop
  | [] => True
  | (_, t) :: ms => t.HasNoNan ∧ MembersHaveNoNan ms

end

mutual

/-- A numeral is never read as NaN. -/
theorem hasNoNan_reread : ∀ t : Tree, t.reread.HasNoNan
  | .nil => True.intro
  | .number n => by
    rw [reread]
    split_ifs with hn
    · obtain ⟨x, hx⟩ := Double.exists_numberText_text hn
      rw [hx.readDouble_eq]
      exact hx.ne_nan
    · exact True.intro
  | .boolean _ => True.intro
  | .string _ => True.intro
  | .node _ ms => membersHaveNoNan_rereadMembers ms

theorem membersHaveNoNan_rereadMembers :
    ∀ ms : List (String × Tree), MembersHaveNoNan (rereadMembers ms)
  | [] => True.intro
  | (_, t) :: ms => ⟨hasNoNan_reread t, membersHaveNoNan_rereadMembers ms⟩

end

mutual

/-- Rereading leaves the names as they are. -/
theorem HasDistinctNames.reread : ∀ {t : Tree}, t.HasDistinctNames → t.reread.HasDistinctNames
  | .nil, _ => True.intro
  | .number n, _ => by
    rw [Tree.reread]
    split_ifs <;> exact True.intro
  | .boolean _, _ => True.intro
  | .string _, _ => True.intro
  | .node _ ms, h =>
    ⟨(keys_rereadMembers ms).symm ▸ h.1, MembersHaveDistinctNames.rereadMembers h.2⟩

theorem MembersHaveDistinctNames.rereadMembers : ∀ {ms : List (String × Tree)},
    MembersHaveDistinctNames ms → MembersHaveDistinctNames (rereadMembers ms)
  | [], _ => True.intro
  | (_, _) :: _, h => ⟨HasDistinctNames.reread h.1, MembersHaveDistinctNames.rereadMembers h.2⟩

end

end Tree

namespace Tree

mutual

/-- Trees with the same scalars under the same names, in which members count as an array in both or
in neither.  NaN is alike to no number. -/
inductive Alike : Tree → Tree → Prop
  | nil : Alike .nil .nil
  | number {n : Double} (hn : n ≠ .nan) : Alike (.number n) (.number n)
  | boolean {b : Bool} : Alike (.boolean b) (.boolean b)
  | string {s : String} : Alike (.string s) (.string s)
  | node {shape shape' : Shape} {ms ns : List (String × Tree)}
      (harray : countsAsArray shape ms = countsAsArray shape' ns) (h : MembersAlike ms ns) :
      Alike (.node shape ms) (.node shape' ns)

/-- Members under the same names in the same order, with trees that are alike. -/
inductive MembersAlike : List (String × Tree) → List (String × Tree) → Prop
  | nil : MembersAlike [] []
  | cons {name : String} {t u : Tree} {ms ns : List (String × Tree)} (h : Alike t u)
      (hms : MembersAlike ms ns) : MembersAlike ((name, t) :: ms) ((name, u) :: ns)

end

theorem MembersAlike.keys_eq {ms ns : List (String × Tree)} (h : MembersAlike ms ns) :
    Members.keys ms = Members.keys ns := by
  induction ms generalizing ns with
  | nil =>
    cases h
    rfl
  | cons m ms ih =>
    cases h with
    | cons _ hms => exact congrArg (_ :: ·) (ih hms)

mutual

/-- A tree without NaN is alike to itself. -/
theorem Alike.refl : ∀ {t : Tree}, t.HasNoNan → t.Alike t
  | .nil, _ => .nil
  | .number _, hn => .number hn
  | .boolean _, _ => .boolean
  | .string _, _ => .string
  | .node _ _, h => .node rfl (MembersAlike.refl h)

theorem MembersAlike.refl : ∀ {ms : List (String × Tree)}, MembersHaveNoNan ms → MembersAlike ms ms
  | [], _ => .nil
  | _ :: _, h => .cons (Alike.refl h.1) (MembersAlike.refl h.2)

end

end Tree

/-- What lies below the members of a node lies less deep than the node goes. -/
theorem Tree.deepest_lt {shape : Shape} {ms : List (String × Tree)} {depth : Nat}
    (h : (Tree.node shape ms).nesting < depth + 1) : ms = [] ∨ deepest ms < depth := by
  cases ms with
  | nil => exact .inl rfl
  | cons m ms => exact .inr (Nat.lt_of_succ_lt_succ h)

namespace Heap

/-! ### Further objects -/

/-- A heap with the objects of another one and perhaps further ones. -/
structure Extends (heap heap' : Heap) : Prop where
  size_le : heap.size ≤ heap'.size
  get_eq : ∀ h : Handle, h.index < heap.size → heap'.get h = heap.get h

namespace Extends

variable {heap heap' heap'' : Heap}

theorem refl (heap : Heap) : Extends heap heap := ⟨Nat.le_refl _, fun _ _ ↦ rfl⟩

theorem trans (h : Extends heap heap') (h' : Extends heap' heap'') : Extends heap heap'' :=
  ⟨Nat.le_trans h.size_le h'.size_le, fun g hg ↦
    (h'.get_eq g (Nat.lt_of_lt_of_le hg h.size_le)).trans (h.get_eq g hg)⟩

end Extends

theorem size_alloc (heap : Heap) (o : Object Value) : (heap.alloc o).2.size = heap.size + 1 :=
  Array.size_push o

theorem extends_alloc (heap : Heap) (o : Object Value) : Extends heap (heap.alloc o).2 :=
  ⟨by rw [size_alloc]; exact Nat.le_succ _, fun _ hg ↦ get_alloc_of_lt hg⟩

/-! ### Values that lead to a tree -/

mutual

/-- What a value leads to is this tree. -/
inductive LeadsTo (heap : Heap) : Value → Tree → Prop
  | nil : LeadsTo heap .nil .nil
  | number {n : Double} : LeadsTo heap (.number n) (.number n)
  | boolean {b : Bool} : LeadsTo heap (.boolean b) (.boolean b)
  | string {s : String} : LeadsTo heap (.string s) (.string s)
  | node {h : Handle} {shape : Shape} {ms : List (String × Tree)} (hh : h.index < heap.size)
      (hshape : (heap.get h).shape = shape)
      (hms : MembersLeadTo heap (heap.get h).members ms) :
      LeadsTo heap (.object h) (.node shape ms)

/-- What members lead to are these trees, under the same names in the same order. -/
inductive MembersLeadTo (heap : Heap) : List (String × Value) → List (String × Tree) → Prop
  | nil : MembersLeadTo heap [] []
  | cons {name : String} {v : Value} {t : Tree} {ms : List (String × Value)}
      {ts : List (String × Tree)} (h : LeadsTo heap v t) (hms : MembersLeadTo heap ms ts) :
      MembersLeadTo heap ((name, v) :: ms) ((name, t) :: ts)

end

variable {heap heap' : Heap}

theorem MembersLeadTo.keys_eq {ms : List (String × Value)} {ts : List (String × Tree)}
    (h : MembersLeadTo heap ms ts) : Members.keys ts = Members.keys ms := by
  induction ms generalizing ts with
  | nil =>
    cases h
    rfl
  | cons m ms ih =>
    cases h with
    | cons _ hms => exact congrArg (_ :: ·) (ih hms)

mutual

/-- Further objects do not change what a value leads to. -/
theorem LeadsTo.mono {v : Value} {t : Tree} (he : Extends heap heap') :
    LeadsTo heap v t → LeadsTo heap' v t
  | .nil => .nil
  | .number => .number
  | .boolean => .boolean
  | .string => .string
  | .node hh hshape hms => by
    have hget := he.get_eq _ hh
    refine .node (Nat.lt_of_lt_of_le hh he.size_le) (hget ▸ hshape) ?_
    rw [hget]
    exact hms.mono he

theorem MembersLeadTo.mono {ms : List (String × Value)} {ts : List (String × Tree)}
    (he : Extends heap heap') : MembersLeadTo heap ms ts → MembersLeadTo heap' ms ts
  | .nil => .nil
  | .cons h hms => .cons (h.mono he) (hms.mono he)

end

/-- A tree was realized: the heap has further objects, enough for the containers around the value
that lies deepest, and the value leads to the tree. -/
structure Realized (heap : Heap) (t : Tree) (v : Value) (heap' : Heap) : Prop where
  ext : Extends heap heap'
  leadsTo : LeadsTo heap' v t
  size_le : heap.size + t.nesting ≤ heap'.size

/-- Members were realized in the same way. -/
structure MembersRealized (heap : Heap) (ts : List (String × Tree)) (ms : List (String × Value))
    (heap' : Heap) : Prop where
  ext : Extends heap heap'
  leadTo : MembersLeadTo heap' ms ts
  size_le : heap.size + Tree.deepest ts ≤ heap'.size

theorem realized_scalar {t : Tree} {v : Value} (h : LeadsTo heap v t) (ht : t.nesting = 0) :
    Realized heap t v heap :=
  ⟨.refl heap, h, by rw [ht]; exact Nat.le_refl _⟩

/-- A node is realized once its members are. -/
theorem MembersRealized.node {ts : List (String × Tree)} {ms : List (String × Value)}
    (h : MembersRealized heap ts ms heap') (hnodup : (Members.keys ts).Nodup) (shape : Shape) :
    Realized heap (.node shape ts) (.object (heap'.alloc ((Object.empty shape).setAll ms)).1)
      (heap'.alloc ((Object.empty shape).setAll ms)).2 := by
  have he := extends_alloc heap' ((Object.empty shape).setAll ms)
  have hget := heap'.get_alloc_self ((Object.empty shape).setAll ms)
  have hmembers : ((Object.empty shape).setAll ms).members = ms := by
    rw [Object.members_setAll]
    exact Members.foldl_put_of_nodup (h.leadTo.keys_eq ▸ hnodup)
  refine ⟨h.ext.trans he, .node ?_ ?_ ?_, ?_⟩
  · rw [size_alloc]
    exact Nat.lt_succ_self _
  · rw [hget]
    rfl
  · rw [hget, hmembers]
    exact h.leadTo.mono he
  · have hle := h.size_le
    rw [size_alloc, Tree.nesting]
    split_ifs <;> omega

mutual

/-- Realizing a tree gives a value that leads to it. -/
theorem realized_realize (heap : Heap) :
    ∀ t : Tree, t.HasDistinctNames → Realized heap t (heap.realize t).1 (heap.realize t).2
  | .nil, _ => realized_scalar .nil rfl
  | .number _, _ => realized_scalar .number rfl
  | .boolean _, _ => realized_scalar .boolean rfl
  | .string _, _ => realized_scalar .string rfl
  | .node shape ms, h => (realized_realizeMembers heap ms h.2).node h.1 shape

/-- Realizing members gives members that lead to them. -/
theorem realized_realizeMembers (heap : Heap) :
    ∀ ms : List (String × Tree), Tree.MembersHaveDistinctNames ms →
      MembersRealized heap ms (heap.realizeMembers ms).1 (heap.realizeMembers ms).2
  | [], _ => ⟨.refl heap, .nil, Nat.le_refl _⟩
  | (_, t) :: ms, h => by
    have ht := realized_realize heap t h.1
    have hms := realized_realizeMembers (heap.realize t).2 ms h.2
    refine ⟨ht.ext.trans hms.ext, .cons (ht.leadsTo.mono hms.ext) hms.leadTo, ?_⟩
    have hle := ht.size_le
    have hle' := hms.size_le
    have hsize := ht.ext.size_le
    have hsize' := hms.ext.size_le
    rw [Tree.deepest]
    change _ ≤ ((heap.realize t).2.realizeMembers ms).2.size
    omega

end

/-! ### Deep equality -/

/-- Where one of two values is no object, deep equality is the strict one. -/
theorem deepEqWithin_scalar {a b : Value} (depth : Nat)
    (h : a.asObject? = none ∨ b.asObject? = none) :
    heap.deepEqWithin depth a b = some (a.strictEq b) := by
  cases a with
  | object g =>
    cases b with
    | object g' => exact h.elim nofun nofun
    | _ => cases depth <;> rfl
  | _ => cases depth <;> rfl

theorem deepEqWithin_object {g h : Handle} {depth : Nat}
    (hsize : (heap.get g).size = (heap.get h).size)
    (harray : (heap.get g).isArray = (heap.get h).isArray)
    (hall : allSame (heap.deepEqWithin depth) (heap.get g).members (heap.get h).members =
      some true) : heap.deepEqWithin (depth + 1) (.object g) (.object h) = some true := by
  rw [deepEqWithin]
  split_ifs
  · rfl
  · dsimp only
    rw [if_pos ⟨hsize, harray⟩]
    exact hall

/-- Members under the same names are as many. -/
theorem MembersLeadTo.size_eq {o : Object Value} {ts : List (String × Tree)}
    (h : MembersLeadTo heap o.members ts) : o.size = (Members.keys ts).length := by
  rw [h.keys_eq, Members.keys, List.length_map]
  rfl

mutual

/-- Values that lead to trees that are alike are deeply equal. -/
theorem LeadsTo.deepEqWithin {a b : Value} {t u : Tree} {depth : Nat} :
    LeadsTo heap a t → LeadsTo heap b u → t.Alike u → t.nesting < depth →
      heap.deepEqWithin depth a b = some true
  | .nil, .nil, .nil, _ => deepEqWithin_scalar depth (.inl rfl)
  | .number, .number, .number hn, _ =>
    (deepEqWithin_scalar depth (.inl rfl)).trans (congrArg some (Double.same_self hn))
  | .boolean, .boolean, .boolean (b := b), _ =>
    (deepEqWithin_scalar depth (.inl rfl)).trans (congrArg some (beq_self_eq_true b))
  | .string, .string, .string (s := s), _ =>
    (deepEqWithin_scalar depth (.inl rfl)).trans (congrArg some (beq_self_eq_true s))
  | .node _ hshape hms, .node _ hshape' hns, .node harray h, hd => by
    obtain ⟨depth, rfl⟩ := Nat.exists_eq_succ_of_ne_zero (Nat.ne_of_gt (Nat.zero_lt_of_lt hd))
    have hleft := Tree.countsAsArray_eq_isArray hms.keys_eq
    have hright := Tree.countsAsArray_eq_isArray hns.keys_eq
    rw [hshape] at hleft
    rw [hshape'] at hright
    have hsize := hms.size_eq.trans ((congrArg List.length h.keys_eq).trans hns.size_eq.symm)
    exact deepEqWithin_object hsize (hleft.symm.trans (harray.trans hright))
      (hms.allSame hns h (Tree.deepest_lt hd))

/-- Members that lead to trees that are alike are deeply equal. -/
theorem MembersLeadTo.allSame {ms ns : List (String × Value)} {ts us : List (String × Tree)}
    {depth : Nat} : MembersLeadTo heap ms ts → MembersLeadTo heap ns us →
      Tree.MembersAlike ts us → ts = [] ∨ Tree.deepest ts < depth →
      Heap.allSame (heap.deepEqWithin depth) ms ns = some true
  | .nil, .nil, .nil, _ => rfl
  | .cons h hms, .cons h' hns, .cons ht hts, hd => by
    have hd := hd.resolve_left (List.cons_ne_nil _ _)
    have hhead := h.deepEqWithin h' ht (Nat.lt_of_le_of_lt (Nat.le_max_left _ _) hd)
    have htail := hms.allSame hns hts (.inr (Nat.lt_of_le_of_lt (Nat.le_max_right _ _) hd))
    rw [Heap.allSame, if_pos rfl, hhead]
    exact htail

end

/-- The comparison is decided where there are objects enough for the containers in the tree. -/
theorem LeadsTo.deepEq?_eq {a b : Value} {t u : Tree} (ha : LeadsTo heap a t)
    (hb : LeadsTo heap b u) (h : t.Alike u) (hsize : t.nesting ≤ heap.size) :
    heap.deepEq? a b = some true := by
  have hsquare := Nat.le_mul_self heap.size
  exact ha.deepEqWithin hb h (by omega)

end Heap

/-- Two trees are realized as deeply equal values, whatever heap they are realized in. -/
def Tree.DeepEq (t u : Tree) : Prop :=
  ∀ heap : Heap,
    let (a, heap) := heap.realize t
    let (b, heap) := heap.realize u
    heap.deepEq? a b = some true

/-- A tree without NaN is realized as deeply equal values. -/
theorem Tree.deepEq_self {t : Tree} (hnames : t.HasDistinctNames) (hnan : t.HasNoNan) :
    t.DeepEq t := by
  intro heap
  have hfirst := heap.realized_realize t hnames
  have hsecond := (heap.realize t).2.realized_realize t hnames
  have hle := hsecond.size_le
  exact (hfirst.leadsTo.mono hsecond.ext).deepEq?_eq hsecond.leadsTo (.refl hnan) (by omega)

end ScriptHost
