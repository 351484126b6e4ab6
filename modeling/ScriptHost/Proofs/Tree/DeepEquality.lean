import Mathlib.Data.List.Forall2
import ScriptHost.Proofs.Tree.Acyclic

/-!
# Deep equality without cycles

In a heap without cycles a deep comparison goes no deeper than there are objects, so that it ends.
Values are deeply equal if they are strictly equal, or if they are objects that both count as arrays
or both do not, with deeply equal members under the same names in the same order.  From this follow
symmetry and transitivity, by induction on what the first value leads to.

Comparing trees knows of no identity.  It tells an object from itself only where NaN is met, so that
it gives the same answer for values of which one does not lead to NaN.

## Main definitions

* `Members.Agree` : members under the same names in the same order, with related values.
* `Tree.same` : comparison by scalars, names and shapes alone.

## Main results

* `Heap.IsAcyclic.deepEqWithin_eq_deepEq?` : more depth than there are objects makes no difference.
* `Heap.IsAcyclic.deepEq?_eq_true_iff` : what makes two values deeply equal.
* `Heap.IsAcyclic.deepEq?_eq_same` : deep equality compares the trees.
* `Heap.equalities_fit_together` : the strict, the loose and the deep equality.
-/

namespace ScriptHost

/-! ### Members in pairs -/

/-- Members under the same names in the same order, with related values. -/
def Members.Agree {α β : Type} (R : α → β → Prop) :
    List (String × α) → List (String × β) → Prop :=
  List.Forall₂ fun m n ↦ m.1 = n.1 ∧ R m.2 n.2

namespace Members.Agree

variable {α β γ : Type} {R R' : α → β → Prop} {S : β → γ → Prop}

theorem cons_iff {m : String × α} {n : String × β} {ms : List (String × α)}
    {ns : List (String × β)} :
    Agree R (m :: ms) (n :: ns) ↔ (m.1 = n.1 ∧ R m.2 n.2) ∧ Agree R ms ns :=
  List.forall₂_cons

theorem imp {ms : List (String × α)} {ns : List (String × β)} : Agree R ms ns →
    (∀ m ∈ ms, ∀ n ∈ ns, R m.2 n.2 → R' m.2 n.2) → Agree R' ms ns
  | .nil, _ => .nil
  | .cons h hs, himp =>
    .cons ⟨h.1, himp _ List.mem_cons_self _ List.mem_cons_self h.2⟩
      (imp hs fun m hm n hn ↦ himp m (List.mem_cons_of_mem _ hm) n (List.mem_cons_of_mem _ hn))

theorem flip {ms : List (String × α)} {ns : List (String × β)} : Agree R ms ns →
    Agree (fun w v ↦ R v w) ns ms
  | .nil => .nil
  | .cons h hs => .cons ⟨h.1.symm, h.2⟩ (flip hs)

theorem comp {ms : List (String × α)} {ns : List (String × β)} {os : List (String × γ)} :
    Agree R ms ns → Agree S ns os → Agree (Relation.Comp R S) ms os
  | .nil, .nil => .nil
  | .cons h hs, .cons h' hs' => .cons ⟨h.1.trans h'.1, _, h.2, h'.2⟩ (comp hs hs')

theorem map_iff {δ : Type} {R : γ → δ → Prop} {f : α → γ} {f' : β → δ}
    {ms : List (String × α)} {ns : List (String × β)} :
    Agree R (ms.map fun m ↦ (m.1, f m.2)) (ns.map fun n ↦ (n.1, f' n.2)) ↔
      Agree (fun v w ↦ R (f v) (f' w)) ms ns :=
  List.forall₂_map_left_iff.trans List.forall₂_map_right_iff

end Members.Agree

/-! ### Comparing trees -/

namespace Tree

mutual

/-- Whether two trees have the same scalars under the same names in the same order, and the same of
their nodes count as arrays. -/
def same : Tree → Tree → Bool
  | .nil, .nil => true
  | .number m, .number n => m.same n
  | .boolean a, .boolean b => a == b
  | .string s, .string t => s == t
  | .node shape ms, .node shape' ns =>
    countsAsArray shape ms == countsAsArray shape' ns && membersSame ms ns
  | _, _ => false

/-- Whether members have the same names in the same order, and the same trees. -/
def membersSame : List (String × Tree) → List (String × Tree) → Bool
  | [], [] => true
  | (k, t) :: ms, (l, u) :: ns => k == l && t.same u && membersSame ms ns
  | _, _ => false

end

theorem membersSame_iff {ms ns : List (String × Tree)} :
    membersSame ms ns = true ↔ Members.Agree (fun t u ↦ t.same u = true) ms ns := by
  induction ms generalizing ns with
  | nil => cases ns <;> simp [membersSame, Members.Agree]
  | cons m ms ih =>
    cases ns with
    | nil => simp [membersSame, Members.Agree]
    | cons n ns => simp [membersSame, Members.Agree, ih]

end Tree

namespace Heap

variable {heap : Heap} {a b : Value} {g h : Handle}

/-! ### One level of the comparison -/

theorem allSame_congr {same same' : Value → Value → Option Bool} {ms ns : List (String × Value)}
    (hsame : ∀ m ∈ ms, ∀ w, same m.2 w = same' m.2 w) :
    allSame same ms ns = allSame same' ms ns := by
  induction ms generalizing ns with
  | nil => rfl
  | cons m ms ih =>
    obtain ⟨hm, hms⟩ := List.forall_mem_cons.1 hsame
    cases ns with
    | nil => rfl
    | cons n ns => rw [allSame, allSame, hm, ih hms]

/-- Members are compared to an end if their values are. -/
theorem isSome_allSame {same : Value → Value → Option Bool} {ms ns : List (String × Value)}
    (hsame : ∀ m ∈ ms, ∀ w, (same m.2 w).isSome) : (allSame same ms ns).isSome := by
  induction ms generalizing ns with
  | nil => rfl
  | cons m ms ih =>
    obtain ⟨hm, hms⟩ := List.forall_mem_cons.1 hsame
    cases ns with
    | nil => rfl
    | cons n ns =>
      rw [allSame]
      split_ifs
      · obtain ⟨answer, hanswer⟩ := Option.isSome_iff_exists.1 (hm n.2)
        rw [hanswer]
        cases answer with
        | true => exact ih hms
        | false => rfl
      · rfl

theorem allSame_eq_true_iff {same : Value → Value → Option Bool} {ms ns : List (String × Value)}
    (hlength : ms.length = ns.length) : allSame same ms ns = some true ↔
      Members.Agree (fun v w ↦ same v w = some true) ms ns := by
  induction ms generalizing ns with
  | nil =>
    obtain rfl := List.length_eq_zero_iff.1 hlength.symm
    exact iff_of_true rfl .nil
  | cons m ms ih =>
    cases ns with
    | nil => cases hlength
    | cons n ns =>
      have htail := ih (Nat.succ.inj hlength)
      rw [allSame, Members.Agree.cons_iff, ← htail]
      by_cases hname : m.1 = n.1
      · rw [if_pos hname]
        rcases same m.2 n.2 with _ | _ | _ <;> simp [hname]
      · simp [hname]

/-- Where one of two values is no object, deep equality is the strict one. -/
theorem deepEq?_scalar_iff (h : a.asObject? = none ∨ b.asObject? = none) :
    heap.deepEq? a b = some true ↔ a.strictEq b = true := by
  rw [deepEq?, deepEqWithin_scalar _ h, Option.some_inj]

/-- Comparisons that end, and end with yes alike, have the same answer. -/
theorem answer_eq {x y : Option Bool} (hx : x.isSome) (hy : y.isSome)
    (hiff : x = some true ↔ y = some true) : x = y := by
  obtain ⟨s, rfl⟩ := Option.isSome_iff_exists.1 hx
  obtain ⟨t, rfl⟩ := Option.isSome_iff_exists.1 hy
  rw [Option.some_inj, Option.some_inj] at hiff
  exact congrArg some (Bool.eq_iff_iff.2 hiff)

/-! ### Depth -/

namespace IsAcyclic

/-- Depths that exceed that of the tree make no difference. -/
theorem deepEqWithin_eq (hacyclic : heap.IsAcyclic) (a : Value) : ∀ {b : Value} {d d' : Nat},
    (heap.unfold a).nesting < d → (heap.unfold a).nesting < d' →
      heap.deepEqWithin d a b = heap.deepEqWithin d' a b := by
  induction a using hacyclic.induction with
  | step a ih =>
    intro b d d' hd hd'
    obtain ⟨d, rfl⟩ := Nat.exists_eq_succ_of_ne_zero (Nat.ne_zero_of_lt hd)
    obtain ⟨d', rfl⟩ := Nat.exists_eq_succ_of_ne_zero (Nat.ne_zero_of_lt hd')
    cases a with
    | object g =>
      cases b with
      | object h =>
        have hmembers : allSame (heap.deepEqWithin d) (heap.get g).members (heap.get h).members =
            allSame (heap.deepEqWithin d') (heap.get g).members (heap.get h).members := by
          refine allSame_congr fun m hm w ↦ ?_
          have hlt := hacyclic.nesting_member_lt hm
          exact ih g rfl m hm (by omega) (by omega)
        rw [deepEqWithin, deepEqWithin]
        dsimp only
        rw [hmembers]
      | _ => rfl
    | _ => rfl

/-- More depth than there are objects makes no difference. -/
theorem deepEqWithin_eq_deepEq? (hacyclic : heap.IsAcyclic) (a b : Value) {depth : Nat}
    (hdepth : heap.size < depth) : heap.deepEqWithin depth a b = heap.deepEq? a b := by
  have hnesting := nesting_unfold_le heap a
  have hsquare := Nat.le_mul_self heap.size
  exact hacyclic.deepEqWithin_eq a (by omega) (by omega)

/-- Different objects are compared by their sizes, by whether they count as arrays, and by their
members. -/
theorem deepEq?_object (hacyclic : heap.IsAcyclic) (hne : g ≠ h) :
    heap.deepEq? (.object g) (.object h) =
      if (heap.get g).size = (heap.get h).size ∧ (heap.get g).isArray = (heap.get h).isArray then
        allSame heap.deepEq? (heap.get g).members (heap.get h).members
      else some false := by
  have hmembers : allSame (heap.deepEqWithin (heap.size + 1)) (heap.get g).members
      (heap.get h).members = allSame heap.deepEq? (heap.get g).members (heap.get h).members :=
    allSame_congr fun m _ w ↦ hacyclic.deepEqWithin_eq_deepEq? m.2 w (Nat.lt_succ_self _)
  rw [← hacyclic.deepEqWithin_eq_deepEq? _ _ (Nat.lt_succ_of_lt (Nat.lt_succ_self _)), deepEqWithin,
    if_neg hne]
  dsimp only
  rw [hmembers]

/-- A comparison comes to an end. -/
theorem isSome_deepEq? (hacyclic : heap.IsAcyclic) (a b : Value) : (heap.deepEq? a b).isSome := by
  induction a using hacyclic.induction generalizing b with
  | step a ih =>
    cases a with
    | object g =>
      cases b with
      | object h =>
        by_cases hgh : g = h
        · rw [deepEq?, deepEqWithin, if_pos hgh]
          rfl
        · rw [hacyclic.deepEq?_object hgh]
          split_ifs
          · exact isSome_allSame fun m hm w ↦ ih g rfl m hm w
          · rfl
      | _ => rfl
    | _ => rfl

/-! ### Which values are deeply equal -/

/-- Values are deeply equal if they are strictly equal, or objects with deeply equal members that
count as arrays alike. -/
theorem deepEq?_eq_true_iff (hacyclic : heap.IsAcyclic) : heap.deepEq? a b = some true ↔
    a.strictEq b = true ∨ ∃ g h, a = .object g ∧ b = .object h ∧
      (heap.get g).isArray = (heap.get h).isArray ∧
        Members.Agree (fun v w ↦ heap.deepEq? v w = some true)
          (heap.get g).members (heap.get h).members := by
  cases a with
  | object g =>
    cases b with
    | object h =>
      by_cases hgh : g = h
      · rw [deepEq?, deepEqWithin, if_pos hgh]
        exact iff_of_true rfl (.inl (beq_iff_eq.2 hgh))
      rw [hacyclic.deepEq?_object hgh]
      constructor
      · intro hsame
        split_ifs at hsame with hlevel
        · exact .inr ⟨g, h, rfl, rfl, hlevel.2, (allSame_eq_true_iff hlevel.1).1 hsame⟩
        · cases hsame
      · rintro (hstrict | ⟨_, _, ⟨⟩, ⟨⟩, harray, hagree⟩)
        · exact absurd (eq_of_beq hstrict) hgh
        · have hsize := List.Forall₂.length_eq hagree
          rw [if_pos ⟨hsize, harray⟩]
          exact (allSame_eq_true_iff hsize).2 hagree
    | _ => exact (deepEq?_scalar_iff (.inr rfl)).trans (by simp)
  | _ => exact (deepEq?_scalar_iff (.inl rfl)).trans (by simp)

theorem deepEq?_of_strictEq (hacyclic : heap.IsAcyclic) (hab : a.strictEq b = true) :
    heap.deepEq? a b = some true :=
  hacyclic.deepEq?_eq_true_iff.2 (.inl hab)

theorem deepEq?_symm (hacyclic : heap.IsAcyclic) (a : Value) :
    ∀ b, heap.deepEq? a b = some true → heap.deepEq? b a = some true := by
  induction a using hacyclic.induction with
  | step a ih =>
    intro b hab
    rw [hacyclic.deepEq?_eq_true_iff] at hab ⊢
    rcases hab with hab | ⟨g, h, rfl, rfl, harray, hagree⟩
    · exact .inl (Value.strictEq_comm a b ▸ hab)
    · refine .inr ⟨h, g, rfl, rfl, harray.symm, ?_⟩
      exact (hagree.imp fun m hm n _ hmn ↦ ih g rfl m hm n.2 hmn).flip

/-- The order of the values makes no difference. -/
theorem deepEq?_comm (hacyclic : heap.IsAcyclic) (a b : Value) :
    heap.deepEq? a b = heap.deepEq? b a :=
  answer_eq (hacyclic.isSome_deepEq? a b) (hacyclic.isSome_deepEq? b a)
    ⟨hacyclic.deepEq?_symm a b, hacyclic.deepEq?_symm b a⟩

theorem deepEq?_trans (hacyclic : heap.IsAcyclic) (a : Value) :
    ∀ b c, heap.deepEq? a b = some true → heap.deepEq? b c = some true →
      heap.deepEq? a c = some true := by
  induction a using hacyclic.induction with
  | step a ih =>
    intro b c hab hbc
    rw [hacyclic.deepEq?_eq_true_iff] at hab hbc ⊢
    rcases hab with hab | ⟨g, h, rfl, rfl, harray, hagree⟩
    · rcases hbc with hbc | ⟨h, k, rfl, rfl, hbc⟩
      · exact .inl (Value.strictEq_trans hab hbc)
      · obtain rfl := Value.eq_object_of_strictEq hab
        exact .inr ⟨h, k, rfl, rfl, hbc⟩
    · rcases hbc with hbc | ⟨_, k, ⟨⟩, rfl, harray', hagree'⟩
      · obtain rfl := Value.eq_object_of_strictEq (Value.strictEq_comm _ c ▸ hbc)
        exact .inr ⟨g, h, rfl, rfl, harray, hagree⟩
      · refine .inr ⟨g, k, rfl, rfl, harray.trans harray', ?_⟩
        refine (hagree.comp hagree').imp ?_
        rintro m hm n - ⟨v, hmv, hvn⟩
        exact ih g rfl m hm v n.2 hmv hvn

/-! ### Deep equality compares the trees -/

/-- The trees of two values are the same if the values are strictly equal scalars, or objects whose
members have the same trees and that count as arrays alike. -/
theorem same_unfold_iff (hacyclic : heap.IsAcyclic) :
    (heap.unfold a).same (heap.unfold b) = true ↔
      (a.asObject? = none ∧ a.strictEq b = true) ∨ ∃ g h, a = .object g ∧ b = .object h ∧
        (heap.get g).isArray = (heap.get h).isArray ∧
          Members.Agree (fun v w ↦ (heap.unfold v).same (heap.unfold w) = true)
            (heap.get g).members (heap.get h).members := by
  cases a with
  | object g =>
    cases b with
    | object h =>
      rw [hacyclic.unfold_object, hacyclic.unfold_object, Tree.same, Tree.countsAsArray_map,
        Tree.countsAsArray_map, Bool.and_eq_true, beq_iff_eq, Tree.membersSame_iff,
        Members.Agree.map_iff]
      simp [Value.asObject?]
    | _ => simp [unfold, unfoldBelow, Tree.same, Value.asObject?]
  | _ =>
    cases b with
    | object h => simp [unfold, unfoldBelow, Tree.same, Value.strictEq]
    | _ => simp [unfold, unfoldBelow, Tree.same, Value.strictEq, Value.asObject?]

/-- A value that does not lead to NaN has the same tree as itself. -/
theorem same_unfold_self (hacyclic : heap.IsAcyclic) (v : Value)
    (hnan : ¬heap.ReachesNumber .nan v) : (heap.unfold v).same (heap.unfold v) = true := by
  induction v using hacyclic.induction with
  | step v ih =>
    rw [hacyclic.same_unfold_iff]
    cases v with
    | object g =>
      refine .inr ⟨g, g, rfl, rfl, rfl, List.forall₂_same.2 fun m hm ↦ ⟨rfl, ?_⟩⟩
      exact ih g rfl m hm fun hmember ↦ hnan (hmember.member hm)
    | _ => exact .inl ⟨rfl, Value.strictEq_self fun heq ↦ hnan (.inl heq)⟩

theorem deepEq?_iff_same (hacyclic : heap.IsAcyclic) (a : Value) :
    ∀ b, ¬heap.ReachesNumber .nan a ∨ ¬heap.ReachesNumber .nan b →
      (heap.deepEq? a b = some true ↔ (heap.unfold a).same (heap.unfold b) = true) := by
  induction a using hacyclic.induction with
  | step a ih =>
    intro b hnan
    rw [hacyclic.deepEq?_eq_true_iff, hacyclic.same_unfold_iff]
    have hmembers {g h : Handle} (hg : a = .object g) (hh : b = .object h) :
        ∀ m ∈ (heap.get g).members, ∀ n ∈ (heap.get h).members,
          (heap.deepEq? m.2 n.2 = some true ↔ (heap.unfold m.2).same (heap.unfold n.2) = true) := by
      subst hg hh
      intro m hm n hn
      exact ih g rfl m hm n.2 (hnan.imp (mt (.member hm)) (mt (.member hn)))
    constructor
    · rintro (hstrict | ⟨g, h, rfl, rfl, harray, hagree⟩)
      · cases b with
        | object h =>
          obtain rfl := Value.eq_object_of_strictEq hstrict
          rw [← hacyclic.same_unfold_iff]
          exact hacyclic.same_unfold_self _ (hnan.elim id id)
        | _ => cases a <;> first | exact .inl ⟨rfl, hstrict⟩ | cases hstrict
      · exact .inr ⟨g, h, rfl, rfl, harray,
          hagree.imp fun m hm n hn ↦ (hmembers rfl rfl m hm n hn).1⟩
    · rintro (⟨-, hstrict⟩ | ⟨g, h, rfl, rfl, harray, hagree⟩)
      · exact .inl hstrict
      · exact .inr ⟨g, h, rfl, rfl, harray,
          hagree.imp fun m hm n hn ↦ (hmembers rfl rfl m hm n hn).2⟩

/-- Deep equality has the answer of comparing the trees, where one of the values does not lead to
NaN. -/
theorem deepEq?_eq_same (hacyclic : heap.IsAcyclic) (a b : Value)
    (hnan : ¬heap.ReachesNumber .nan a ∨ ¬heap.ReachesNumber .nan b) :
    heap.deepEq? a b = some ((heap.unfold a).same (heap.unfold b)) := by
  refine answer_eq (hacyclic.isSome_deepEq? a b) rfl ?_
  rw [hacyclic.deepEq?_iff_same a b hnan, Option.some_inj]

end IsAcyclic

/-- Strict and loose equality are symmetric and transitive, and reflexive but for NaN; what is
strictly equal is loosely equal.  Without cycles deep equality ends, with one answer at every depth
beyond the number of objects.  It is symmetric and transitive, holds of what is strictly equal, and
has the answer of comparing the trees where one of the values does not lead to NaN. -/
theorem equalities_fit_together :
    Value.IsEquality Value.strictEq ∧ Value.IsEquality Value.looseEq ∧
    (∀ a b : Value, a.strictEq b = true → a.looseEq b = true) ∧
    ∀ heap : Heap, heap.IsAcyclic →
      (∀ a b, ∃ answer, heap.deepEq? a b = some answer ∧
        ∀ depth, heap.size < depth → heap.deepEqWithin depth a b = some answer) ∧
      (∀ a b, heap.deepEq? a b = heap.deepEq? b a) ∧
      (∀ a b c, heap.deepEq? a b = some true → heap.deepEq? b c = some true →
        heap.deepEq? a c = some true) ∧
      (∀ a b, a.strictEq b = true → heap.deepEq? a b = some true) ∧
      ∀ a b, ¬heap.ReachesNumber .nan a ∨ ¬heap.ReachesNumber .nan b →
        heap.deepEq? a b = some ((heap.unfold a).same (heap.unfold b)) := by
  refine ⟨Value.isEquality_strictEq, Value.isEquality_looseEq,
    fun _ _ ↦ Value.looseEq_of_strictEq, fun heap hacyclic ↦ ?_⟩
  refine ⟨fun a b ↦ ?_, hacyclic.deepEq?_comm, hacyclic.deepEq?_trans,
    fun _ _ ↦ hacyclic.deepEq?_of_strictEq, hacyclic.deepEq?_eq_same⟩
  obtain ⟨answer, hanswer⟩ := Option.isSome_iff_exists.1 (hacyclic.isSome_deepEq? a b)
  exact ⟨answer, hanswer, fun depth hdepth ↦
    (hacyclic.deepEqWithin_eq_deepEq? a b hdepth).trans hanswer⟩

/-- An array is found to be the same as its copy, in spite of the shapes they were made with. -/
theorem equalities_fit_together_sharedAndCopied :
    sharedAndCopied.IsAcyclic ∧ ¬sharedAndCopied.ReachesNumber .nan (.object ⟨2⟩) ∧
      sharedAndCopied.deepEq? (.object ⟨2⟩) (.object ⟨3⟩) = some true ∧
        (sharedAndCopied.unfold (.object ⟨2⟩)).same
          (sharedAndCopied.unfold (.object ⟨3⟩)) = true := by
  have hnan : ¬sharedAndCopied.ReachesNumber .nan (.object ⟨2⟩) :=
    not_reachesNumber Value.noConfusion (by decide +kernel)
  have hsame := (equalities_fit_together.2.2.2 _ isAcyclic_sharedAndCopied).2.2.2.2
    (.object ⟨2⟩) (.object ⟨3⟩) (.inl hnan)
  have heq : sharedAndCopied.deepEq? (.object ⟨2⟩) (.object ⟨3⟩) = some true := by
    decide +kernel
  exact ⟨isAcyclic_sharedAndCopied, hnan, heq, Option.some.inj (hsame.symm.trans heq)⟩

end Heap

end ScriptHost
