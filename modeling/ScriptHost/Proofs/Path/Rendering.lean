import ScriptHost.Proofs.Decimal.ExactValue
import ScriptHost.Proofs.Json.Numerals
import ScriptHost.Proofs.Path.Offsets

/-!
# Paths as they are written

Steps are written with dots in front of names, save for the first, and positions in brackets.  What
is written is a path that denotes the steps, as long as every name is one that a path can hold: it
is not empty and has neither a dot nor an opening bracket.  Every list of steps that is read is of
this kind, so that writing chooses one of the paths that denote it.

## Main definitions

* `Path.Step.IsWritable` : the steps that a path can hold.

## Main results

* `Path.PathText.extend` : writing one more step behind a path.
* `Path.pathText_render` : what is written denotes the steps.
* `Path.parse_iff_pathText_and_render` : which texts are read, with what they denote, and which
  lists of steps are read back from how they are written.
-/

namespace ScriptHost.Path

/-- A path can hold the step: a name that is not empty and has neither a dot nor an opening bracket,
or a position below the bound. -/
inductive Step.IsWritable : Step → Prop
  | key {name : String} (hname : name ≠ "") (hdot : '.' ∉ name.toList)
      (hbracket : '[' ∉ name.toList) : IsWritable (.key name)
  | index {i : Nat} (hi : i < indexBound) : IsWritable (.index i)

section

variable {s t : List Char} {steps : List Step} {step : Step} {i : Nat} {is : List Nat}

/-! ### Steps that are read -/

theorem GroupsText.isWritable (h : GroupsText s is) :
    ∀ step ∈ is.map Step.index, step.IsWritable := by
  induction h with
  | nil => exact List.forall_mem_nil _
  | cons ht _ ih => exact List.forall_mem_cons.2 ⟨.index ht.lt, ih⟩

theorem PartText.isWritable (h : PartText s steps) : ∀ step ∈ steps, step.IsWritable := by
  cases h with
  | @named name s is hname hdot hbracket h =>
    have hne : String.ofList name ≠ "" := mt String.ofList_eq_empty_iff.1 hname
    refine List.forall_mem_cons.2 ⟨.key hne ?_ ?_, h.isWritable⟩
    · rwa [String.toList_ofList]
    · rwa [String.toList_ofList]
  | unnamed h _ => exact h.isWritable

/-- A path can hold the steps that a path denotes. -/
theorem PathText.isWritable (h : PathText s steps) : ∀ step ∈ steps, step.IsWritable := by
  cases h with
  | empty => exact List.forall_mem_nil _
  | parts _ h =>
    intro step hstep
    obtain ⟨p, hp, hstep⟩ := List.mem_flatMap.1 hstep
    exact (h p hp).isWritable step hstep

/-! ### One more step -/

theorem indexText_digits (hi : i < indexBound) : IndexText (Decimal.digits i) i := by
  have hvalue := Decimal.ofDigits_digits i
  have htext := IndexText.digits (.inl rfl) (Decimal.isDigits_digits i) (by rwa [hvalue])
  rwa [hvalue] at htext

/-- The text of a position in brackets. -/
def group (i : Nat) : List Char := '[' :: Decimal.digits i ++ [']']

theorem GroupsText.append_group (h : GroupsText s is) (hi : i < indexBound) :
    GroupsText (s ++ group i) (is ++ [i]) := by
  induction h with
  | nil => exact .cons (indexText_digits hi) .nil
  | @cons t s j is ht _ ih =>
    have hassoc : '[' :: (t ++ ']' :: s) ++ group i = '[' :: (t ++ ']' :: (s ++ group i)) := by simp
    rw [hassoc]
    exact .cons ht ih

theorem PartText.append_group (h : PartText s steps) (hi : i < indexBound) :
    PartText (s ++ group i) (steps ++ [.index i]) := by
  cases h with
  | @named name s is hname hdot hbracket h =>
    have hpart := PartText.named hname hdot hbracket (h.append_group hi)
    rw [List.map_append] at hpart
    rwa [List.append_assoc]
  | unnamed h _ =>
    have hpart := PartText.unnamed (h.append_group hi) (List.concat_ne_nil i _)
    rwa [List.map_append] at hpart

theorem partText_name {name : String} (h : (Step.key name).IsWritable) :
    PartText name.toList [.key name] := by
  cases h with
  | key hname hdot hbracket =>
    have hne : name.toList ≠ [] := mt String.toList_eq_nil_iff.1 hname
    have hpart := PartText.named hne hdot hbracket .nil
    rwa [List.append_nil, String.ofList_toList] at hpart

/-- A further piece is joined by a further separator. -/
theorem intercalate_append_singleton {pieces : List (List Char)} (hne : pieces ≠ [])
    (sep p : List Char) :
    sep.intercalate (pieces ++ [p]) = sep.intercalate pieces ++ (sep ++ p) := by
  induction pieces with
  | nil => exact absurd rfl hne
  | cons q pieces ih =>
    cases pieces with
    | nil => simp [List.intercalate_cons_cons, List.intercalate_singleton]
    | cons r pieces =>
      have ih := ih (List.cons_ne_nil r pieces)
      rw [List.cons_append, List.cons_append, List.intercalate_cons_cons,
        List.intercalate_cons_cons, ← List.cons_append, ih]
      simp only [List.append_assoc]

/-- What is written behind the last piece is written behind all. -/
theorem intercalate_append_last (pieces : List (List Char)) (sep p q : List Char) :
    sep.intercalate (pieces ++ [p ++ q]) = sep.intercalate (pieces ++ [p]) ++ q := by
  by_cases hnil : pieces = []
  · subst hnil
    rw [List.nil_append, List.nil_append, List.intercalate_singleton, List.intercalate_singleton]
  · rw [intercalate_append_singleton hnil, intercalate_append_singleton hnil]
    simp only [List.append_assoc]

theorem pathText_part (h : PartText s steps) : PathText s steps := by
  have hall : ∀ p ∈ [(s, steps)], PartText p.1 p.2 := List.forall_mem_singleton.2 h
  have hpath := PathText.parts (List.cons_ne_nil _ _) hall
  simpa [List.intercalate_singleton] using hpath

/-- A further part is written behind a dot. -/
theorem PathText.append_part {steps' : List Step} (h : PathText s steps) (hs : s ≠ [])
    (ht : PartText t steps') : PathText (s ++ '.' :: t) (steps ++ steps') := by
  cases h with
  | empty => exact absurd rfl hs
  | @parts parts hne h =>
    have hall : ∀ p ∈ parts ++ [(t, steps')], PartText p.1 p.2 :=
      List.forall_mem_append.2 ⟨h, List.forall_mem_singleton.2 ht⟩
    have hpath := PathText.parts (List.append_ne_nil_of_left_ne_nil hne _) hall
    have hpieces : parts.map Prod.fst ≠ [] := mt List.map_eq_nil_iff.1 hne
    rw [List.map_append, List.map_singleton, intercalate_append_singleton hpieces,
      List.flatMap_append, List.flatMap_singleton] at hpath
    exact hpath

/-- A further group is written behind the last part. -/
theorem PathText.append_group (h : PathText s steps) (hi : i < indexBound) :
    PathText (s ++ group i) (steps ++ [.index i]) := by
  cases h with
  | empty =>
    exact pathText_part (.unnamed (.cons (indexText_digits hi) .nil) (List.cons_ne_nil _ _))
  | @parts parts hne h =>
    obtain ⟨parts, p, rfl⟩ := (List.eq_nil_or_concat' parts).resolve_left hne
    obtain ⟨hparts, hp⟩ := List.forall_mem_append.1 h
    have hlast := (List.forall_mem_singleton.1 hp).append_group hi
    have hall : ∀ q ∈ parts ++ [(p.1 ++ group i, p.2 ++ [Step.index i])], PartText q.1 q.2 :=
      List.forall_mem_append.2 ⟨hparts, List.forall_mem_singleton.2 hlast⟩
    have hpath := PathText.parts (List.concat_ne_nil _ parts) hall
    rw [List.map_append, List.map_singleton, intercalate_append_last, List.flatMap_append,
      List.flatMap_singleton, ← List.append_assoc] at hpath
    rw [List.map_append, List.map_singleton, List.flatMap_append, List.flatMap_singleton]
    exact hpath

/-- A name is written behind a dot, save for the first step, and a position in brackets. -/
theorem PathText.extend (h : PathText s steps) (hstep : step.IsWritable) :
    PathText (extend s step) (steps ++ [step]) := by
  cases step with
  | key name =>
    have hpart := partText_name hstep
    by_cases hs : s = []
    · subst hs
      rw [h.unique .empty]
      exact pathText_part hpart
    · have hpath := h.append_part hs hpart
      rwa [Path.extend, if_neg (mt List.isEmpty_iff.1 hs), List.append_assoc]
  | index i =>
    cases hstep with
    | index hi =>
      rw [Path.extend, List.append_assoc]
      exact h.append_group hi

end

/-! ### Writing and reading -/

theorem render_append_singleton (steps : List Step) (step : Step) :
    render (steps ++ [step]) = extend (render steps) step := by
  rw [render, render, List.foldl_append]
  rfl

/-- What is written is a path that denotes the steps. -/
theorem pathText_render {steps : List Step} (h : ∀ step ∈ steps, step.IsWritable) :
    PathText (render steps) steps := by
  induction steps using List.reverseRecOn with
  | nil => exact .empty
  | append_singleton steps step ih =>
    obtain ⟨hsteps, hstep⟩ := List.forall_mem_append.1 h
    rw [render_append_singleton]
    exact (ih hsteps).extend (List.forall_mem_singleton.1 hstep)

/-- Steps are read back from how they are written exactly if a path can hold them. -/
theorem parse_render_eq_iff {steps : List Step} :
    parse (String.ofList (render steps)) = .ok steps ↔ ∀ step ∈ steps, step.IsWritable :=
  ⟨fun h ↦ (pathText_of_parse h).isWritable, fun h ↦ (pathText_render h).parse_eq⟩

/-- Reading a path takes no piece of it that is not there.  The texts that are read are the paths,
and what is read are the steps that they denote.  Lists of steps are read back from how they are
written exactly if a path can hold each of the steps, and these are the lists that are read from any
text at all. -/
theorem parse_iff_pathText_and_render :
    (∀ path, Offsets.parse path = some (parse path)) ∧
    (∀ path steps, parse path = .ok steps ↔ PathText path.toList steps) ∧
    (∀ steps, parse (String.ofList (render steps)) = .ok steps ↔
      ∀ step ∈ steps, step.IsWritable) ∧
    ∀ steps, (∃ path, parse path = .ok steps) ↔ ∀ step ∈ steps, step.IsWritable := by
  refine ⟨Offsets.parse_eq, fun _ _ ↦ parse_eq_ok_iff_pathText, fun _ ↦ parse_render_eq_iff,
    fun steps ↦ ⟨?_, fun h ↦ ⟨_, parse_render_eq_iff.2 h⟩⟩⟩
  rintro ⟨path, h⟩
  exact (pathText_of_parse h).isWritable

end ScriptHost.Path
