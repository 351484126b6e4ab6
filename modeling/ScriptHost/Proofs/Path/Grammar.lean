import Mathlib.Tactic.Common
import ScriptHost.Path
import ScriptHost.Proofs.Json.Grammar
import ScriptHost.Proofs.Text.Lines

/-!
# The language of paths

Which texts are paths, and which steps they denote, said without a reader.  A path is made of parts
with dots between them.  A part is a name, which may be empty, and positions in brackets behind it;
one of both has to be there.  A bracket may close only behind digits, so that a dot stands in no
group and a closing bracket in a name is a character like others.

## Main definitions

* `Path.IndexText`, `Path.GroupsText`, `Path.PartText` : what a part consists of.
* `Path.PathText` : the texts that are paths.

## Main results

* `Path.readNat_eq_some_iff`, `Path.readGroups_eq_ok_iff`, `Path.readSegment_eq_ok_iff` : the
  readers accept just these texts.
* `Path.parse_eq_ok_iff_pathText` : the paths that are read, and the steps that they denote.
-/

namespace ScriptHost.Path

/-! ### Texts that are paths -/

/-- A position: decimal digits of a value below the bound, with an optional plus sign. -/
inductive IndexText : List Char → Nat → Prop
  | digits {sign ds : List Char} (hsign : sign = [] ∨ sign = ['+']) (hds : Json.IsDigits ds)
      (hbound : Decimal.ofDigits ds < indexBound) : IndexText (sign ++ ds) (Decimal.ofDigits ds)

/-- Any number of positions in brackets, one behind the other. -/
inductive GroupsText : List Char → List Nat → Prop
  | nil : GroupsText [] []
  | cons {t s : List Char} {i : Nat} {is : List Nat} (ht : IndexText t i) (h : GroupsText s is) :
      GroupsText ('[' :: (t ++ ']' :: s)) (i :: is)

/-- A name without dots and opening brackets and any number of groups behind it, or at least one
group alone. -/
inductive PartText : List Char → List Step → Prop
  | named {name s : List Char} {is : List Nat} (hname : name ≠ []) (hdot : '.' ∉ name)
      (hbracket : '[' ∉ name) (h : GroupsText s is) :
      PartText (name ++ s) (.key (String.ofList name) :: is.map .index)
  | unnamed {s : List Char} {is : List Nat} (h : GroupsText s is) (hne : is ≠ []) :
      PartText s (is.map .index)

/-- The empty text, or parts with dots between them. -/
inductive PathText : List Char → List Step → Prop
  | empty : PathText [] []
  | parts {parts : List (List Char × List Step)} (hne : parts ≠ [])
      (h : ∀ p ∈ parts, PartText p.1 p.2) :
      PathText (['.'].intercalate (parts.map Prod.fst)) (parts.flatMap Prod.snd)

/-! ### Positions -/

section Positions

variable {s ds : List Char} {i : Nat}

/-- The value of digits within the bound. -/
theorem readDigits_eq_some_iff {bound : Nat} :
    (if ds.isEmpty || !ds.all Char.isDigit then none
      else if Decimal.ofDigits ds < bound then some (Decimal.ofDigits ds) else none) = some i ↔
      Json.IsDigits ds ∧ Decimal.ofDigits ds < bound ∧ Decimal.ofDigits ds = i := by
  have hdigits : (ds.isEmpty || !ds.all Char.isDigit) = false ↔ Json.IsDigits ds := by
    simp [Json.IsDigits]
  by_cases hds : Json.IsDigits ds
  · rw [hdigits.2 hds, if_neg Bool.false_ne_true]
    split_ifs with hbound
    · simp [hds, hbound]
    · simp [hbound]
  · rw [if_pos (Bool.of_not_eq_false fun hfalse ↦ hds (hdigits.1 hfalse))]
    simp [hds]

/-- Digits begin with no sign. -/
theorem readNat_of_isDigits (bound : Nat) (hds : Json.IsDigits ds) :
    Decimal.readNat bound ds = Decimal.readNat bound ('+' :: ds) := by
  obtain ⟨c, ds, rfl⟩ := List.exists_cons_of_ne_nil hds.1
  have hc : c ≠ '+' := by
    rintro rfl
    exact absurd (hds.2 '+' List.mem_cons_self) (by decide)
  unfold Decimal.readNat
  split
  · rename_i heq
    exact absurd (List.cons.inj heq).1 hc
  · rfl

theorem readNat_eq_some_iff : Decimal.readNat indexBound s = some i ↔ IndexText s i := by
  constructor
  · intro h
    unfold Decimal.readNat at h
    split at h
    · obtain ⟨hds, hbound, rfl⟩ := readDigits_eq_some_iff.1 h
      exact .digits (.inr rfl) hds hbound
    · obtain ⟨hds, hbound, rfl⟩ := readDigits_eq_some_iff.1 h
      exact .digits (.inl rfl) hds hbound
  · rintro ⟨rfl | rfl, hds, hbound⟩
    · rw [List.nil_append, readNat_of_isDigits _ hds]
      exact readDigits_eq_some_iff.2 ⟨hds, hbound, rfl⟩
    · exact readDigits_eq_some_iff.2 ⟨hds, hbound, rfl⟩

/-- A position is written with digits and a sign. -/
theorem IndexText.notMem (h : IndexText s i) {c : Char} (hc : c ≠ '+')
    (hdigit : c.isDigit = false) : c ∉ s := by
  obtain ⟨hsign, hds, -⟩ := h
  rw [List.mem_append]
  rintro (hmem | hmem)
  · rcases hsign with rfl | rfl
    · exact List.not_mem_nil hmem
    · exact hc (List.mem_singleton.1 hmem)
  · rw [hds.2 c hmem] at hdigit
    cases hdigit

theorem IndexText.lt (h : IndexText s i) : i < indexBound := by
  obtain ⟨-, -, hbound⟩ := h
  exact hbound

end Positions

/-! ### Groups -/

section Groups

variable {t s : List Char} {steps : List Step} {is : List Nat}

/-- A group ends at its first closing bracket. -/
theorem readGroups_cons (ht : ']' ∉ t) (s : List Char) :
    readGroups ('[' :: (t ++ ']' :: s)) =
      match Decimal.readNat indexBound t with
      | none => .error .badIndex
      | some i => (readGroups s).map (.index i :: ·) := by
  have hsplit := Text.splitOnce_eq_some_iff.2 (⟨rfl, ht⟩ : t ++ ']' :: s = t ++ ']' :: s ∧ _)
  rw [readGroups]
  split
  · rename_i hnone
    rw [hsplit] at hnone
    cases hnone
  · rename_i inside after hsome
    obtain ⟨rfl, rfl⟩ := Prod.mk.inj (Option.some.inj (hsplit.symm.trans hsome))
    cases Decimal.readNat indexBound t with
    | none => rfl
    | some i => cases readGroups s <;> rfl

/-- A bracket that is not closed. -/
theorem readGroups_of_notMem (hs : ']' ∉ s) : readGroups ('[' :: s) = .error .unclosedBracket := by
  have hsplit := Text.splitOnce_eq_none_iff.2 hs
  rw [readGroups]
  split
  · rfl
  · rename_i hsome
    rw [hsplit] at hsome
    cases hsome

/-- What follows a group has to be another one. -/
theorem readGroups_of_head? (hs : ¬(s = [] ∨ s.head? = some '[')) :
    readGroups s = .error (.unexpected (String.ofList s)) := by
  rw [readGroups]
  · exact fun heq ↦ hs (.inl heq)
  · rintro s' rfl
    exact hs (.inr rfl)

/-- Groups are nothing or begin with a bracket. -/
theorem GroupsText.head? (h : GroupsText s is) : s = [] ∨ s.head? = some '[' := by
  cases h with
  | nil => exact .inl rfl
  | cons _ _ => exact .inr rfl

theorem GroupsText.notMem_dot (h : GroupsText s is) : '.' ∉ s := by
  induction h with
  | nil => exact List.not_mem_nil
  | cons ht _ ih =>
    have ht := ht.notMem (c := '.') (by decide) (by decide)
    simp [ht, ih]

theorem GroupsText.eq_nil_iff (h : GroupsText s is) : s = [] ↔ is = [] := by
  cases h <;> simp

theorem GroupsText.readGroups_eq (h : GroupsText s is) : readGroups s = .ok (is.map .index) := by
  induction h with
  | nil => rw [readGroups]; rfl
  | cons ht _ ih =>
    have hbracket := ht.notMem (c := ']') (by decide) (by decide)
    rw [readGroups_cons hbracket, readNat_eq_some_iff.2 ht, ih]
    rfl

theorem exists_groupsText (h : readGroups s = .ok steps) :
    ∃ is, GroupsText s is ∧ steps = is.map .index := by
  fun_induction readGroups s generalizing steps with
  | case1 =>
    cases h
    exact ⟨[], .nil, rfl⟩
  | case2 => cases h
  | case3 => cases h
  | case4 s inside after hsplit i hi hlt groups hgroups ih =>
    obtain ⟨is, his, rfl⟩ := ih hgroups
    cases h
    rw [(Text.splitOnce_eq_some_iff.1 hsplit).1]
    exact ⟨i :: is, .cons (readNat_eq_some_iff.1 hi) his, rfl⟩
  | case5 => cases h
  | case6 => cases h

theorem readGroups_eq_ok_iff :
    readGroups s = .ok steps ↔ ∃ is, GroupsText s is ∧ steps = is.map .index := by
  refine ⟨exists_groupsText, ?_⟩
  rintro ⟨is, h, rfl⟩
  exact h.readGroups_eq

end Groups

/-! ### Parts -/

section Parts

variable {name s : List Char} {steps : List Step}

/-- A segment is a name and what follows from the first bracket on. -/
theorem exists_name_append (s : List Char) :
    ∃ name rest, s = name ++ rest ∧ '[' ∉ name ∧ (rest = [] ∨ rest.head? = some '[') := by
  by_cases hbracket : '[' ∈ s
  · obtain ⟨name, rest, rfl, hname⟩ := List.eq_append_cons_of_mem hbracket
    exact ⟨name, '[' :: rest, rfl, hname, .inr rfl⟩
  · exact ⟨s, [], (List.append_nil s).symm, hbracket, .inl rfl⟩

/-- A name ends in front of the first bracket. -/
theorem span_name (hname : '[' ∉ name) (hs : s = [] ∨ s.head? = some '[') :
    (name ++ s).takeWhile (· != '[') = name ∧ (name ++ s).dropWhile (· != '[') = s := by
  have hall : ∀ c ∈ name, (c != '[') = true := fun c hc ↦ bne_iff_ne.2 fun heq ↦ hname (heq ▸ hc)
  rw [List.takeWhile_append_of_pos hall, List.dropWhile_append_of_pos hall]
  rcases hs with rfl | hs
  · exact ⟨List.append_nil name, rfl⟩
  · obtain ⟨s, rfl⟩ := List.head?_eq_some_iff.1 hs
    exact ⟨List.append_nil name, rfl⟩

theorem PartText.ne_nil (h : PartText s steps) : s ≠ [] := by
  cases h with
  | named hname => simp [hname]
  | unnamed h hne => exact mt h.eq_nil_iff.1 hne

theorem PartText.notMem_dot (h : PartText s steps) : '.' ∉ s := by
  cases h with
  | named _ hdot _ h => simp [hdot, h.notMem_dot]
  | unnamed h _ => exact h.notMem_dot

theorem PartText.readSegment_eq (h : PartText s steps) : readSegment s = .ok steps := by
  rw [readSegment, if_neg (mt List.isEmpty_iff.1 h.ne_nil)]
  cases h with
  | @named name s is hname _ hbracket h =>
    obtain ⟨htake, hdrop⟩ := span_name hbracket h.head?
    simp only [htake, hdrop, h.readGroups_eq, List.isEmpty_eq_false_iff.2 hname]
    rfl
  | unnamed h _ =>
    obtain ⟨htake, hdrop⟩ := span_name (List.not_mem_nil (a := '[')) h.head?
    rw [List.nil_append] at htake hdrop
    simp only [htake, hdrop, h.readGroups_eq]
    rfl

theorem partText_of_readSegment (hdot : '.' ∉ s) (h : readSegment s = .ok steps) :
    PartText s steps := by
  obtain ⟨name, rest, rfl, hname, hrest⟩ := exists_name_append s
  obtain ⟨htake, hdrop⟩ := span_name hname hrest
  unfold readSegment at h
  split_ifs at h with hempty
  simp only [htake, hdrop] at h
  split at h
  · rename_i groups hgroups
    obtain ⟨is, his, rfl⟩ := exists_groupsText hgroups
    cases h
    split_ifs with hnil
    · obtain rfl := List.isEmpty_iff.1 hnil
      exact .unnamed his fun heq ↦ hempty (List.isEmpty_iff.2 (his.eq_nil_iff.2 heq))
    · exact .named (mt List.isEmpty_iff.2 hnil) (fun hmem ↦ hdot (List.mem_append_left _ hmem))
        hname his
  · cases h

theorem readSegment_eq_ok_iff (hdot : '.' ∉ s) : readSegment s = .ok steps ↔ PartText s steps :=
  ⟨partText_of_readSegment hdot, PartText.readSegment_eq⟩

end Parts

/-! ### Paths -/

/-- Each of some readings gives its result. -/
theorem mapM_eq_ok_iff {ε α β : Type} {f : α → Except ε β} {as : List α} {bs : List β} :
    as.mapM f = .ok bs ↔
      ∃ ps : List (α × β), ps.map Prod.fst = as ∧ ps.map Prod.snd = bs ∧
        ∀ p ∈ ps, f p.1 = .ok p.2 := by
  induction as generalizing bs with
  | nil =>
    rw [List.mapM_nil]
    constructor
    · rintro ⟨⟩
      exact ⟨[], rfl, rfl, List.forall_mem_nil _⟩
    · rintro ⟨ps, hps, rfl, -⟩
      rw [List.map_eq_nil_iff.1 hps]
      rfl
  | cons a as ih =>
    rw [List.mapM_cons]
    constructor
    · intro h
      cases ha : f a with
      | error e =>
        rw [ha] at h
        cases h
      | ok b =>
        cases has : as.mapM f with
        | error e =>
          rw [ha, has] at h
          cases h
        | ok bs =>
          rw [ha, has] at h
          cases h
          obtain ⟨ps, rfl, rfl, hps⟩ := ih.1 has
          exact ⟨(a, b) :: ps, rfl, rfl, List.forall_mem_cons.2 ⟨ha, hps⟩⟩
    · rintro ⟨ps, hfst, rfl, hps⟩
      obtain ⟨p, ps, rfl, rfl, rfl⟩ := List.map_eq_cons_iff.1 hfst
      obtain ⟨hp, hps⟩ := List.forall_mem_cons.1 hps
      rw [hp, ih.2 ⟨ps, rfl, rfl, hps⟩]
      rfl

/-- A path that is not empty is read part by part. -/
theorem parse_of_ne_empty {path : String} (hne : path ≠ "") :
    parse path = ((path.toList.splitOn '.').mapM readSegment).map List.flatten := by
  rw [parse, if_neg (mt eq_of_beq hne)]
  cases (path.toList.splitOn '.').mapM readSegment <;> rfl

/-- The parts of a path are what stands between its dots. -/
theorem splitOn_parts {parts : List (List Char × List Step)} (hne : parts ≠ [])
    (h : ∀ p ∈ parts, PartText p.1 p.2) :
    (['.'].intercalate (parts.map Prod.fst)).splitOn '.' = parts.map Prod.fst :=
  List.splitOn_intercalate '.'
    (List.forall_mem_map.2 fun p hp ↦ (h p hp).notMem_dot) (mt List.map_eq_nil_iff.1 hne)

/-- Parts are no empty text. -/
theorem intercalate_parts_ne_nil {parts : List (List Char × List Step)} (hne : parts ≠ [])
    (h : ∀ p ∈ parts, PartText p.1 p.2) : ['.'].intercalate (parts.map Prod.fst) ≠ [] := by
  intro hnil
  have hsplit := splitOn_parts hne h
  rw [hnil, List.splitOn_nil] at hsplit
  obtain ⟨p, hp, hpart⟩ := List.mem_map.1 (hsplit ▸ List.mem_cons_self : [] ∈ parts.map Prod.fst)
  exact (h p hp).ne_nil hpart

theorem PathText.parse_eq {s : List Char} {steps : List Step} (h : PathText s steps) :
    parse (String.ofList s) = .ok steps := by
  cases h with
  | empty => rfl
  | @parts parts hne h =>
    have hempty : String.ofList (['.'].intercalate (parts.map Prod.fst)) ≠ "" := fun heq ↦
      intercalate_parts_ne_nil hne h (String.ofList_eq_empty_iff.1 heq)
    have hread : (parts.map Prod.fst).mapM readSegment = .ok (parts.map Prod.snd) :=
      mapM_eq_ok_iff.2 ⟨parts, rfl, rfl, fun p hp ↦ (h p hp).readSegment_eq⟩
    rw [parse_of_ne_empty hempty, String.toList_ofList, splitOn_parts hne h, hread,
      List.flatMap_def]
    rfl

/-- A path denotes one list of steps. -/
theorem PathText.unique {s : List Char} {steps steps' : List Step} (h : PathText s steps)
    (h' : PathText s steps') : steps = steps' :=
  Except.ok.inj (h.parse_eq.symm.trans h'.parse_eq)

theorem pathText_of_parse {path : String} {steps : List Step} (h : parse path = .ok steps) :
    PathText path.toList steps := by
  by_cases hempty : path = ""
  · subst hempty
    cases h
    exact .empty
  · rw [parse_of_ne_empty hempty] at h
    cases hread : (path.toList.splitOn '.').mapM readSegment with
    | error fault =>
      rw [hread] at h
      cases h
    | ok stepss =>
      rw [hread] at h
      obtain ⟨parts, hsplit, rfl, hparts⟩ := mapM_eq_ok_iff.1 hread
      have hne : parts ≠ [] := by
        rintro rfl
        exact List.splitOn_ne_nil _ _ hsplit.symm
      have hpart : ∀ p ∈ parts, PartText p.1 p.2 := fun p hp ↦
        partText_of_readSegment
          (Text.notMem_of_mem_splitOn (hsplit ▸ List.mem_map_of_mem hp)) (hparts p hp)
      have hpath := PathText.parts hne hpart
      rw [hsplit, List.intercalate_splitOn, List.flatMap_def] at hpath
      cases h
      exact hpath

/-- The texts that are read are the paths, and what is read are the steps that they denote. -/
theorem parse_eq_ok_iff_pathText {path : String} {steps : List Step} :
    parse path = .ok steps ↔ PathText path.toList steps := by
  refine ⟨pathText_of_parse, fun h ↦ ?_⟩
  have hparse := h.parse_eq
  rwa [String.ofList_toList] at hparse

end ScriptHost.Path
