import ScriptHost.Proofs.Json.NumberTokens
import ScriptHost.Proofs.Json.OpenContainers
import ScriptHost.Proofs.Json.Writing

/-!
# Two layouts of one text

The indented text of a value is its compact text with spaces and line breaks put between the tokens.
Within string literals nothing is put: the literals of both texts are the same.  A line break is
followed by two spaces for each container that is open there, where a container that is closed next
does not count, and in an empty container there is none.

A text is scanned with the knowledge of whether it stands in a literal and of how many containers
are open.  What the writers do is said of any text that follows, so that each token is gone through
once.

## Main definitions

* `Json.squeeze` : a text without the spaces and line breaks between its literals.
* `Json.literals` : the string literals of a text.
* `Json.IsIndentation` : what follows a line break.

## Main results

* `Json.squeezeFrom_writeAt` : the indented text of a tree, squeezed, is the compact one.
* `Json.isLaidOutFrom_writeAt` : the line breaks in the indented text of a tree.
* `Json.squeeze_pretty_and_indentation` : the two texts of a value.
-/

namespace ScriptHost.Json

/-- A space or a line break. -/
def isSpacing (c : Char) : Bool := c == ' ' || c == '\n'

/-- A text without the spaces and line breaks between literals, from some place of a scan on. -/
def squeezeFrom : Scan → List Char → List Char
  | _, [] => []
  | scan, c :: s =>
    if scan.region = .between ∧ isSpacing c = true then squeezeFrom (scan.step c) s
    else c :: squeezeFrom (scan.step c) s

/-- A text without the spaces and line breaks between its literals. -/
def squeeze (s : List Char) : List Char := squeezeFrom ⟨.between, 0⟩ s

/-- The string literals of a text with their quotes, from some place of a scan on, where `begun` is
what there is so far of the literal in which the scan stands. -/
def literalsFrom : Scan → (begun : List Char) → List Char → List (List Char)
  | _, _, [] => []
  | scan, begun, c :: s =>
    let next := scan.step c
    if next.region ≠ .between then literalsFrom next (begun ++ [c]) s
    else if scan.region = .between then literalsFrom next [] s
    else (begun ++ [c]) :: literalsFrom next [] s

/-- The string literals of a text, with their quotes. -/
def literals (s : List Char) : List (List Char) := literalsFrom ⟨.between, 0⟩ [] s

/-- Where a text ends: between literals, in one, or behind a backslash in one. -/
def regionAfter (s : List Char) : Region := (s.foldl Scan.step ⟨.between, 0⟩).region

/-- What follows a line break where so many containers are open: spaces of this width for each of
them, and then a token.  If the token closes a container, that one does not count. -/
def IsIndentation (width opened : Nat) (after : List Char) : Prop :=
  ∃ c s, isSpacing c = false ∧
    after =
      List.replicate ((if c = ']' ∨ c = '}' then opened - 1 else opened) * width) ' ' ++ c :: s

/-- An opening bracket and what follows it: nothing but its closing bracket, if this comes next but
for spaces and line breaks. -/
def IsOpening (after : List Char) : Prop :=
  ∀ blank c s, after = blank ++ c :: s → (∀ b ∈ blank, isSpacing b = true) → c = ']' ∨ c = '}' →
    blank = []

/-- A character between literals and what follows it: a line break is indented, and an opening
bracket has no line break behind it unless there is something in its container. -/
structure IsLaidOutAt (width opened : Nat) (c : Char) (after : List Char) : Prop where
  lineBreak : c = '\n' → IsIndentation width opened after
  opening : c = '[' ∨ c = '{' → IsOpening after

/-- Every character between literals is laid out, from some place of a scan on. -/
def IsLaidOutFrom (width : Nat) : Scan → List Char → Prop
  | _, [] => True
  | scan, c :: s =>
    (scan.region = .between → IsLaidOutAt width scan.opened c s) ∧
      IsLaidOutFrom width (scan.step c) s

/-- No part of the text is between literals. -/
def StaysInside : Scan → List Char → Prop
  | _, [] => True
  | scan, c :: s => scan.region ≠ .between ∧ StaysInside (scan.step c) s

/-- A text without quotes, brackets, braces and spacing. -/
def IsWord (s : List Char) : Prop := ∀ c ∈ s, IsInert c ∧ isSpacing c = false

/-- What a value or a name begins with: neither spacing nor the end of a container. -/
def IsTokenStart (c : Char) : Prop := isSpacing c = false ∧ ¬(c = ']' ∨ c = '}')

section

variable {width n : Nat} {scan : Scan} {s k text rest : List Char} {c : Char}

/-! ### Scanning in parts -/

theorem squeezeFrom_append (s t : List Char) :
    squeezeFrom scan (s ++ t) = squeezeFrom scan s ++ squeezeFrom (s.foldl Scan.step scan) t := by
  induction s generalizing scan with
  | nil => rfl
  | cons c s ih =>
    simp only [List.cons_append, squeezeFrom, List.foldl_cons, ih]
    split_ifs <;> rfl

/-- Spacing between literals does not count. -/
theorem isInert_of_isSpacing (hc : isSpacing c = true) : IsInert c := by
  simp only [isSpacing, Bool.or_eq_true, beq_iff_eq] at hc
  rcases hc with rfl | rfl <;> simp [IsInert]

/-- What is taken out lies between literals. -/
theorem literalsFrom_squeezeFrom (s : List Char) (scan : Scan) (begun : List Char)
    (hbegun : scan.region = .between → begun = []) :
    literalsFrom scan begun (squeezeFrom scan s) = literalsFrom scan begun s := by
  induction s generalizing scan begun with
  | nil => rfl
  | cons c s ih =>
    rw [squeezeFrom]
    split_ifs with hspacing
    · obtain ⟨region, opened⟩ := scan
      obtain ⟨rfl, hc⟩ := hspacing
      have hstep := (isInert_of_isSpacing hc).step_eq opened
      rw [literalsFrom, hstep, ih _ _ hbegun, hbegun rfl]
      rfl
    · simp only [literalsFrom]
      split_ifs with hnext hregion
      · exact ih _ _ fun h ↦ absurd h hnext
      · exact ih _ _ fun _ ↦ rfl
      · exact congrArg (_ :: ·) (ih _ _ fun _ ↦ rfl)

theorem literals_squeeze (s : List Char) : literals (squeeze s) = literals s :=
  literalsFrom_squeezeFrom s _ [] fun _ ↦ rfl

/-- What is laid out, at every place of the text. -/
theorem IsLaidOutFrom.isLaidOutAt (h : IsLaidOutFrom width scan s) {before after : List Char}
    (hs : s = before ++ c :: after) (hregion : (before.foldl Scan.step scan).region = .between) :
    IsLaidOutAt width (before.foldl Scan.step scan).opened c after := by
  subst hs
  induction before generalizing scan with
  | nil => exact h.1 hregion
  | cons b before ih => exact ih hregion h.2

/-! ### Literals -/

theorem StaysInside.squeezeFrom_eq (h : StaysInside scan k) : squeezeFrom scan k = k := by
  induction k generalizing scan with
  | nil => rfl
  | cons c k ih => rw [squeezeFrom, if_neg fun hspacing ↦ h.1 hspacing.1, ih h.2]

theorem StaysInside.isLaidOutFrom (h : StaysInside scan k)
    (hrest : IsLaidOutFrom width (k.foldl Scan.step scan) rest) :
    IsLaidOutFrom width scan (k ++ rest) := by
  induction k generalizing scan with
  | nil => exact hrest
  | cons c k ih => exact ⟨fun hregion ↦ absurd hregion h.1, ih h.2 hrest⟩

/-- What stands in a literal is inside of it. -/
theorem StringText.staysInside (h : StringText k text) (n : Nat) :
    StaysInside ⟨.literal, n⟩ k := by
  have hplain {c : Char} {s : List Char} (hc : c ≠ '"' ∧ c ≠ '\\')
      (hs : StaysInside ⟨.literal, n⟩ s) : StaysInside ⟨.literal, n⟩ (c :: s) := by
    refine ⟨Region.noConfusion, ?_⟩
    rw [Scan.step, if_neg hc.1, if_neg hc.2]
    exact hs
  have hescape {c : Char} {s : List Char} (hs : StaysInside ⟨.literal, n⟩ s) :
      StaysInside ⟨.literal, n⟩ ('\\' :: c :: s) :=
    ⟨Region.noConfusion, Region.noConfusion, hs⟩
  induction h with
  | nil => exact True.intro
  | plain hquote hbackslash h ih => exact hplain ⟨hquote, hbackslash⟩ ih
  | short he h ih => exact hescape ih
  | ascii h₃ h₂ h₁ h₀ hn h ih =>
    exact hescape (hplain h₃.ne (hplain h₂.ne (hplain h₁.ne (hplain h₀.ne ih))))
  | beyond h₃ h₂ h₁ h₀ hn h ih =>
    exact hescape (hplain h₃.ne (hplain h₂.ne (hplain h₁.ne (hplain h₀.ne ih))))

/-- Nothing is taken out of a literal. -/
theorem squeezeFrom_quoted (name : String) (rest : List Char) :
    squeezeFrom ⟨.between, n⟩ (quoted name rest) =
      quoted name (squeezeFrom ⟨.between, n⟩ rest) := by
  obtain ⟨k, hk, hquoted⟩ := exists_stringText_quoted name
  have hopening (s : List Char) :
      squeezeFrom ⟨.between, n⟩ ('"' :: s) = '"' :: squeezeFrom ⟨.literal, n⟩ s := rfl
  have hclosing (s : List Char) :
      squeezeFrom ⟨.literal, n⟩ ('"' :: s) = '"' :: squeezeFrom ⟨.between, n⟩ s := rfl
  rw [hquoted, hquoted, hopening, squeezeFrom_append, (hk.staysInside n).squeezeFrom_eq,
    hk.foldl_step n, hclosing]

theorem isLaidOutFrom_quoted (name : String) (h : IsLaidOutFrom width ⟨.between, n⟩ rest) :
    IsLaidOutFrom width ⟨.between, n⟩ (quoted name rest) := by
  obtain ⟨k, hk, hquoted⟩ := exists_stringText_quoted name
  rw [hquoted]
  refine ⟨fun _ ↦ ⟨nofun, nofun⟩, (hk.staysInside n).isLaidOutFrom ?_⟩
  rw [hk.foldl_step n]
  exact ⟨nofun, h⟩

/-! ### Words -/

theorem IsWord.squeezeFrom_append (hs : IsWord s) (rest : List Char) :
    squeezeFrom ⟨.between, n⟩ (s ++ rest) = s ++ squeezeFrom ⟨.between, n⟩ rest := by
  induction s with
  | nil => rfl
  | cons c s ih =>
    obtain ⟨⟨hinert, hspacing⟩, hs⟩ := List.forall_mem_cons.1 hs
    rw [List.cons_append, squeezeFrom, if_neg (by simp [hspacing]), hinert.step_eq, ih hs]
    rfl

theorem isLaidOutFrom_cons (hc : IsInert c) (hspacing : isSpacing c = false)
    (h : IsLaidOutFrom width ⟨.between, n⟩ rest) :
    IsLaidOutFrom width ⟨.between, n⟩ (c :: rest) := by
  refine ⟨fun _ ↦ ⟨?_, ?_⟩, ?_⟩
  · rintro rfl
    cases hspacing
  · rintro (rfl | rfl) <;> simp [IsInert] at hc
  · rw [hc.step_eq n]
    exact h

theorem IsWord.isLaidOutFrom (hs : IsWord s) (h : IsLaidOutFrom width ⟨.between, n⟩ rest) :
    IsLaidOutFrom width ⟨.between, n⟩ (s ++ rest) := by
  induction s with
  | nil => exact h
  | cons c s ih =>
    obtain ⟨⟨hinert, hspacing⟩, hs⟩ := List.forall_mem_cons.1 hs
    exact isLaidOutFrom_cons hinert hspacing (ih hs)

theorem isWord_null : IsWord ['n', 'u', 'l', 'l'] := by simp [IsWord, IsInert, isSpacing]

theorem isWord_true : IsWord ['t', 'r', 'u', 'e'] := by simp [IsWord, IsInert, isSpacing]

theorem isWord_false : IsWord ['f', 'a', 'l', 's', 'e'] := by simp [IsWord, IsInert, isSpacing]

theorem NumberText.isWord {x : Double} (h : NumberText k x) : IsWord k := by
  have hne {c d : Char} (hc : Json.isNumberChar c = true) (hd : Json.isNumberChar d = false) :
      c ≠ d := by
    rintro rfl
    cases hc.symm.trans hd
  intro c hmem
  have hc := h.isNumberChar c hmem
  refine ⟨?_, ?_⟩
  · simp only [IsInert, List.mem_cons, List.not_mem_nil, or_false, not_or]
    exact ⟨hne hc rfl, hne hc rfl, hne hc rfl, hne hc rfl, hne hc rfl⟩
  · rw [isSpacing, beq_eq_false_iff_ne.2 (hne hc rfl), beq_eq_false_iff_ne.2 (hne hc rfl)]
    rfl

/-- The text of a number is a word that is not empty. -/
theorem isWord_numeral (x : Double) : IsWord (numeral x) ∧ numeral x ≠ [] := by
  rw [numeral]
  split_ifs with hfinite
  · obtain ⟨y, hy⟩ := Double.exists_numberText_text hfinite
    refine ⟨hy.isWord, fun hnil ↦ ?_⟩
    have hbegins := hy.beginsNumber
    rw [hnil] at hbegins
    cases hbegins
  · exact ⟨isWord_null, List.cons_ne_nil _ _⟩

end

/-! ### The compact text -/

section

variable {width n : Nat}

/-- Line breaks are taken out. -/
theorem squeezeFrom_newline (depth : Nat) (rest : List Char) :
    squeezeFrom ⟨.between, n⟩ ((Layout.indented width).newline depth rest) =
      Layout.compact.newline depth (squeezeFrom ⟨.between, n⟩ rest) := by
  have hspaces (k : Nat) : squeezeFrom ⟨.between, n⟩ (List.replicate k ' ' ++ rest) =
      squeezeFrom ⟨.between, n⟩ rest := by
    induction k with
    | zero => rfl
    | succ k ih => exact ih
  exact hspaces (depth * width)

theorem squeezeFrom_name (name : String) (rest : List Char) :
    squeezeFrom ⟨.between, n⟩ ((Layout.indented width).name name rest) =
      Layout.compact.name name (squeezeFrom ⟨.between, n⟩ rest) :=
  squeezeFrom_quoted name _

mutual

/-- The indented text of a tree, squeezed, is the compact one, whatever follows. -/
theorem squeezeFrom_writeAt : ∀ (t : Tree) (n depth : Nat) (rest : List Char),
    squeezeFrom ⟨.between, n⟩ (writeAt (.indented width) depth t rest) =
      writeAt .compact depth t (squeezeFrom ⟨.between, n⟩ rest)
  | .nil, _, _, rest => isWord_null.squeezeFrom_append rest
  | .number x, _, _, rest => (isWord_numeral x).1.squeezeFrom_append rest
  | .boolean true, _, _, rest => isWord_true.squeezeFrom_append rest
  | .boolean false, _, _, rest => isWord_false.squeezeFrom_append rest
  | .string s, _, _, rest => squeezeFrom_quoted s rest
  | .node shape [], n, depth, rest => by
    simp only [writeAt]
    split_ifs <;> rfl
  | .node shape (m :: ms), n, depth, rest => by
    have hmembers := squeezeFrom_writeMembers (m :: ms) (n + 1) (depth + 1)
    have hbracket (s : List Char) :
        squeezeFrom ⟨.between, n⟩ ('[' :: s) = '[' :: squeezeFrom ⟨.between, n + 1⟩ s := rfl
    have hbracket' (s : List Char) :
        squeezeFrom ⟨.between, n + 1⟩ (']' :: s) = ']' :: squeezeFrom ⟨.between, n⟩ s := rfl
    have hbrace (s : List Char) :
        squeezeFrom ⟨.between, n⟩ ('{' :: s) = '{' :: squeezeFrom ⟨.between, n + 1⟩ s := rfl
    have hbrace' (s : List Char) :
        squeezeFrom ⟨.between, n + 1⟩ ('}' :: s) = '}' :: squeezeFrom ⟨.between, n⟩ s := rfl
    simp only [writeAt]
    split_ifs
    · rw [hbracket, hmembers, squeezeFrom_newline, hbracket']
    · rw [hbrace, hmembers, squeezeFrom_newline, hbrace']

/-- The indented text of members, squeezed, is the compact one, whatever follows. -/
theorem squeezeFrom_writeMembers : ∀ (ms : List (String × Tree)) (n depth : Nat)
    (array comma : Bool) (rest : List Char),
    squeezeFrom ⟨.between, n⟩ (writeMembers (.indented width) depth array comma ms rest) =
      writeMembers .compact depth array comma ms (squeezeFrom ⟨.between, n⟩ rest)
  | [], _, _, _, _, _ => rfl
  | (name, t) :: ms, n, depth, array, comma, rest => by
    have hcomma (s : List Char) :
        squeezeFrom ⟨.between, n⟩ (',' :: s) = ',' :: squeezeFrom ⟨.between, n⟩ s := rfl
    have hshown := squeezeFrom_writeAt t n depth
      (writeMembers (.indented width) depth array true ms rest)
    rw [squeezeFrom_writeMembers ms] at hshown
    simp only [writeMembers]
    split_ifs <;>
      simp only [hcomma, squeezeFrom_newline, squeezeFrom_name, hshown]

end

end

/-! ### The indented text -/

section

variable {width n : Nat} {rest : List Char}

theorem IsWord.isTokenStart {c : Char} {s : List Char} (h : IsWord (c :: s)) : IsTokenStart c := by
  obtain ⟨hinert, hspacing⟩ := h c List.mem_cons_self
  simp only [IsInert, List.mem_cons, List.not_mem_nil, or_false, not_or] at hinert
  exact ⟨hspacing, not_or.2 hinert.2.2.2⟩

/-- What the text of a tree begins with. -/
theorem exists_writeAt_eq_cons (layout : Layout) (depth : Nat) (t : Tree) (rest : List Char) :
    ∃ c s, writeAt layout depth t rest = c :: s ∧ IsTokenStart c := by
  cases t with
  | nil => exact ⟨_, _, rfl, isWord_null.isTokenStart⟩
  | number x =>
    obtain ⟨hword, hne⟩ := isWord_numeral x
    obtain ⟨c, s, hnumeral⟩ := List.exists_cons_of_ne_nil hne
    rw [hnumeral] at hword
    exact ⟨c, s ++ rest, by rw [writeAt, hnumeral, List.cons_append], hword.isTokenStart⟩
  | boolean b =>
    cases b with
    | true => exact ⟨_, _, rfl, isWord_true.isTokenStart⟩
    | false => exact ⟨_, _, rfl, isWord_false.isTokenStart⟩
  | string s => exact ⟨_, _, rfl, by decide, by decide⟩
  | node shape ms =>
    cases ms with
    | nil =>
      simp only [writeAt]
      split_ifs
      · exact ⟨_, _, rfl, by decide, by decide⟩
      · exact ⟨_, _, rfl, by decide, by decide⟩
    | cons m ms =>
      simp only [writeAt]
      split_ifs
      · exact ⟨_, _, rfl, by decide, by decide⟩
      · exact ⟨_, _, rfl, by decide, by decide⟩

/-- A line break in front of a token. -/
theorem isLaidOutFrom_newline {depth : Nat} {c : Char} {s : List Char} (hc : isSpacing c = false)
    (hdepth : (if c = ']' ∨ c = '}' then n - 1 else n) = depth)
    (h : IsLaidOutFrom width ⟨.between, n⟩ (c :: s)) :
    IsLaidOutFrom width ⟨.between, n⟩ ((Layout.indented width).newline depth (c :: s)) := by
  have hspaces (k : Nat) :
      IsLaidOutFrom width ⟨.between, n⟩ (List.replicate k ' ' ++ c :: s) := by
    induction k with
    | zero => exact h
    | succ k ih => exact ⟨fun _ ↦ ⟨nofun, nofun⟩, ih⟩
  exact ⟨fun _ ↦ ⟨fun _ ↦ ⟨c, s, hc, by rw [hdepth]⟩, nofun⟩, hspaces _⟩

/-- A line break in front of a value or a name. -/
theorem isLaidOutFrom_newline_of_start {text : List Char}
    (hstart : ∃ c s, text = c :: s ∧ IsTokenStart c)
    (h : IsLaidOutFrom width ⟨.between, n⟩ text) :
    IsLaidOutFrom width ⟨.between, n⟩ ((Layout.indented width).newline n text) := by
  obtain ⟨c, s, rfl, hspacing, hclosing⟩ := hstart
  exact isLaidOutFrom_newline hspacing (if_neg hclosing) h

/-- With spacing and then a token behind it, an opening bracket does not belong to an empty
container. -/
theorem isOpening_of_start {blank s : List Char} {c : Char}
    (hblank : ∀ b ∈ blank, isSpacing b = true) (hc : IsTokenStart c) :
    IsOpening (blank ++ c :: s) := by
  intro blank' d s' heq hblank' hd
  have hspacing : isSpacing d = false := by
    rcases hd with rfl | rfl <;> rfl
  have htokens := congrArg (List.dropWhile isSpacing) heq
  rw [List.dropWhile_append_of_pos hblank, List.dropWhile_append_of_pos hblank',
    List.dropWhile_cons_of_neg (by simp [hc.1]), List.dropWhile_cons_of_neg (by simp [hspacing])]
    at htokens
  obtain ⟨rfl, -⟩ := List.cons.inj htokens
  exact absurd hd hc.2

theorem isOpening_of_closing {s : List Char} {c : Char} (hc : c = ']' ∨ c = '}') :
    IsOpening (c :: s) := by
  rintro (- | ⟨b, blank⟩) d s' heq hblank -
  · rfl
  · obtain ⟨rfl, -⟩ := List.cons.inj heq
    have hspacing := hblank c List.mem_cons_self
    rcases hc with rfl | rfl <;> cases hspacing

/-- The text of a container, the brackets of which are these. -/
theorem isLaidOutFrom_bracket {o : Char} {text : List Char} (ho : o = '[' ∨ o = '{')
    (hopening : IsOpening text) (h : IsLaidOutFrom width ⟨.between, n + 1⟩ text) :
    IsLaidOutFrom width ⟨.between, n⟩ (o :: text) := by
  have hstep : Scan.step ⟨.between, n⟩ o = ⟨.between, n + 1⟩ := by
    rcases ho with rfl | rfl <;> rfl
  refine ⟨fun _ ↦ ⟨?_, fun _ ↦ hopening⟩, ?_⟩
  · rintro rfl
    rcases ho with h | h <;> cases h
  · rw [hstep]
    exact h

theorem isLaidOutFrom_closing {c : Char} (hc : c = ']' ∨ c = '}')
    (h : IsLaidOutFrom width ⟨.between, n⟩ rest) :
    IsLaidOutFrom width ⟨.between, n + 1⟩ (c :: rest) := by
  rcases hc with rfl | rfl <;> exact ⟨fun _ ↦ ⟨nofun, nofun⟩, h⟩

/-- The members of a container begin with a line break and a token. -/
theorem isOpening_writeMembers (depth : Nat) (array : Bool) (m : String × Tree)
    (ms : List (String × Tree)) (rest : List Char) :
    IsOpening (writeMembers (.indented width) depth array false (m :: ms) rest) := by
  obtain ⟨name, t⟩ := m
  have hblank : ∀ b ∈ '\n' :: List.replicate (depth * width) ' ', isSpacing b = true :=
    List.forall_mem_cons.2 ⟨rfl, fun b hb ↦ List.eq_of_mem_replicate hb ▸ rfl⟩
  cases array with
  | true =>
    obtain ⟨c, s, hshown, hc⟩ := exists_writeAt_eq_cons (.indented width) depth t
      (writeMembers (.indented width) depth true true ms rest)
    simp only [writeMembers, Bool.false_eq_true, if_false, if_true, hshown]
    exact isOpening_of_start hblank hc
  | false =>
    simp only [writeMembers, Bool.false_eq_true, if_false]
    exact isOpening_of_start hblank ⟨by decide, by decide⟩

mutual

/-- The indented text of a tree is laid out at the depth at which it is written. -/
theorem isLaidOutFrom_writeAt : ∀ (t : Tree) (n : Nat) (rest : List Char),
    IsLaidOutFrom width ⟨.between, n⟩ rest →
      IsLaidOutFrom width ⟨.between, n⟩ (writeAt (.indented width) n t rest)
  | .nil, _, _, h => isWord_null.isLaidOutFrom h
  | .number x, _, _, h => (isWord_numeral x).1.isLaidOutFrom h
  | .boolean true, _, _, h => isWord_true.isLaidOutFrom h
  | .boolean false, _, _, h => isWord_false.isLaidOutFrom h
  | .string s, _, _, h => isLaidOutFrom_quoted s h
  | .node shape [], n, rest, h => by
    simp only [writeAt]
    split_ifs
    · exact isLaidOutFrom_bracket (.inl rfl) (isOpening_of_closing (.inl rfl))
        (isLaidOutFrom_closing (.inl rfl) h)
    · exact isLaidOutFrom_bracket (.inr rfl) (isOpening_of_closing (.inr rfl))
        (isLaidOutFrom_closing (.inr rfl) h)
  | .node shape (m :: ms), n, rest, h => by
    simp only [writeAt]
    split_ifs with harray
    · refine isLaidOutFrom_bracket (.inl rfl) (isOpening_writeMembers _ _ _ _ _)
        (isLaidOutFrom_writeMembers (m :: ms) (n + 1) _ _ _ ?_)
      exact isLaidOutFrom_newline rfl rfl (isLaidOutFrom_closing (.inl rfl) h)
    · refine isLaidOutFrom_bracket (.inr rfl) (isOpening_writeMembers _ _ _ _ _)
        (isLaidOutFrom_writeMembers (m :: ms) (n + 1) _ _ _ ?_)
      exact isLaidOutFrom_newline rfl rfl (isLaidOutFrom_closing (.inr rfl) h)

/-- The indented text of members is laid out at the depth at which it is written. -/
theorem isLaidOutFrom_writeMembers : ∀ (ms : List (String × Tree)) (n : Nat) (array comma : Bool)
    (rest : List Char), IsLaidOutFrom width ⟨.between, n⟩ rest →
      IsLaidOutFrom width ⟨.between, n⟩ (writeMembers (.indented width) n array comma ms rest)
  | [], _, _, _, _, h => h
  | (name, t) :: ms, n, array, comma, rest, h => by
    have hshown := isLaidOutFrom_writeAt t n _
      (isLaidOutFrom_writeMembers ms n array true rest h)
    have hline : IsLaidOutFrom width ⟨.between, n⟩ ((Layout.indented width).newline n
        (if array then writeAt (.indented width) n t
            (writeMembers (.indented width) n array true ms rest)
          else (Layout.indented width).name name (writeAt (.indented width) n t
            (writeMembers (.indented width) n array true ms rest)))) := by
      cases array with
      | true => exact isLaidOutFrom_newline_of_start (exists_writeAt_eq_cons _ _ _ _) hshown
      | false =>
        refine isLaidOutFrom_newline_of_start ⟨_, _, rfl, by decide, by decide⟩ ?_
        exact isLaidOutFrom_quoted name
          ⟨fun _ ↦ ⟨nofun, nofun⟩, fun _ ↦ ⟨nofun, nofun⟩, hshown⟩
    cases comma with
    | true =>
      simp only [writeMembers, if_true]
      exact isLaidOutFrom_cons isInert_comma rfl hline
    | false =>
      simp only [writeMembers, Bool.false_eq_true, if_false]
      exact hline

end

end

/-! ### Values -/

/-- The indented text of a value without the spaces and line breaks between its literals is the
compact one, and both have the same literals.  Every line break between the literals is followed by
two spaces for each container that is open, not counting one that is closed next, and by a token;
and where an opening bracket is followed by spacing and a closing one, there is no spacing. -/
theorem squeeze_pretty_and_indentation (heap : Heap) (v : Value) :
    squeeze (pretty heap v).toList = (compact heap v).toList ∧
      literals (pretty heap v).toList = literals (compact heap v).toList ∧
      (∀ before after, (pretty heap v).toList = before ++ '\n' :: after →
        regionAfter before = .between → IsIndentation 2 (openContainers before) after) ∧
      ∀ before opening after, (pretty heap v).toList = before ++ opening :: after →
        regionAfter before = .between → opening = '[' ∨ opening = '{' → IsOpening after := by
  have hsqueeze : squeeze (pretty heap v).toList = (compact heap v).toList := by
    rw [pretty, compact, String.toList_ofList, String.toList_ofList]
    exact squeezeFrom_writeAt (heap.unfold v) 0 0 []
  have hlaidOut : IsLaidOutFrom 2 ⟨.between, 0⟩ (pretty heap v).toList := by
    rw [pretty, String.toList_ofList]
    exact isLaidOutFrom_writeAt (heap.unfold v) 0 [] True.intro
  refine ⟨hsqueeze, ?_, fun before after hs hregion ↦ ?_, fun before o after hs hregion ho ↦ ?_⟩
  · rw [← hsqueeze, literals_squeeze]
  · exact (hlaidOut.isLaidOutAt hs hregion).lineBreak rfl
  · exact (hlaidOut.isLaidOutAt hs hregion).opening ho

end ScriptHost.Json
