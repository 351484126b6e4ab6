import Mathlib.Tactic.Common
import ScriptHost.Proofs.Json.Numbers
import ScriptHost.Proofs.Json.Strings

/-!
# Open containers

How many brackets and braces are open after the beginning of a document.  Those within string
literals do not count, so a text is scanned with the knowledge of where in a literal it stands.

What the grammar has as a value, as elements or as members closes whatever it opens.

## Main definitions

* `Json.openContainers` : how many containers are open after a text.
* `Json.Opens` : a text after which so many more containers are open than before.

## Main results

* `Json.ValueText.opens`, `Json.ElementsText.opens`, `Json.MembersText.opens` : the texts of the
  grammar leave nothing open.
-/

namespace ScriptHost.Json

/-- Where a scan stands: between literals, in one, or behind a backslash in one. -/
inductive Region where
  | between
  | literal
  | escape
deriving DecidableEq

/-- Where a scan stands, and how many containers are open there. -/
structure Scan where
  region : Region
  opened : Nat
deriving DecidableEq

/-- One character of the text: only between literals do brackets and braces count. -/
def Scan.step : Scan → Char → Scan
  | ⟨.between, n⟩, c =>
    if c = '"' then ⟨.literal, n⟩
    else if c = '[' ∨ c = '{' then ⟨.between, n + 1⟩
    else if c = ']' ∨ c = '}' then ⟨.between, n - 1⟩
    else ⟨.between, n⟩
  | ⟨.literal, n⟩, c =>
    if c = '"' then ⟨.between, n⟩
    else if c = '\\' then ⟨.escape, n⟩
    else ⟨.literal, n⟩
  | ⟨.escape, n⟩, _ => ⟨.literal, n⟩

/-- How many containers are open after a text. -/
def openContainers (s : List Char) : Nat := (s.foldl Scan.step ⟨.between, 0⟩).opened

/-- A text between literals after which `k` more containers are open than before. -/
def Opens (k : Nat) (s : List Char) : Prop :=
  ∀ n, s.foldl Scan.step ⟨.between, n⟩ = ⟨.between, n + k⟩

/-- A character that neither opens nor closes anything. -/
def IsInert (c : Char) : Prop := c ∉ ['"', '[', '{', ']', '}']

section

variable {k l : Nat} {s t : List Char}

theorem Opens.openContainers_eq (h : Opens k s) : openContainers s = k := by
  rw [openContainers, h 0, Nat.zero_add]

theorem opens_nil : Opens 0 [] := fun _ ↦ rfl

theorem Opens.append (hs : Opens k s) (ht : Opens l t) : Opens (k + l) (s ++ t) := by
  intro n
  rw [List.foldl_append, hs n, ht (n + k), Nat.add_assoc]

theorem opens_bracket : Opens 1 ['['] := fun _ ↦ rfl

theorem opens_brace : Opens 1 ['{'] := fun _ ↦ rfl

/-- A closed text that comes first leaves the count to what follows. -/
theorem Opens.before (hs : Opens 0 s) (ht : Opens k t) : Opens k (s ++ t) := by
  simpa only [Nat.zero_add] using hs.append ht

theorem IsInert.step_eq {c : Char} (hc : IsInert c) (n : Nat) :
    Scan.step ⟨.between, n⟩ c = ⟨.between, n⟩ := by
  simp only [IsInert, List.mem_cons, List.not_mem_nil, or_false, not_or] at hc
  obtain ⟨hquote, hbracket, hbrace, hbracket', hbrace'⟩ := hc
  rw [Scan.step, if_neg hquote, if_neg (not_or.2 ⟨hbracket, hbrace⟩),
    if_neg (not_or.2 ⟨hbracket', hbrace'⟩)]

theorem Opens.cons {c : Char} (hc : IsInert c) (hs : Opens k s) : Opens k (c :: s) := by
  intro n
  rw [List.foldl_cons, hc.step_eq, hs n]

theorem opens_of_isInert (h : ∀ c ∈ s, IsInert c) : Opens 0 s := by
  induction s with
  | nil => exact opens_nil
  | cons c s ih =>
    exact .cons (h c List.mem_cons_self) (ih fun d hd ↦ h d (List.mem_cons_of_mem c hd))

/-- Brackets around a closed text close each other. -/
theorem Opens.inBrackets (hs : Opens 0 s) : Opens 0 ('[' :: (s ++ [']'])) := by
  intro n
  rw [List.foldl_cons, List.foldl_append]
  exact congrArg (List.foldl Scan.step · [']']) (hs (n + 1))

/-- Braces around a closed text close each other. -/
theorem Opens.inBraces (hs : Opens 0 s) : Opens 0 ('{' :: (s ++ ['}'])) := by
  intro n
  rw [List.foldl_cons, List.foldl_append]
  exact congrArg (List.foldl Scan.step · ['}']) (hs (n + 1))

end

/-! ### Tokens -/

theorem IsBlank.opens {w : List Char} (hw : IsBlank w) : Opens 0 w := by
  refine opens_of_isInert fun c hc ↦ ?_
  rcases hw c hc with rfl | rfl | rfl | rfl <;> simp [IsInert]

theorem isInert_of_isDigit {c : Char} (hc : c.isDigit = true) : IsInert c := by
  simp only [IsInert, List.mem_cons, List.not_mem_nil, or_false, not_or]
  exact ⟨ne_of_isDigit hc rfl, ne_of_isDigit hc rfl, ne_of_isDigit hc rfl, ne_of_isDigit hc rfl,
    ne_of_isDigit hc rfl⟩

theorem IsDigits.opens {ds : List Char} (hds : IsDigits ds) : Opens 0 ds :=
  opens_of_isInert fun c hc ↦ isInert_of_isDigit (hds.2 c hc)

theorem IsFraction.opens {f : List Char} : IsFraction f → Opens 0 f
  | .absent => opens_nil
  | .digits hds => .cons (by simp [IsInert]) hds.opens

theorem opens_sign {sign : List Char} (hsign : sign = [] ∨ sign = ['+'] ∨ sign = ['-']) :
    Opens 0 sign := by
  rcases hsign with rfl | rfl | rfl
  · exact opens_nil
  · exact opens_nil.cons (by simp [IsInert])
  · exact opens_nil.cons (by simp [IsInert])

theorem IsExponent.opens {e : List Char} : IsExponent e → Opens 0 e
  | .absent => opens_nil
  | .digits hmark hsign hds => by
    refine ((opens_sign hsign).before hds.opens).cons ?_
    rcases hmark with rfl | rfl <;> simp [IsInert]

theorem NumberText.opens {s : List Char} {x : Double} : NumberText s x → Opens 0 s
  | .parts hminus hwhole hfraction hexponent _ =>
    (opens_sign (hminus.imp_right .inr)).before <|
      hwhole.opens.before (hfraction.opens.before hexponent.opens)

/-- What stands in a literal stays in it. -/
theorem StringText.foldl_step {k text : List Char} (h : StringText k text) (n : Nat) :
    k.foldl Scan.step ⟨.literal, n⟩ = ⟨.literal, n⟩ := by
  have hplain {c : Char} (hc : c ≠ '"' ∧ c ≠ '\\') :
      Scan.step ⟨.literal, n⟩ c = ⟨.literal, n⟩ := by
    rw [Scan.step, if_neg hc.1, if_neg hc.2]
  have hescape (c : Char) (s : List Char) :
      ('\\' :: c :: s).foldl Scan.step ⟨.literal, n⟩ = s.foldl Scan.step ⟨.literal, n⟩ := rfl
  induction h with
  | nil => rfl
  | plain hquote hbackslash h ih => rw [List.foldl_cons, hplain ⟨hquote, hbackslash⟩, ih]
  | short he h ih => rw [hescape, ih]
  | ascii h₃ h₂ h₁ h₀ hn h ih =>
    rw [hescape, List.foldl_cons, List.foldl_cons, List.foldl_cons, List.foldl_cons, hplain h₃.ne,
      hplain h₂.ne, hplain h₁.ne, hplain h₀.ne, ih]
  | beyond h₃ h₂ h₁ h₀ hn h ih =>
    rw [hescape, List.foldl_cons, List.foldl_cons, List.foldl_cons, List.foldl_cons, hplain h₃.ne,
      hplain h₂.ne, hplain h₁.ne, hplain h₀.ne, ih]

/-- A literal that comes first leaves the count to what follows. -/
theorem StringText.opens_append {k text s : List Char} {m : Nat} (h : StringText k text)
    (hs : Opens m s) : Opens m ('"' :: (k ++ '"' :: s)) := by
  intro n
  rw [List.foldl_cons, List.foldl_append]
  exact (congrArg (List.foldl Scan.step · ('"' :: s)) (h.foldl_step n)).trans (hs n)

/-! ### All of the grammar -/

theorem isInert_comma : IsInert ',' := by simp [IsInert]

theorem isInert_colon : IsInert ':' := by simp [IsInert]

mutual

/-- A value closes what it opens. -/
theorem ValueText.opens {d : Nat} {s : List Char} {t : Tree} : ValueText d s t → Opens 0 s
  | .nullWord => fun _ ↦ rfl
  | .trueWord => fun _ ↦ rfl
  | .falseWord => fun _ ↦ rfl
  | .number h => h.opens
  | .string h => h.opens_append opens_nil
  | .emptyArray hw => hw.opens.inBrackets
  | .array h => h.opens.inBrackets
  | .emptyObject hw => hw.opens.inBraces
  | .object h _ => h.opens.inBraces

/-- Elements close what they open. -/
theorem ElementsText.opens {d : Nat} {s : List Char} {ts : List Tree} :
    ElementsText d s ts → Opens 0 s
  | .last hw₁ h hw₂ => hw₁.opens.before (h.opens.before hw₂.opens)
  | .cons hw₁ h hw₂ hr =>
    hw₁.opens.before (h.opens.before (hw₂.opens.before (hr.opens.cons isInert_comma)))

/-- Members close what they open. -/
theorem MembersText.opens {d : Nat} {s : List Char} {ms : List (String × Tree)} :
    MembersText d s ms → Opens 0 s
  | .last hw₁ hname hw₂ hw₃ h hw₄ =>
    hw₁.opens.before <| hname.opens_append <| hw₂.opens.before <| .cons isInert_colon <|
      hw₃.opens.before (h.opens.before hw₄.opens)
  | .cons hw₁ hname hw₂ hw₃ h hw₄ hr =>
    hw₁.opens.before <| hname.opens_append <| hw₂.opens.before <| .cons isInert_colon <|
      hw₃.opens.before <| h.opens.before <| hw₄.opens.before (hr.opens.cons isInert_comma)

end

end ScriptHost.Json
