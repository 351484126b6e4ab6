import Mathlib.Tactic.Common
import ScriptHost.Proofs.Json.Members
import ScriptHost.Proofs.Json.Numbers
import ScriptHost.Proofs.Json.Strings

/-!
# The number tokens of a text

Outside of its strings, a JSON text has number characters in its numbers and in its words only.  The
runs of such characters that begin like a number are its number tokens.  Every number of the tree
that a text denotes is read from one of them; those of a member that was written again are left
behind.

## Main definitions

* `Json.numberTokens` : the number tokens of a text.
* `Tree.AllNumbers` : a property of all numbers in a tree.
* `Json.HasTokens` : the number tokens that a piece of a text adds to what follows it.

## Main results

* `Json.DocumentText.readFrom` : the tokens of a document are numbers of the grammar, and the
  numbers of its tree are read from them.
* `Json.DocumentText.allNumbers` : what holds of the tokens holds of the numbers.
-/

namespace ScriptHost

/-! ### The numbers of a tree -/

namespace Tree

variable {P Q : Double → Prop}

mutual

/-- All numbers of the tree have the property. -/
def AllNumbers (P : Double → Prop) : Tree → Prop
  | .number n => P n
  | .node _ members => MembersAllNumbers P members
  | _ => True

/-- All numbers below these members have the property. -/
def MembersAllNumbers (P : Double → Prop) : List (String × Tree) → Prop
  | [] => True
  | (_, t) :: ms => t.AllNumbers P ∧ MembersAllNumbers P ms

end

theorem membersAllNumbers_iff {ms : List (String × Tree)} :
    MembersAllNumbers P ms ↔ ∀ m ∈ ms, m.2.AllNumbers P := by
  induction ms with
  | nil => simp [MembersAllNumbers]
  | cons m ms ih => simp only [MembersAllNumbers, ih, List.forall_mem_cons]

mutual

/-- A weaker property. -/
theorem AllNumbers.mono (h : ∀ n, P n → Q n) : ∀ {t : Tree}, t.AllNumbers P → t.AllNumbers Q
  | .nil, _ => True.intro
  | .number n, hn => h n hn
  | .boolean _, _ => True.intro
  | .string _, _ => True.intro
  | .node _ _, hms => MembersAllNumbers.mono h hms

theorem MembersAllNumbers.mono (h : ∀ n, P n → Q n) :
    ∀ {ms : List (String × Tree)}, MembersAllNumbers P ms → MembersAllNumbers Q ms
  | [], _ => True.intro
  | _ :: _, hms => ⟨AllNumbers.mono h hms.1, MembersAllNumbers.mono h hms.2⟩

end

end Tree

namespace Json

/-! ### Tokens -/

/-- What of a text is outside of its strings.  Of a string its opening quote is kept. -/
def outsideStrings : (inside : Bool) → List Char → List Char
  | _, [] => []
  | true, '\\' :: _ :: s => outsideStrings true s
  | true, c :: s => outsideStrings (c != '"') s
  | false, c :: s => c :: outsideStrings (c == '"') s

/-- A character that stands in numbers. -/
def isNumberChar (c : Char) : Bool :=
  c.isDigit || c == '-' || c == '+' || c == '.' || c == 'e' || c == 'E'

/-- Whether a run of such characters begins like a number. -/
def beginsNumber : List Char → Bool
  | [] => false
  | c :: _ => c.isDigit || c == '-'

/-- The runs of such characters that begin like a number. -/
def numberRuns (s : List Char) : List (List Char) :=
  (s.splitOnP fun c ↦ !isNumberChar c).filter beginsNumber

/-- The number tokens of a text, in their order. -/
def numberTokens (s : List Char) : List (List Char) := numberRuns (outsideStrings false s)

/-! ### Runs -/

theorem numberRuns_append_cons (k s : List Char) {c : Char} (hc : isNumberChar c = false) :
    numberRuns (k ++ c :: s) = numberRuns k ++ numberRuns s := by
  unfold numberRuns
  rw [List.splitOnP_append_cons k s (by rw [hc]; rfl), List.filter_append]

theorem numberRuns_cons {c : Char} (hc : isNumberChar c = false) (s : List Char) :
    numberRuns (c :: s) = numberRuns s :=
  numberRuns_append_cons [] s hc

theorem numberRuns_eq {k : List Char} (hk : ∀ c ∈ k, isNumberChar c = true) :
    numberRuns k = [k].filter beginsNumber := by
  unfold numberRuns
  rw [List.splitOnP_eq_singleton fun c hc ↦ by rw [hk c hc]; rfl]

/-- No token goes on into this text. -/
def EndsToken (r : List Char) : Prop := ∀ c ∈ r.head?, isNumberChar c = false

theorem endsToken_nil : EndsToken [] := by simp [EndsToken]

theorem endsToken_cons {c : Char} (hc : isNumberChar c = false) (r : List Char) :
    EndsToken (c :: r) := by
  rintro d hd
  obtain rfl : c = d := Option.some.inj hd
  exact hc

theorem EndsToken.append {s r : List Char} (hs : EndsToken s) (hr : EndsToken r) :
    EndsToken (s ++ r) := by
  cases s with
  | nil => exact hr
  | cons c s => exact endsToken_cons (hs c rfl) _

/-- A run of number characters is a token if it begins like one. -/
theorem numberTokens_append {k r : List Char} (hk : ∀ c ∈ k, isNumberChar c = true)
    (hr : EndsToken r) :
    numberTokens (k ++ r) = [k].filter beginsNumber ++ numberTokens r := by
  have houtside : outsideStrings false (k ++ r) = k ++ outsideStrings false r := by
    induction k with
    | nil => rfl
    | cons c k ih =>
      have hquote : (c == '"') = false := by
        rw [beq_eq_false_iff_ne]
        rintro rfl
        exact absurd (hk _ List.mem_cons_self) (by decide)
      rw [List.cons_append, outsideStrings, hquote, ih fun d hd ↦ hk d (List.mem_cons_of_mem c hd)]
      rfl
  rw [numberTokens, numberTokens, houtside]
  cases r with
  | nil => rw [outsideStrings, List.append_nil, numberRuns_eq hk]; exact (List.append_nil _).symm
  | cons c r =>
    rw [outsideStrings, numberRuns_append_cons k _ (hr c rfl), numberRuns_cons (hr c rfl),
      numberRuns_eq hk]

/-- A character between tokens. -/
theorem numberTokens_cons {c : Char} (hc : isNumberChar c = false) (hquote : c ≠ '"')
    (r : List Char) : numberTokens (c :: r) = numberTokens r := by
  rw [numberTokens, outsideStrings, numberRuns_cons hc, beq_eq_false_iff_ne.2 hquote, numberTokens]

theorem outsideStrings_plain {c : Char} (hc : c ≠ '"' ∧ c ≠ '\\') (s : List Char) :
    outsideStrings true (c :: s) = outsideStrings true s := by
  rw [outsideStrings.eq_3, bne_iff_ne.2 hc.1]
  exact fun _ _ h ↦ absurd h hc.2

/-- The end of a string is found. -/
theorem outsideStrings_string {k name : List Char} (h : StringText k name) (r : List Char) :
    outsideStrings true (k ++ '"' :: r) = outsideStrings false r := by
  have hpoint (c₃ c₂ c₁ c₀ : Char) (s : List Char) {n₃ n₂ n₁ n₀ : Nat} (h₃ : HexDigit c₃ n₃)
      (h₂ : HexDigit c₂ n₂) (h₁ : HexDigit c₁ n₁) (h₀ : HexDigit c₀ n₀) :
      outsideStrings true ('\\' :: 'u' :: c₃ :: c₂ :: c₁ :: c₀ :: s) = outsideStrings true s := by
    rw [outsideStrings, outsideStrings_plain h₃.ne, outsideStrings_plain h₂.ne,
      outsideStrings_plain h₁.ne, outsideStrings_plain h₀.ne]
  induction h with
  | nil => rfl
  | plain hquote hbackslash h ih => exact (outsideStrings_plain ⟨hquote, hbackslash⟩ _).trans ih
  | short he h ih => exact ih
  | ascii h₃ h₂ h₁ h₀ hn h ih => exact (hpoint _ _ _ _ _ h₃ h₂ h₁ h₀).trans ih
  | beyond h₃ h₂ h₁ h₀ hn h ih => exact (hpoint _ _ _ _ _ h₃ h₂ h₁ h₀).trans ih

/-- There are no tokens in strings. -/
theorem numberTokens_string {k name : List Char} (h : StringText k name) (r : List Char) :
    numberTokens ('"' :: (k ++ '"' :: r)) = numberTokens r := by
  have houtside := outsideStrings_string h r
  rw [numberTokens, outsideStrings, numberRuns_cons (by decide), beq_self_eq_true, houtside,
    numberTokens]

/-! ### The tokens of the grammar -/

/-- The number tokens that a text adds in front of a text into which no token goes on. -/
def HasTokens (s : List Char) (ks : List (List Char)) : Prop :=
  ∀ r, EndsToken r → numberTokens (s ++ r) = ks ++ numberTokens r

theorem HasTokens.nil : HasTokens [] [] := fun _ _ ↦ rfl

/-- A character between tokens comes first. -/
theorem HasTokens.cons {c : Char} {s : List Char} {ks : List (List Char)}
    (hc : isNumberChar c = false) (hquote : c ≠ '"') (h : HasTokens s ks) :
    HasTokens (c :: s) ks := fun r hr ↦ (numberTokens_cons hc hquote _).trans (h r hr)

/-- One text after another, where no token goes on into the second one. -/
theorem HasTokens.append {s s' : List Char} {ks ks' : List (List Char)} (h : HasTokens s ks)
    (h' : HasTokens s' ks') (hs' : EndsToken s') : HasTokens (s ++ s') (ks ++ ks') := by
  intro r hr
  rw [List.append_assoc, h _ (hs'.append hr), h' r hr, List.append_assoc]

/-- A string comes first. -/
theorem HasTokens.string {k name s : List Char} {ks : List (List Char)} (hk : StringText k name)
    (h : HasTokens s ks) : HasTokens ('"' :: (k ++ '"' :: s)) ks := by
  intro r hr
  rw [List.cons_append, List.append_assoc, List.cons_append, numberTokens_string hk, h r hr]

theorem isBlank_cases {c : Char} (hc : c = ' ' ∨ c = '\t' ∨ c = '\n' ∨ c = '\r') :
    isNumberChar c = false ∧ c ≠ '"' := by
  rcases hc with rfl | rfl | rfl | rfl <;> decide

/-- White space comes first. -/
theorem HasTokens.blank {w s : List Char} {ks : List (List Char)} (hw : IsBlank w)
    (h : HasTokens s ks) : HasTokens (w ++ s) ks := by
  induction w with
  | nil => exact h
  | cons c w ih =>
    have hc := isBlank_cases (hw c List.mem_cons_self)
    exact .cons hc.1 hc.2 (ih fun d hd ↦ hw d (List.mem_cons_of_mem c hd))

theorem IsBlank.endsToken {w : List Char} (hw : IsBlank w) : EndsToken w := by
  cases w with
  | nil => exact endsToken_nil
  | cons c w => exact endsToken_cons (isBlank_cases (hw c List.mem_cons_self)).1 w

theorem IsBlank.hasTokens {w : List Char} (hw : IsBlank w) : HasTokens w [] := by
  have h := HasTokens.blank hw .nil
  rwa [List.append_nil] at h

theorem isNumberChar_of_isDigit {c : Char} (hc : c.isDigit = true) : isNumberChar c = true := by
  simp [isNumberChar, hc]

/-- A number consists of number characters. -/
theorem NumberText.isNumberChar {k : List Char} {x : Double} (h : NumberText k x) :
    ∀ c ∈ k, isNumberChar c = true := by
  obtain ⟨hminus, hwhole, hfraction, hexponent, -⟩ := h
  have hdigits {ds : List Char} (hds : IsDigits ds) : ∀ c ∈ ds, Json.isNumberChar c = true :=
    fun c hc ↦ isNumberChar_of_isDigit (hds.2 c hc)
  simp only [List.forall_mem_append]
  refine ⟨?_, hdigits hwhole, ?_, ?_⟩
  · rcases hminus with rfl | rfl
    · exact List.forall_mem_nil _
    · exact List.forall_mem_singleton.2 rfl
  · cases hfraction with
    | absent => exact List.forall_mem_nil _
    | digits hds => exact List.forall_mem_cons.2 ⟨by decide, hdigits hds⟩
  · cases hexponent with
    | absent => exact List.forall_mem_nil _
    | digits hmark hsign hds =>
      refine List.forall_mem_cons.2 ⟨?_, List.forall_mem_append.2 ⟨?_, hdigits hds⟩⟩
      · rcases hmark with rfl | rfl <;> decide
      · rcases hsign with rfl | rfl | rfl
        · exact List.forall_mem_nil _
        · exact List.forall_mem_singleton.2 rfl
        · exact List.forall_mem_singleton.2 rfl

/-- A number begins like one. -/
theorem NumberText.beginsNumber {k : List Char} {x : Double} (h : NumberText k x) :
    beginsNumber k = true := by
  obtain ⟨hminus, hwhole, -⟩ := h
  obtain ⟨d, ds, rfl⟩ := List.exists_cons_of_ne_nil hwhole.1
  rcases hminus with rfl | rfl
  · simp [Json.beginsNumber, hwhole.2 d List.mem_cons_self]
  · rfl

/-- A number is a token. -/
theorem NumberText.hasTokens {k : List Char} {x : Double} (h : NumberText k x) :
    HasTokens k [k] := by
  intro r hr
  rw [numberTokens_append h.isNumberChar hr, List.filter_cons_of_pos h.beginsNumber,
    List.filter_nil]

/-! ### The numbers of the grammar -/

/-- These tokens are numbers of the grammar, from which the numbers of the trees are read. -/
structure ReadFrom (ks : List (List Char)) (ts : List Tree) : Prop where
  numbers : ∀ k ∈ ks, ∃ x, NumberText k x
  allNumbers : ∀ t ∈ ts, t.AllNumbers fun x ↦ ∃ k ∈ ks, NumberText k x

namespace ReadFrom

variable {ks ks' : List (List Char)} {ts ts' : List Tree}

theorem subset (h : ReadFrom ks ts) (hts : ts' ⊆ ts) : ReadFrom ks ts' :=
  ⟨h.numbers, fun t ht ↦ h.allNumbers t (hts ht)⟩

theorem append (h : ReadFrom ks ts) (h' : ReadFrom ks' ts') :
    ReadFrom (ks ++ ks') (ts ++ ts') := by
  refine ⟨List.forall_mem_append.2 ⟨h.numbers, h'.numbers⟩, List.forall_mem_append.2 ⟨?_, ?_⟩⟩
  · exact fun t ht ↦ (h.allNumbers t ht).mono fun x ⟨k, hk, hx⟩ ↦
      ⟨k, List.mem_append_left ks' hk, hx⟩
  · exact fun t ht ↦ (h'.allNumbers t ht).mono fun x ⟨k, hk, hx⟩ ↦
      ⟨k, List.mem_append_right ks hk, hx⟩

theorem nil {t : Tree} (ht : t.AllNumbers fun _ ↦ False) : ReadFrom [] [t] := by
  refine ⟨List.forall_mem_nil _, fun u hu ↦ ?_⟩
  rw [List.mem_singleton.1 hu]
  exact ht.mono fun _ ↦ False.elim

theorem number {k : List Char} {x : Double} (h : NumberText k x) : ReadFrom [k] [.number x] := by
  refine ⟨fun l hl ↦ ⟨x, List.mem_singleton.1 hl ▸ h⟩, fun t ht ↦ ?_⟩
  rw [List.mem_singleton.1 ht]
  exact ⟨k, List.mem_singleton_self k, h⟩

/-- The numbers of a node are those of its members. -/
theorem node {ms : List (String × Tree)} (h : ReadFrom ks (ms.map Prod.snd)) (shape : Shape) :
    ReadFrom ks [.node shape ms] := by
  refine ⟨h.numbers, fun t ht ↦ ?_⟩
  rw [List.mem_singleton.1 ht]
  exact Tree.membersAllNumbers_iff.2 fun m hm ↦ h.allNumbers _ (List.mem_map_of_mem hm)

theorem array (h : ReadFrom ks ts) : ReadFrom ks [.node .array (Members.ofValues ts)] :=
  node ((Members.map_snd_ofValues ts).symm ▸ h) .array

end ReadFrom

/-- The number tokens of a text, from which the numbers of some trees are read. -/
def ExistsTokens (s : List Char) (ts : List Tree) : Prop := ∃ ks, HasTokens s ks ∧ ReadFrom ks ts

/-- A text without number tokens. -/
theorem HasTokens.exists_nil {s : List Char} (h : HasTokens s []) {t : Tree}
    (ht : t.AllNumbers fun _ ↦ False) : ExistsTokens s [t] := ⟨[], h, .nil ht⟩

theorem hasTokens_null : HasTokens ['n', 'u', 'l', 'l'] [] :=
  .cons (by decide) (by decide) (.cons (by decide) (by decide)
    (.cons (by decide) (by decide) (.cons (by decide) (by decide) .nil)))

/-- The last letter of two words stands in numbers, but does not begin one. -/
theorem hasTokens_e : HasTokens ['e'] [] := fun _ hr ↦
  numberTokens_append (List.forall_mem_singleton.2 rfl) hr

theorem hasTokens_true : HasTokens ['t', 'r', 'u', 'e'] [] :=
  .cons (by decide) (by decide) (.cons (by decide) (by decide)
    (.cons (by decide) (by decide) hasTokens_e))

theorem hasTokens_false : HasTokens ['f', 'a', 'l', 's', 'e'] [] :=
  .cons (by decide) (by decide) (.cons (by decide) (by decide)
    (.cons (by decide) (by decide) (.cons (by decide) (by decide) hasTokens_e)))

/-- Brackets around a text. -/
theorem HasTokens.brackets {s : List Char} {ks : List (List Char)} (h : HasTokens s ks)
    {opening closing : Char} (hopening : isNumberChar opening = false ∧ opening ≠ '"')
    (hclosing : isNumberChar closing = false ∧ closing ≠ '"') :
    HasTokens (opening :: (s ++ [closing])) ks := by
  have happend := h.append (.cons hclosing.1 hclosing.2 .nil) (endsToken_cons hclosing.1 [])
  rw [List.append_nil] at happend
  exact .cons hopening.1 hopening.2 happend

/-- A text after white space and in front of white space. -/
theorem HasTokens.padded {w₁ s w₂ : List Char} {ks : List (List Char)} (h : HasTokens s ks)
    (hw₁ : IsBlank w₁) (hw₂ : IsBlank w₂) : HasTokens (w₁ ++ (s ++ w₂)) ks := by
  have happend := h.append hw₂.hasTokens hw₂.endsToken
  rw [List.append_nil] at happend
  exact .blank hw₁ happend

/-- A text after white space and in front of a comma and another text. -/
theorem HasTokens.comma {w₁ s w₂ r : List Char} {ks ks' : List (List Char)} (h : HasTokens s ks)
    (hw₁ : IsBlank w₁) (hw₂ : IsBlank w₂) (hr : HasTokens r ks') :
    HasTokens (w₁ ++ (s ++ (w₂ ++ ',' :: r))) (ks ++ ks') :=
  .blank hw₁ (h.append (.blank hw₂ (.cons (by decide) (by decide) hr))
    (hw₂.endsToken.append (endsToken_cons (by decide) r)))

/-- The name of a member in front of its value. -/
theorem HasTokens.name {w₁ k name w₂ s : List Char} {ks : List (List Char)} (h : HasTokens s ks)
    (hw₁ : IsBlank w₁) (hname : StringText k name) (hw₂ : IsBlank w₂) :
    HasTokens (w₁ ++ '"' :: (k ++ '"' :: (w₂ ++ ':' :: s))) ks :=
  .blank hw₁ (.string hname (.blank hw₂ (.cons (by decide) (by decide) h)))

mutual

/-- The numbers of a value are read from its tokens. -/
theorem ValueText.existsTokens {d : Nat} {s : List Char} {t : Tree} :
    ValueText d s t → ExistsTokens s [t]
  | .nullWord => hasTokens_null.exists_nil trivial
  | .trueWord => hasTokens_true.exists_nil trivial
  | .falseWord => hasTokens_false.exists_nil trivial
  | .number h => ⟨_, h.hasTokens, .number h⟩
  | .string h => (HasTokens.string h .nil).exists_nil trivial
  | .emptyArray hw => (hw.hasTokens.brackets (by decide) (by decide)).exists_nil trivial
  | .array h => by
    obtain ⟨ks, hs, hks⟩ := h.existsTokens
    exact ⟨ks, hs.brackets (by decide) (by decide), hks.array⟩
  | .emptyObject hw => (hw.hasTokens.brackets (by decide) (by decide)).exists_nil trivial
  | .object h hkept => by
    obtain ⟨ks, hs, hks⟩ := h.existsTokens
    exact ⟨ks, hs.brackets (by decide) (by decide),
      (hks.subset (List.map_subset Prod.snd hkept.subset)).node .map⟩

/-- The numbers of elements are read from their tokens. -/
theorem ElementsText.existsTokens {d : Nat} {s : List Char} {ts : List Tree} :
    ElementsText d s ts → ExistsTokens s ts
  | .last hw₁ h hw₂ => by
    obtain ⟨ks, hs, hks⟩ := h.existsTokens
    exact ⟨ks, hs.padded hw₁ hw₂, hks⟩
  | .cons hw₁ h hw₂ hr => by
    obtain ⟨ks, hs, hks⟩ := h.existsTokens
    obtain ⟨ks', hs', hks'⟩ := hr.existsTokens
    exact ⟨ks ++ ks', hs.comma hw₁ hw₂ hs', hks.append hks'⟩

/-- The numbers of members are read from their tokens. -/
theorem MembersText.existsTokens {d : Nat} {s : List Char} {ms : List (String × Tree)} :
    MembersText d s ms → ExistsTokens s (ms.map Prod.snd)
  | .last hw₁ hname hw₂ hw₃ h hw₄ => by
    obtain ⟨ks, hs, hks⟩ := h.existsTokens
    exact ⟨ks, (hs.padded hw₃ hw₄).name hw₁ hname hw₂, hks⟩
  | .cons hw₁ hname hw₂ hw₃ h hw₄ hr => by
    obtain ⟨ks, hs, hks⟩ := h.existsTokens
    obtain ⟨ks', hs', hks'⟩ := hr.existsTokens
    exact ⟨ks ++ ks', (hs.comma hw₃ hw₄ hs').name hw₁ hname hw₂, hks.append hks'⟩

end

/-- The number tokens of a document are numbers of the grammar, and the numbers of its tree are read
from them. -/
theorem DocumentText.readFrom {d : Nat} {s : List Char} {t : Tree} (h : DocumentText d s t) :
    ReadFrom (numberTokens s) [t] := by
  obtain ⟨hw₁, hvalue, hw₂⟩ := h
  obtain ⟨ks, hs, hks⟩ := hvalue.existsTokens
  have htokens := hs.padded hw₁ hw₂ [] endsToken_nil
  rw [List.append_nil] at htokens
  rw [htokens]
  exact (List.append_nil ks).symm ▸ hks

example : numberTokens "[\"2e3\\\"4\", -1.50, true, 7e-2]".toList =
    [['-', '1', '.', '5', '0'], ['7', 'e', '-', '2']] := by
  decide +kernel

/-- What the conversion gives for all number tokens of a document holds of all numbers of its
tree. -/
theorem DocumentText.allNumbers {d : Nat} {s : List Char} {t : Tree} (h : DocumentText d s t)
    {P : Double → Prop} (hP : ∀ k ∈ numberTokens s, ∃ x, Decimal.readDouble k = some x ∧ P x) :
    t.AllNumbers P := by
  refine (h.readFrom.allNumbers t (List.mem_singleton_self t)).mono fun x ⟨k, hk, hx⟩ ↦ ?_
  obtain ⟨y, hy, hPy⟩ := hP k hk
  obtain ⟨hminus, hwhole, hfraction, hexponent, hread⟩ := hx
  exact Option.some.inj (hy.symm.trans hread) ▸ hPy

end Json

end ScriptHost
