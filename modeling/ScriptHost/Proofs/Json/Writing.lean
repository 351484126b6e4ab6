import Mathlib.Tactic.Common
import ScriptHost.Json.Printer
import ScriptHost.Proofs.Json.Members
import ScriptHost.Proofs.Json.Strings
import ScriptHost.Proofs.Tree.Unfolding

/-!
# What is written is in the grammar

The writers put the text of a tree in front of the text that follows.  That text is one of the
grammar, in every layout and at every depth, and denotes the tree after its scalars were written and
read.

## Main definitions

* `Json.IsWritten` : the text of a tree denotes what the tree is reread as.

## Main results

* `Json.isWritten` : this holds of all trees in which no node has two members of one name.
-/

namespace ScriptHost

namespace Json

/-! ### Strings and white space -/

theorem hexDigit_digit {n : Nat} (hn : n < 16) : HexDigit (Text.Hex.digit n) n := by
  have hvalue : ∀ m < 16, Text.Hex.value? (Text.Hex.digit m) = some m := by decide
  exact value?_eq_some_iff.1 (hvalue n hn)

/-- The form of a character inside a string literal denotes the character. -/
theorem stringText_escaped (c : Char) {k t : List Char} (h : StringText k t) :
    StringText (escaped c ++ k) (c :: t) := by
  unfold escaped
  split_ifs with hquote hbackslash hn hr ht hb hf hcontrol
  · subst hquote
    exact .short (by decide) h
  · subst hbackslash
    exact .short (by decide) h
  · subst hn
    exact .short (by decide) h
  · subst hr
    exact .short (by decide) h
  · subst ht
    exact .short (by decide) h
  · subst hb
    exact .short (by decide) h
  · subst hf
    exact .short (by decide) h
  · have hdigit (shift : Nat) : HexDigit (Text.Hex.digit (c.toNat >>> (4 * shift) % 16))
        (c.toNat >>> (4 * shift) % 16) := hexDigit_digit (Nat.mod_lt _ (by decide))
    have hsum : ((c.toNat >>> (4 * 3) % 16 * 16 + c.toNat >>> (4 * 2) % 16) * 16 +
        c.toNat >>> (4 * 1) % 16) * 16 + c.toNat >>> (4 * 0) % 16 = c.toNat := by
      simp only [Nat.shiftRight_eq_div_pow]
      omega
    have hle : ((c.toNat >>> (4 * 3) % 16 * 16 + c.toNat >>> (4 * 2) % 16) * 16 +
        c.toNat >>> (4 * 1) % 16) * 16 + c.toNat >>> (4 * 0) % 16 ≤ 0x7F := by
      rw [hsum]
      omega
    have hascii := StringText.ascii (hdigit 3) (hdigit 2) (hdigit 1) (hdigit 0) hle h
    rwa [hsum, Char.ofNat_toNat] at hascii
  · exact .plain hquote hbackslash h

/-- A string literal denotes its string. -/
theorem exists_stringText_quoted (s : String) :
    ∃ k, StringText k s.toList ∧ ∀ rest, quoted s rest = '"' :: (k ++ '"' :: rest) := by
  have hfold : ∀ l : List Char, ∃ k, StringText k l ∧ ∀ rest,
      l.foldr (fun c rest ↦ escaped c ++ rest) ('"' :: rest) = k ++ '"' :: rest := by
    intro l
    induction l with
    | nil => exact ⟨[], .nil, fun _ ↦ rfl⟩
    | cons c l ih =>
      obtain ⟨k, hk, hrest⟩ := ih
      refine ⟨escaped c ++ k, stringText_escaped c hk, fun rest ↦ ?_⟩
      rw [List.foldr_cons, hrest, List.append_assoc]
  obtain ⟨k, hk, hrest⟩ := hfold s.toList
  exact ⟨k, hk, fun rest ↦ congrArg ('"' :: ·) (hrest rest)⟩

/-- A line break is white space. -/
theorem Layout.exists_isBlank_newline (layout : Layout) (depth : Nat) :
    ∃ w, IsBlank w ∧ ∀ rest, layout.newline depth rest = w ++ rest := by
  cases layout with
  | compact => exact ⟨[], isBlank_nil, fun _ ↦ rfl⟩
  | indented width =>
    refine ⟨'\n' :: List.replicate (depth * width) ' ', fun c hc ↦ ?_, fun _ ↦ rfl⟩
    rcases List.mem_cons.1 hc with rfl | hc
    · exact .inr (.inr (.inl rfl))
    · exact .inl (List.eq_of_mem_replicate hc)

/-- The name of a member and its colon, with white space after it. -/
theorem Layout.exists_stringText_name (layout : Layout) (name : String) :
    ∃ k w, StringText k name.toList ∧ IsBlank w ∧
      ∀ rest, layout.name name rest = '"' :: (k ++ '"' :: ':' :: (w ++ rest)) := by
  obtain ⟨k, hk, hquoted⟩ := exists_stringText_quoted name
  cases layout with
  | compact => exact ⟨k, [], hk, isBlank_nil, fun rest ↦ hquoted _⟩
  | indented width =>
    refine ⟨k, [' '], hk, fun c hc ↦ ?_, fun rest ↦ hquoted _⟩
    exact .inl (List.mem_singleton.1 hc)

/-! ### Members -/

/-- The text of a tree denotes what the tree is reread as. -/
def IsWritten (layout : Layout) (t : Tree) : Prop :=
  ∀ depth, ∃ k, ValueText t.reread.nesting k t.reread ∧
    ∀ rest, writeAt layout depth t rest = k ++ rest

variable {layout : Layout}

/-- Members after a comma. -/
theorem writeMembers_comma (depth : Nat) (array : Bool) (m : String × Tree)
    (ms : List (String × Tree)) (rest : List Char) :
    writeMembers layout depth array true (m :: ms) rest =
      ',' :: writeMembers layout depth array false (m :: ms) rest := by
  simp only [writeMembers, if_true, Bool.false_eq_true, if_false]

/-- The members of an array are written as elements. -/
theorem exists_elementsText {ms : List (String × Tree)} {m : String × Tree}
    (hms : ∀ n ∈ m :: ms, IsWritten layout n.2) {w : List Char} (hw : IsBlank w) (depth : Nat) :
    ∃ k, ElementsText (Tree.deepest (Tree.rereadMembers (m :: ms))) (k ++ w)
        ((Tree.rereadMembers (m :: ms)).map Prod.snd) ∧
      ∀ rest, writeMembers layout depth true false (m :: ms) rest = k ++ rest := by
  obtain ⟨w₁, hw₁, hnewline⟩ := layout.exists_isBlank_newline depth
  induction ms generalizing m with
  | nil =>
    obtain ⟨s, hs, hwrite⟩ := hms m List.mem_cons_self depth
    refine ⟨w₁ ++ s, ?_, fun rest ↦ ?_⟩
    · have hlast := ElementsText.last hw₁ hs hw
      simpa only [List.append_assoc, Tree.deepest, Tree.rereadMembers, Nat.max_zero, List.map_cons,
        List.map_nil] using hlast
    · simp only [writeMembers, if_true, Bool.false_eq_true, if_false, hnewline, hwrite,
        List.append_assoc]
  | cons m' ms ih =>
    obtain ⟨s, hs, hwrite⟩ := hms m List.mem_cons_self depth
    obtain ⟨k, hk, hrest⟩ := ih fun n hn ↦ hms n (List.mem_cons_of_mem m hn)
    refine ⟨w₁ ++ (s ++ ',' :: k), ?_, fun rest ↦ ?_⟩
    · have hcons := ElementsText.cons hw₁ hs isBlank_nil hk
      rw [Tree.rereadMembers, Tree.deepest, List.map_cons]
      simpa only [List.append_assoc, List.cons_append, List.nil_append] using hcons
    · rw [writeMembers]
      simp only [if_true, Bool.false_eq_true, if_false, hnewline, hwrite, writeMembers_comma, hrest,
        List.append_assoc, List.cons_append]

/-- The members of a map are written as members. -/
theorem exists_membersText {ms : List (String × Tree)} {m : String × Tree}
    (hms : ∀ n ∈ m :: ms, IsWritten layout n.2) {w : List Char} (hw : IsBlank w) (depth : Nat) :
    ∃ k, MembersText (Tree.deepest (Tree.rereadMembers (m :: ms))) (k ++ w)
        (Tree.rereadMembers (m :: ms)) ∧
      ∀ rest, writeMembers layout depth false false (m :: ms) rest = k ++ rest := by
  obtain ⟨w₁, hw₁, hnewline⟩ := layout.exists_isBlank_newline depth
  induction ms generalizing m with
  | nil =>
    obtain ⟨s, hs, hwrite⟩ := hms m List.mem_cons_self depth
    obtain ⟨l, w₃, hl, hw₃, hname⟩ := layout.exists_stringText_name m.1
    refine ⟨w₁ ++ '"' :: (l ++ '"' :: ':' :: (w₃ ++ s)), ?_, fun rest ↦ ?_⟩
    · have hlast := MembersText.last hw₁ hl isBlank_nil hw₃ hs hw
      simpa only [List.append_assoc, List.cons_append, List.nil_append, Tree.deepest,
        Tree.rereadMembers, Nat.max_zero, String.ofList_toList] using hlast
    · simp only [writeMembers, Bool.false_eq_true, if_false, hnewline, hname, hwrite,
        List.append_assoc, List.cons_append]
  | cons m' ms ih =>
    obtain ⟨s, hs, hwrite⟩ := hms m List.mem_cons_self depth
    obtain ⟨l, w₃, hl, hw₃, hname⟩ := layout.exists_stringText_name m.1
    obtain ⟨k, hk, hrest⟩ := ih fun n hn ↦ hms n (List.mem_cons_of_mem m hn)
    refine ⟨w₁ ++ '"' :: (l ++ '"' :: ':' :: (w₃ ++ (s ++ ',' :: k))), ?_, fun rest ↦ ?_⟩
    · have hcons := MembersText.cons hw₁ hl isBlank_nil hw₃ hs isBlank_nil hk
      rw [Tree.rereadMembers, Tree.deepest]
      simpa only [List.append_assoc, List.cons_append, List.nil_append, String.ofList_toList]
        using hcons
    · rw [writeMembers]
      simp only [Bool.false_eq_true, if_false, hnewline, hname, hwrite, writeMembers_comma, hrest,
        List.append_assoc, List.cons_append]

/-! ### Trees -/

/-- Members with distinct names are what remains of them. -/
theorem lastWins_self {ms : List (String × Tree)} (h : (Members.keys ms).Nodup) :
    LastWins ms ms := by
  rw [lastWins_iff, Tree.map_eq, Members.foldl_put_of_nodup h]

/-- A node without members is written as a pair of brackets. -/
theorem isWritten_node_nil (shape : Shape) : IsWritten layout (.node shape []) := by
  intro depth
  rw [Tree.reread, Tree.rereadMembers, Tree.nesting]
  by_cases harray : Tree.countsAsArray shape [] = true
  · refine ⟨['[', ']'], ?_, fun rest ↦ ?_⟩
    · rw [if_pos harray]
      exact .emptyArray isBlank_nil
    · simp only [writeAt, harray, if_true]
      rfl
  · refine ⟨['{', '}'], ?_, fun rest ↦ ?_⟩
    · rw [if_neg harray]
      exact .emptyObject isBlank_nil
    · simp only [writeAt, harray]
      rfl

/-- A node is written once its members are. -/
theorem isWritten_node_cons {shape : Shape} {m : String × Tree} {ms : List (String × Tree)}
    (hnodup : (Members.keys (m :: ms)).Nodup) (hms : ∀ n ∈ m :: ms, IsWritten layout n.2) :
    IsWritten layout (.node shape (m :: ms)) := by
  intro depth
  obtain ⟨w, hw, hnewline⟩ := layout.exists_isBlank_newline depth
  have hkeys := Tree.keys_rereadMembers (m :: ms)
  have hnesting (s : Shape) : (Tree.node s (Tree.rereadMembers (m :: ms))).nesting =
      Tree.deepest (Tree.rereadMembers (m :: ms)) + 1 := rfl
  rw [Tree.reread, hnesting]
  by_cases harray : Tree.countsAsArray shape (m :: ms) = true
  · obtain ⟨k, hk, hwrite⟩ := exists_elementsText hms hw (depth + 1)
    have hdense : Members.isDense (Tree.rereadMembers (m :: ms)) = true :=
      (Members.isDense_congr hkeys).trans harray
    refine ⟨'[' :: (k ++ w ++ [']']), ?_, fun rest ↦ ?_⟩
    · have htext : ValueText _ ('[' :: (k ++ w ++ [']'])) (.node .array (Members.ofValues _)) :=
        .array hk
      rw [Members.ofValues_of_isDense hdense] at htext
      rwa [if_pos harray]
    · simp only [writeAt, harray, if_true, hnewline, hwrite, List.append_assoc, List.cons_append,
        List.nil_append]
  · obtain ⟨k, hk, hwrite⟩ := exists_membersText hms hw (depth + 1)
    refine ⟨'{' :: (k ++ w ++ ['}']), ?_, fun rest ↦ ?_⟩
    · rw [if_neg harray]
      exact .object hk (lastWins_self (hkeys ▸ hnodup))
    · rw [Bool.not_eq_true] at harray
      simp only [writeAt, harray, Bool.false_eq_true, if_false, hnewline, hwrite, List.append_assoc,
        List.cons_append, List.nil_append]

theorem isWritten_number (n : Double) : IsWritten layout (.number n) := by
  intro depth
  rw [Tree.reread]
  by_cases hn : n.isFinite = true
  · obtain ⟨x, hx⟩ := Double.exists_numberText_text hn
    refine ⟨n.text, ?_, fun rest ↦ ?_⟩
    · rw [if_pos hn, hx.readDouble_eq]
      exact .number hx
    · rw [writeAt, numeral, if_pos hn]
  · refine ⟨['n', 'u', 'l', 'l'], ?_, fun rest ↦ ?_⟩
    · rw [if_neg hn]
      exact .nullWord
    · rw [writeAt, numeral, if_neg hn]

theorem isWritten_string (s : String) : IsWritten layout (.string s) := by
  intro depth
  obtain ⟨k, hk, hquoted⟩ := exists_stringText_quoted s
  refine ⟨'"' :: (k ++ ['"']), ?_, fun rest ↦ ?_⟩
  · have htext := ValueText.string hk
    rwa [String.ofList_toList] at htext
  · rw [writeAt, hquoted]
    simp only [List.cons_append, List.append_assoc, List.nil_append]

mutual

/-- The text of a tree denotes what the tree is reread as. -/
theorem isWritten : ∀ t : Tree, t.HasDistinctNames → IsWritten layout t
  | .nil, _ => fun _ ↦ ⟨_, .nullWord, fun _ ↦ rfl⟩
  | .number n, _ => isWritten_number n
  | .boolean true, _ => fun _ ↦ ⟨_, .trueWord, fun _ ↦ rfl⟩
  | .boolean false, _ => fun _ ↦ ⟨_, .falseWord, fun _ ↦ rfl⟩
  | .string s, _ => isWritten_string s
  | .node shape [], _ => isWritten_node_nil shape
  | .node _ (m :: ms), h => isWritten_node_cons h.1 (isWritten_of_mem (m :: ms) h.2)

/-- The texts of members denote what the members are reread as. -/
theorem isWritten_of_mem : ∀ ms : List (String × Tree), Tree.MembersHaveDistinctNames ms →
    ∀ m ∈ ms, IsWritten layout m.2
  | [], _, _, hm => absurd hm List.not_mem_nil
  | (_, t) :: ms, h, m, hm =>
    (List.mem_cons.1 hm).elim (fun heq ↦ heq ▸ isWritten t h.1) (isWritten_of_mem ms h.2 m)

end

end Json

end ScriptHost
