import ScriptHost.Proofs.Json.Members
import ScriptHost.Proofs.Json.Numbers
import ScriptHost.Proofs.Json.Outcome
import ScriptHost.Proofs.Json.Strings

/-!
# What is read is in the grammar

A reading that succeeds takes a text of the grammar off the front of its own, which goes less deep
than the levels that the reader was given, and gives the tree which that text denotes.

The induction is on the levels; within a container it is on the length of the text, since each
element and each member is read from a shorter one.

## Main results

* `Json.valueText_of_readValue` : what is read as a value is one.
-/

namespace ScriptHost.Json

/-- What a reader of values with so many levels gives is in the grammar. -/
def ReadsValues (levels : Nat) : Prop :=
  ∀ {s rest : List Char} {t : Tree}, outcome (readValue levels s) = .ok (t, rest) →
    ∃ d k, d < levels ∧ ValueText d k t ∧ s = k ++ rest

/-! ### Elements -/

/-- What is read as elements is elements, up to the bracket that closes them. -/
theorem ReadsValues.elements {levels : Nat} (hitem : ReadsValues levels) :
    ∀ {s rest : List Char} {ts : List Tree},
      outcome (readElements (readValue levels) s) = .ok (ts, rest) →
        ∃ d k, d < levels ∧ ElementsText d k ts ∧ s = k ++ ']' :: rest := by
  intro s
  induction hn : s.length using Nat.strongRecOn generalizing s with
  | _ n ih =>
    intro rest ts h
    subst hn
    rw [outcome_readElements] at h
    obtain ⟨⟨t, left⟩, ht, h⟩ := bind_eq_ok_iff.1 h
    obtain ⟨w₁, hw₁, hs₁⟩ := exists_isBlank_append_skipSpace s
    obtain ⟨w₂, hw₂, hs₂⟩ := exists_isBlank_append_skipSpace left
    obtain ⟨d, k, hd, hk, hs⟩ := hitem ht
    dsimp only at h
    split at h
    · rename_i s' hcomma
      rw [hs, hs₂, hcomma] at hs₁
      obtain ⟨⟨ts', rest'⟩, hts, h⟩ := map_eq_ok_iff.1 h
      cases h
      have hlength : s'.length < s.length := by
        rw [hs₁]
        simp only [List.length_append, List.length_cons]
        omega
      obtain ⟨e, k', he, hk', rfl⟩ := ih s'.length hlength rfl hts
      refine ⟨max d e, _, Nat.max_lt.2 ⟨hd, he⟩, .cons hw₁ hk hw₂ hk', ?_⟩
      rw [hs₁]
      simp only [List.append_assoc, List.cons_append]
    · rename_i s' hclose
      rw [hs, hs₂, hclose] at hs₁
      cases h
      refine ⟨d, _, hd, .last hw₁ hk hw₂, ?_⟩
      rw [hs₁]
      simp only [List.append_assoc]
    · cases h

/-! ### Members -/

/-- What is read as the name of a member is one, with its colon. -/
theorem stringText_of_readName {s rest : List Char} {name : String}
    (h : outcome (readName s) = .ok (name, rest)) :
    ∃ k chars w, StringText k chars ∧ name = String.ofList chars ∧ IsBlank w ∧
      s = '"' :: (k ++ '"' :: (w ++ ':' :: rest)) := by
  obtain ⟨s, rfl⟩ := exists_quote_of_readName h
  rw [outcome_readName_quote] at h
  obtain ⟨⟨text, left⟩, ht, h⟩ := bind_eq_ok_iff.1 h
  rw [outcome_readLiteral] at ht
  obtain ⟨⟨chars, r⟩, hchars, ht⟩ := map_eq_ok_iff.1 ht
  obtain rfl : r = left := congrArg Prod.snd ht
  obtain rfl : String.ofList chars = text := congrArg Prod.fst ht
  obtain ⟨k, hk, hs⟩ := stringText_of_readString hchars
  obtain ⟨w, hw, hleft⟩ := exists_isBlank_append_skipSpace r
  dsimp only at h
  split at h
  · rename_i s' hcolon
    cases h
    refine ⟨k, chars, w, hk, rfl, hw, ?_⟩
    rw [← hcolon, ← hleft, ← hs, List.tail_cons]
  · cases h

/-- What is read as members is members, up to the brace that closes them. -/
theorem ReadsValues.members {levels : Nat} (hitem : ReadsValues levels) :
    ∀ {s rest : List Char} {ms : List (String × Tree)},
      outcome (readMembers (readValue levels) s) = .ok (ms, rest) →
        ∃ d k, d < levels ∧ MembersText d k ms ∧ s = k ++ '}' :: rest := by
  intro s
  induction hn : s.length using Nat.strongRecOn generalizing s with
  | _ n ih =>
    intro rest ms h
    subst hn
    rw [outcome_readMembers] at h
    obtain ⟨⟨name, afterName⟩, hname, h⟩ := bind_eq_ok_iff.1 h
    obtain ⟨⟨t, left⟩, ht, h⟩ := bind_eq_ok_iff.1 h
    obtain ⟨w₁, hw₁, hs₁⟩ := exists_isBlank_append_skipSpace s
    obtain ⟨k, chars, w₂, hchars, rfl, hw₂, hs₂⟩ := stringText_of_readName hname
    obtain ⟨w₃, hw₃, hs₃⟩ := exists_isBlank_append_skipSpace afterName
    obtain ⟨d, v, hd, hv, hs₄⟩ := hitem ht
    obtain ⟨w₄, hw₄, hs₅⟩ := exists_isBlank_append_skipSpace left
    rw [hs₂, hs₃, hs₄, hs₅] at hs₁
    dsimp only at h
    split at h
    · rename_i s' hcomma
      rw [hcomma] at hs₁
      obtain ⟨⟨ms', rest'⟩, hms, h⟩ := map_eq_ok_iff.1 h
      cases h
      have hlength : s'.length < s.length := by
        rw [hs₁]
        simp only [List.length_append, List.length_cons]
        omega
      obtain ⟨e, k', he, hk', rfl⟩ := ih s'.length hlength rfl hms
      refine ⟨max d e, _, Nat.max_lt.2 ⟨hd, he⟩, .cons hw₁ hchars hw₂ hw₃ hv hw₄ hk', ?_⟩
      rw [hs₁]
      simp only [List.append_assoc, List.cons_append]
    · rename_i s' hclose
      rw [hclose] at hs₁
      cases h
      refine ⟨d, _, hd, .last hw₁ hchars hw₂ hw₃ hv hw₄, ?_⟩
      rw [hs₁]
      simp only [List.append_assoc, List.cons_append]
    · cases h

/-! ### Containers and words -/

theorem ReadsValues.array {levels : Nat} (hitem : ReadsValues levels) {s rest : List Char}
    {t : Tree} (h : outcome (readArray (readValue levels) s) = .ok (t, rest)) :
    ∃ d k, d < levels + 1 ∧ ValueText d k t ∧ '[' :: s = k ++ rest := by
  rw [outcome_readArray] at h
  split at h
  · rename_i left hclose
    cases h
    obtain ⟨w, hw, hs⟩ := exists_isBlank_append_skipSpace s
    refine ⟨0, _, Nat.succ_pos levels, .emptyArray hw, ?_⟩
    rw [hs, hclose]
    simp only [List.cons_append, List.append_assoc, List.nil_append]
  · obtain ⟨⟨ts, left⟩, hts, h⟩ := map_eq_ok_iff.1 h
    cases h
    obtain ⟨d, k, hd, hk, rfl⟩ := hitem.elements hts
    refine ⟨d + 1, _, Nat.succ_lt_succ hd, .array hk, ?_⟩
    simp only [List.cons_append, List.append_assoc, List.nil_append]

theorem ReadsValues.object {levels : Nat} (hitem : ReadsValues levels) {s rest : List Char}
    {t : Tree} (h : outcome (readObject (readValue levels) s) = .ok (t, rest)) :
    ∃ d k, d < levels + 1 ∧ ValueText d k t ∧ '{' :: s = k ++ rest := by
  rw [outcome_readObject] at h
  split at h
  · rename_i left hclose
    cases h
    obtain ⟨w, hw, hs⟩ := exists_isBlank_append_skipSpace s
    refine ⟨0, _, Nat.succ_pos levels, .emptyObject hw, ?_⟩
    rw [hs, hclose]
    simp only [List.cons_append, List.append_assoc, List.nil_append]
  · obtain ⟨⟨ms, left⟩, hms, h⟩ := map_eq_ok_iff.1 h
    cases h
    obtain ⟨d, k, hd, hk, rfl⟩ := hitem.members hms
    refine ⟨d + 1, _, Nat.succ_lt_succ hd, .object hk (lastWins_iff.2 rfl), ?_⟩
    simp only [List.cons_append, List.append_assoc, List.nil_append]

/-- What is read as a word is that word. -/
theorem eq_append_of_readWord {word s rest : List Char} {t u : Tree} {c : Char}
    (h : outcome (readWord word t c s) = .ok (u, rest)) : u = t ∧ s = word ++ rest := by
  rw [outcome_readWord] at h
  split_ifs at h with hword
  cases h
  obtain ⟨r, rfl⟩ := List.isPrefixOf_iff_prefix.1 hword
  rw [List.drop_left]
  exact ⟨rfl, rfl⟩

/-! ### Values -/

/-- One more level: each kind of value is known from its first character. -/
theorem ReadsValues.succ {levels : Nat} (hitem : ReadsValues levels) :
    ReadsValues (levels + 1) := by
  rintro (_ | ⟨c, s⟩) rest t h
  · cases h
  rw [outcome_readValue_cons] at h
  split_ifs at h with hbrace hbracket hquote hnumber htrue hfalse hnull
  · subst hbrace
    exact hitem.object h
  · subst hbracket
    exact hitem.array h
  · subst hquote
    obtain ⟨⟨chars, left⟩, hchars, h⟩ := map_eq_ok_iff.1 h
    cases h
    obtain ⟨k, hk, rfl⟩ := stringText_of_readString hchars
    refine ⟨0, _, Nat.succ_pos levels, .string hk, ?_⟩
    simp only [List.cons_append, List.append_assoc, List.nil_append]
  · split at h
    · rename_i p hp
      cases h
      obtain ⟨k, hk, hs⟩ := numberText_of_readNumber? hp
      exact ⟨0, k, Nat.succ_pos levels, .number hk, hs⟩
    · cases h
  · obtain ⟨rfl, rfl⟩ := eq_append_of_readWord h
    exact ⟨0, _, Nat.succ_pos levels, .trueWord, congrArg (· :: _) htrue⟩
  · obtain ⟨rfl, rfl⟩ := eq_append_of_readWord h
    exact ⟨0, _, Nat.succ_pos levels, .falseWord, congrArg (· :: _) hfalse⟩
  · obtain ⟨rfl, rfl⟩ := eq_append_of_readWord h
    exact ⟨0, _, Nat.succ_pos levels, .nullWord, congrArg (· :: _) hnull⟩

/-- What is read as a value is one. -/
theorem valueText_of_readValue (levels : Nat) : ReadsValues levels := by
  induction levels with
  | zero =>
    intro s rest t h
    cases h
  | succ levels ih => exact ih.succ

end ScriptHost.Json
