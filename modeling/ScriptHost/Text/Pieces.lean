/-!
# Taking texts apart

Cutting a text at a character, and texts that differ only in ASCII letter case.

## Main definitions

* `Text.splitOnce` : what stands before and after the first occurrence of a character.
* `Text.splitPair` : the pieces between occurrences of a pair of characters.
* `Text.sameIgnoringCase` : equality up to ASCII letter case.
-/

namespace ScriptHost.Text

/-- What stands before and after the first `c`, if there is one. -/
def splitOnce (c : Char) (s : List Char) : Option (List Char × List Char) :=
  match s.dropWhile (· != c) with
  | [] => none
  | _ :: after => some (s.takeWhile (· != c), after)

/-- The text is cut at the first `c`, and at no other. -/
theorem splitOnce_eq_some_iff {c : Char} {s before after : List Char} :
    splitOnce c s = some (before, after) ↔ s = before ++ c :: after ∧ c ∉ before := by
  constructor
  · intro h
    have hs : s.takeWhile (· != c) ++ s.dropWhile (· != c) = s := List.takeWhile_append_dropWhile
    have hall : (s.takeWhile (· != c)).all (· != c) = true := List.all_takeWhile
    have hhead := List.head?_dropWhile_not (· != c) s
    unfold splitOnce at h
    split at h
    · exact absurd h.symm (Option.some_ne_none _)
    · rename_i d rest hd
      obtain ⟨rfl, rfl⟩ := Prod.mk.inj (Option.some.inj h)
      rw [hd] at hs hhead
      have hdc : d = c := by simpa using hhead
      rw [hdc] at hs
      refine ⟨hs.symm, fun hc ↦ ?_⟩
      have := List.all_eq_true.1 hall c hc
      simp at this
  · rintro ⟨rfl, hn⟩
    have hp : ∀ a ∈ before, (a != c) = true := fun a ha ↦ bne_iff_ne.2 fun h ↦ hn (h ▸ ha)
    simp [splitOnce, List.dropWhile_append_of_pos hp, List.takeWhile_append_of_pos hp]

theorem splitOnce_eq_none_iff {c : Char} {s : List Char} : splitOnce c s = none ↔ c ∉ s := by
  constructor
  · intro h hc
    obtain ⟨before, after, hs, hn⟩ := List.eq_append_cons_of_mem hc
    rw [splitOnce_eq_some_iff.2 ⟨hs, hn⟩] at h
    exact absurd h (Option.some_ne_none _)
  · intro hc
    rw [Option.eq_none_iff_forall_not_mem]
    rintro ⟨before, after⟩ h
    exact hc ((splitOnce_eq_some_iff.1 h).1 ▸ by simp)

theorem length_after_splitOnce {c : Char} {s before after : List Char}
    (h : splitOnce c s = some (before, after)) : after.length < s.length := by
  rw [(splitOnce_eq_some_iff.1 h).1, List.length_append, List.length_cons]
  omega

/-- The pieces of a text between occurrences of `a` directly followed by `b`. -/
def splitPair (a b : Char) : List Char → List (List Char)
  | [] => [[]]
  | [c] => [[c]]
  | c :: d :: s =>
    if c = a ∧ d = b then [] :: splitPair a b s
    else match splitPair a b (d :: s) with
      | [] => [[c]]
      | piece :: pieces => (c :: piece) :: pieces

/-- Equality up to the case of ASCII letters. -/
def sameIgnoringCase (s t : List Char) : Bool := s.map Char.toLower == t.map Char.toLower

/-- How many bytes a text takes in UTF-8. -/
def byteCount (s : List Char) : Nat := s.foldr (fun c n ↦ c.utf8Size + n) 0

end ScriptHost.Text
