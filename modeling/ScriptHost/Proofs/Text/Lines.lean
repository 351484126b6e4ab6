import Mathlib.Tactic.Common
import ScriptHost.Text.Blank
import ScriptHost.Text.Pieces

/-!
# Lines and the white space around them

A text that was joined from lines is cut into them again, and white space at the end of a line does
not matter once the line is trimmed.

## Main definitions

* `Text.IsTrimmed` : no white space at either end.

## Main results

* `Text.splitPair_append`, `Text.splitPair_eq_singleton` : the first line of a text.
* `Text.splitOnce_getD` : what stands before and after a character.
* `Text.trim_append`, `Text.IsTrimmed.trim_eq` : what trimming takes away.
* `Text.isTrimmed_trim` : what trimming leaves.
-/

namespace ScriptHost.Text

/-! ### Pieces between pairs -/

section Pairs

variable {α : Type} {a b : α} {s : List α}

/-- A list without the second one of two has no pair of them. -/
theorem pair_notInfix_of_notMem (h : b ∉ s) : ¬[a, b] <:+: s := fun hpart ↦
  h (hpart.subset (List.mem_cons_of_mem a List.mem_cons_self))

/-- No pair begins in a list without the first one of two. -/
theorem pair_notInfix_append {t : List α} (hs : a ∉ s) (ht : ¬[a, b] <:+: t) :
    ¬[a, b] <:+: s ++ t := by
  induction s with
  | nil => exact ht
  | cons c s ih =>
    rw [List.cons_append, List.infix_cons_iff, not_or]
    refine ⟨?_, ih fun ha ↦ hs (List.mem_cons_of_mem c ha)⟩
    rintro ⟨u, hu⟩
    exact hs ((List.cons.inj hu).1 ▸ List.mem_cons_self)

/-- No pair begins a list without pairs when another one follows it. -/
theorem pair_notPrefix_append (hab : a ≠ b) (hs : s ≠ []) (h : ¬[a, b] <:+: s) (t : List α) :
    ¬[a, b] <+: s ++ a :: t := by
  rcases s with _ | ⟨c, _ | ⟨d, s⟩⟩
  · exact absurd rfl hs
  · rintro ⟨u, hu⟩
    exact hab (List.cons.inj (List.cons.inj hu).2).1.symm
  · rintro ⟨u, hu⟩
    obtain ⟨rfl, htail⟩ := List.cons.inj hu
    obtain ⟨rfl, -⟩ := List.cons.inj htail
    exact h (List.IsPrefix.isInfix ⟨s, rfl⟩)

end Pairs

section SplitPair

variable {a b c : Char} {s piece : List Char} {pieces : List (List Char)}

/-- A character in front belongs to the first piece, unless it makes a pair with what follows. -/
theorem splitPair_cons (hs : ¬[a, b] <+: c :: s) (h : splitPair a b s = piece :: pieces) :
    splitPair a b (c :: s) = (c :: piece) :: pieces := by
  cases s with
  | nil =>
    rw [splitPair] at h
    obtain ⟨rfl, rfl⟩ := List.cons.inj h
    rfl
  | cons d s =>
    have hne : ¬(c = a ∧ d = b) := by
      rintro ⟨rfl, rfl⟩
      exact hs ⟨s, rfl⟩
    rw [splitPair, if_neg hne, h]

theorem splitPair_eq_singleton (h : ¬[a, b] <:+: s) : splitPair a b s = [s] := by
  induction s with
  | nil => rfl
  | cons c s ih =>
    exact splitPair_cons (fun hprefix ↦ h hprefix.isInfix)
      (ih fun hpart ↦ h (List.infix_cons hpart))

/-- The first piece ends at the first pair. -/
theorem splitPair_append (hab : a ≠ b) {line : List Char} (h : ¬[a, b] <:+: line)
    (s : List Char) : splitPair a b (line ++ a :: b :: s) = line :: splitPair a b s := by
  induction line with
  | nil => rw [List.nil_append, splitPair, if_pos ⟨rfl, rfl⟩]
  | cons c line ih =>
    exact splitPair_cons (pair_notPrefix_append hab (List.cons_ne_nil c line) h (b :: s))
      (ih fun hpart ↦ h (List.infix_cons hpart))

end SplitPair

/-- What stands before and after the first `c`, with all before it if there is none. -/
theorem splitOnce_getD (c : Char) (s : List Char) :
    (splitOnce c s).getD (s, []) = (s.takeWhile (· != c), (s.dropWhile (· != c)).drop 1) := by
  have hs := List.takeWhile_append_dropWhile (p := (· != c)) (l := s)
  unfold splitOnce
  cases hdrop : s.dropWhile (· != c) with
  | nil =>
    rw [hdrop, List.append_nil] at hs
    rw [hs]
    rfl
  | cons d after => rfl

/-- No piece of a text that is cut at a separator holds it. -/
theorem notMem_of_mem_splitOn {c : Char} {s piece : List Char} (h : piece ∈ s.splitOn c) :
    c ∉ piece := by
  induction hlength : s.length using Nat.strongRecOn generalizing s with
  | _ n ih =>
    by_cases hc : c ∈ s
    · obtain ⟨before, after, rfl, hbefore⟩ := List.eq_append_cons_of_mem hc
      rw [List.splitOn_append_cons_self_of_not_mem hbefore] at h
      rcases List.mem_cons.1 h with rfl | h
      · exact hbefore
      · refine ih after.length ?_ h rfl
        rw [← hlength, List.length_append, List.length_cons]
        omega
    · rw [List.splitOn_eq_singleton hc, List.mem_singleton] at h
      exact h ▸ hc

/-! ### White space -/

/-- A text with no white space at either end. -/
structure IsTrimmed (s : List Char) : Prop where
  head : ∀ c ∈ s.head?, isBlank c = false
  last : ∀ c ∈ s.getLast?, isBlank c = false

section Trim

variable {p : Char → Bool} {s t : List Char}

theorem dropWhile_of_head (h : ∀ c ∈ s.head?, p c = false) : s.dropWhile p = s := by
  cases s with
  | nil => rfl
  | cons c s =>
    have hc : ¬p c = true := by simp [h c rfl]
    exact List.dropWhile_cons_of_neg hc

theorem trimEndWhile_of_last (h : ∀ c ∈ s.getLast?, p c = false) : trimEndWhile p s = s := by
  have hhead : ∀ c ∈ s.reverse.head?, p c = false := by rwa [List.head?_reverse]
  rw [trimEndWhile, dropWhile_of_head hhead, List.reverse_reverse]

theorem trimEndWhile_append (h : ∀ c ∈ t, p c = true) :
    trimEndWhile p (s ++ t) = trimEndWhile p s := by
  have hreverse : ∀ c ∈ t.reverse, p c = true := fun c hc ↦ h c (List.mem_reverse.1 hc)
  rw [trimEndWhile, List.reverse_append, List.dropWhile_append_of_pos hreverse, trimEndWhile]

/-- What is taken away at the end satisfies the condition. -/
theorem exists_trimEndWhile_append (p : Char → Bool) (s : List Char) :
    ∃ t, s = trimEndWhile p s ++ t ∧ ∀ c ∈ t, p c = true := by
  refine ⟨(s.reverse.takeWhile p).reverse, ?_, fun c hc ↦ ?_⟩
  · rw [trimEndWhile, ← List.reverse_append, List.takeWhile_append_dropWhile, List.reverse_reverse]
  · exact List.all_eq_true.1 List.all_takeWhile c (List.mem_reverse.1 hc)

/-- White space at the end does not matter. -/
theorem trim_append (h : ∀ c ∈ t, isBlank c = true) : trim (s ++ t) = trim s := by
  unfold trim
  rw [List.dropWhile_append]
  split_ifs with hs
  · have ht : (t ++ []).dropWhile isBlank = [] := List.dropWhile_append_of_pos h
    rw [List.append_nil] at ht
    rw [ht, List.isEmpty_iff.1 hs]
  · exact trimEndWhile_append h

theorem trim_cons {c : Char} (hc : isBlank c = true) (s : List Char) : trim (c :: s) = trim s := by
  rw [trim, List.dropWhile_cons_of_pos hc, trim]

theorem IsTrimmed.trim_eq (h : IsTrimmed s) : trim s = s := by
  rw [trim, dropWhile_of_head h.head, trimEndWhile_of_last h.last]

/-- A character that is no white space keeps what stands before and after it from one end each. -/
theorem isTrimmed_append_cons_iff {x : Char} (hx : isBlank x = false) :
    IsTrimmed (s ++ x :: t) ↔
      (∀ c ∈ s.head?, isBlank c = false) ∧ ∀ c ∈ t.getLast?, isBlank c = false := by
  have hhead : (∀ c ∈ (s ++ x :: t).head?, isBlank c = false) ↔
      ∀ c ∈ s.head?, isBlank c = false := by
    cases s <;> simp [hx]
  have hlast : (∀ c ∈ (s ++ x :: t).getLast?, isBlank c = false) ↔
      ∀ c ∈ t.getLast?, isBlank c = false := by
    rw [List.getLast?_append, List.getLast?_cons]
    cases t.getLast? <;> simp [hx]
  exact ⟨fun h ↦ ⟨hhead.1 h.head, hlast.1 h.last⟩, fun h ↦ ⟨hhead.2 h.1, hlast.2 h.2⟩⟩

/-- White space at either end does not matter. -/
theorem trim_append_append {before after : List Char} (hbefore : ∀ c ∈ before, isBlank c = true)
    (hafter : ∀ c ∈ after, isBlank c = true) : trim (before ++ s ++ after) = trim s := by
  rw [trim_append hafter, trim, List.dropWhile_append_of_pos hbefore, trim]

/-- Trimming takes away white space at both ends. -/
theorem exists_append_trim_append (s : List Char) :
    ∃ before after, s = before ++ trim s ++ after ∧ (∀ c ∈ before, isBlank c = true) ∧
      ∀ c ∈ after, isBlank c = true := by
  obtain ⟨after, hdrop, hafter⟩ := exists_trimEndWhile_append isBlank (s.dropWhile isBlank)
  refine ⟨s.takeWhile isBlank, after, ?_, List.all_eq_true.1 List.all_takeWhile, hafter⟩
  rw [trim, List.append_assoc, ← hdrop, List.takeWhile_append_dropWhile]

theorem mem_of_mem_trim {c : Char} (h : c ∈ trim s) : c ∈ s := by
  obtain ⟨before, after, hs, -⟩ := exists_append_trim_append s
  rw [hs]
  exact List.mem_append_left _ (List.mem_append_right _ h)

/-- What is left begins with no character that was to be taken away. -/
theorem eq_false_of_mem_head?_dropWhile {c : Char} (h : c ∈ (s.dropWhile p).head?) :
    p c = false := by
  have hhead := List.head?_dropWhile_not p s
  rw [Option.mem_def.1 h] at hhead
  simpa using hhead

theorem isTrimmed_trim (s : List Char) : IsTrimmed (trim s) where
  head c hc := by
    obtain ⟨after, hdrop, -⟩ := exists_trimEndWhile_append isBlank (s.dropWhile isBlank)
    have hhead : (trimEndWhile isBlank (s.dropWhile isBlank)).head? = some c := hc
    apply eq_false_of_mem_head?_dropWhile (s := s)
    rw [hdrop, List.head?_append, hhead]
    rfl
  last c hc := by
    rw [trim, trimEndWhile, List.getLast?_reverse] at hc
    exact eq_false_of_mem_head?_dropWhile hc

end Trim

end ScriptHost.Text
