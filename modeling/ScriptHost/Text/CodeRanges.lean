/-!
# Sets of characters given by ranges

A property of characters is a table of ranges of code points in ascending order and apart from each
other, so the first range that ends at a code point or after it decides.

## Main definitions

* `Text.CodeRanges` : such a table.
* `Text.CodeRanges.contains` : whether a character is in it.

## Main results

* `Text.CodeRanges.contains_iff` : the characters of a table are those of its ranges.
-/

namespace ScriptHost.Text

/-- Whether the ranges, each given by its first and its last code point, begin at `least` or later
and each behind the one before it. -/
def ascendingFrom (least : Nat) : List (Nat × Nat) → Bool
  | [] => true
  | (first, last) :: ranges =>
    decide (least ≤ first) && decide (first ≤ last) && ascendingFrom (last + 1) ranges

/-- Ranges of code points, each with its first and its last one, in ascending order and apart. -/
structure CodeRanges where
  ranges : List (Nat × Nat)
  ascending : ascendingFrom 0 ranges = true

namespace CodeRanges

/-- Whether a character is in one of the ranges. -/
def contains (t : CodeRanges) (c : Char) : Bool :=
  (t.ranges.find? fun r ↦ decide (c.toNat ≤ r.2)).any fun r ↦ decide (r.1 ≤ c.toNat)

private theorem le_of_ascendingFrom {least : Nat} {ranges : List (Nat × Nat)}
    (h : ascendingFrom least ranges = true) : ∀ r ∈ ranges, least ≤ r.1 := by
  induction ranges generalizing least with
  | nil => intro r hr; cases hr
  | cons q ranges ih =>
    obtain ⟨first, last⟩ := q
    simp only [ascendingFrom, Bool.and_eq_true, decide_eq_true_eq] at h
    obtain ⟨⟨hfirst, hlast⟩, htail⟩ := h
    intro r hr
    rcases List.mem_cons.1 hr with rfl | hr
    · exact hfirst
    · have := ih htail r hr
      omega

private theorem any_find?_iff {n least : Nat} {ranges : List (Nat × Nat)}
    (h : ascendingFrom least ranges = true) :
    ((ranges.find? fun r ↦ decide (n ≤ r.2)).any fun r ↦ decide (r.1 ≤ n)) = true ↔
      ∃ r ∈ ranges, r.1 ≤ n ∧ n ≤ r.2 := by
  induction ranges generalizing least with
  | nil => simp
  | cons q ranges ih =>
    obtain ⟨first, last⟩ := q
    simp only [ascendingFrom, Bool.and_eq_true, decide_eq_true_eq] at h
    obtain ⟨-, htail⟩ := h
    by_cases hn : n ≤ last
    · rw [List.find?_cons_of_pos (by simpa using hn)]
      constructor
      · intro hf
        exact ⟨(first, last), List.mem_cons_self, by simpa using hf, hn⟩
      · rintro ⟨r, hr, hr1, hr2⟩
        rcases List.mem_cons.1 hr with rfl | hr
        · simpa using hr1
        · have := le_of_ascendingFrom htail r hr
          omega
    · rw [List.find?_cons_of_neg (by simpa using hn), ih htail]
      constructor
      · rintro ⟨r, hr, hb⟩
        exact ⟨r, List.mem_cons_of_mem _ hr, hb⟩
      · rintro ⟨r, hr, hr1, hr2⟩
        rcases List.mem_cons.1 hr with rfl | hr
        · exact absurd hr2 hn
        · exact ⟨r, hr, hr1, hr2⟩

/-- The characters of a table are those of its ranges. -/
theorem contains_iff (t : CodeRanges) (c : Char) :
    t.contains c = true ↔ ∃ r ∈ t.ranges, r.1 ≤ c.toNat ∧ c.toNat ≤ r.2 :=
  any_find?_iff t.ascending

end CodeRanges

end ScriptHost.Text
