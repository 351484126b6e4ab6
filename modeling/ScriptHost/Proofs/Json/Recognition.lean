import ScriptHost.Proofs.Json.Completeness
import ScriptHost.Proofs.Json.Soundness

/-!
# The reader decides the grammar

A text is parsed exactly when it is a document whose values are enclosed by no more containers than
the bound on the nesting allows, and then to the tree which it denotes.

## Main results

* `Json.parse_eq_ok_iff` : which texts are parsed, and to what.
* `Json.DocumentText.unique` : a text denotes one tree and has one depth.
* `Json.DocumentText.parse_eq_error` : a document that goes too deep fails with the fault that says
  so.
-/

namespace ScriptHost.Json

/-- What is left after a document is white space. -/
theorem isBlank_of_skipSpace_eq_nil {s : List Char} (h : skipSpace s = []) : IsBlank s := by
  obtain ⟨w, hw, hs⟩ := exists_isBlank_append_skipSpace s
  rw [h, List.append_nil] at hs
  exact hs ▸ hw

theorem skipSpace_eq_nil {w : List Char} (hw : IsBlank w) : skipSpace w = [] := by
  have h := skipSpace_append hw []
  rw [List.append_nil] at h
  exact h

/-- White space ends numbers. -/
theorem endsNumber_of_isBlank {w : List Char} (hw : IsBlank w) : EndsNumber w := by
  cases w with
  | nil => exact endsNumber_nil
  | cons b w =>
    rintro d hd
    obtain rfl : b = d := Option.some.inj hd
    rcases hw b List.mem_cons_self with rfl | rfl | rfl | rfl <;> decide

/-- The value of a document is read with any number of levels, up to white space. -/
theorem DocumentText.exists_isRead {d : Nat} {s : List Char} {t : Tree} (h : DocumentText d s t) :
    ∃ w, IsBlank w ∧ ∀ levels, Answers levels d (outcome (readValue levels (skipSpace s))) t w := by
  obtain @⟨w₁, k, w₂, t, hw₁, hk, hw₂⟩ := h
  rw [skipSpace_append_value hw₁ hk]
  exact ⟨w₂, hw₂, fun levels ↦ hk.isRead levels w₂ (endsNumber_of_isBlank hw₂)⟩

/-- How a document is answered, whatever its depth. -/
theorem DocumentText.answers {d : Nat} {s : List Char} {t : Tree} (h : DocumentText d s t) :
    if d ≤ maxNesting then readDocument s = .ok t
    else ∃ left, readDocument s = .error ⟨.nestingTooDeep, left⟩ := by
  obtain ⟨w, hw, hread⟩ := h.exists_isRead
  have hread := hread (maxNesting + 1)
  rw [readDocument_eq]
  unfold Answers at hread
  simp only [Nat.lt_succ_iff] at hread
  split_ifs at hread ⊢
  · rw [hread]
    simp only [Except.bind, skipSpace_eq_nil hw]
  · obtain ⟨left, hleft⟩ := hread
    exact ⟨left, by rw [hleft]; rfl⟩

private theorem DocumentText.depth_le {d e : Nat} {s : List Char} {t u : Tree}
    (ht : DocumentText d s t) (hu : DocumentText e s u) : d ≤ e := by
  obtain ⟨w, -, hread⟩ := ht.exists_isRead
  obtain ⟨w', -, hread'⟩ := hu.exists_isRead
  refine Nat.le_of_not_lt fun hlt ↦ ?_
  have hdeep := hread d
  have hok := hread' d
  rw [Answers, if_neg (Nat.lt_irrefl d)] at hdeep
  rw [Answers, if_pos hlt] at hok
  obtain ⟨left, hleft⟩ := hdeep
  rw [hleft] at hok
  cases hok

/-- A text denotes one tree and has one depth. -/
theorem DocumentText.unique {d e : Nat} {s : List Char} {t u : Tree} (ht : DocumentText d s t)
    (hu : DocumentText e s u) : d = e ∧ t = u := by
  obtain rfl := Nat.le_antisymm (ht.depth_le hu) (hu.depth_le ht)
  obtain ⟨w, -, hread⟩ := ht.exists_isRead
  obtain ⟨w', -, hread'⟩ := hu.exists_isRead
  have hok := hread (d + 1)
  have hok' := hread' (d + 1)
  rw [Answers, if_pos (Nat.lt_succ_self d)] at hok hok'
  rw [hok] at hok'
  cases hok'
  exact ⟨rfl, rfl⟩

/-- What is read as a document is one. -/
theorem documentText_of_readDocument {s : List Char} {t : Tree} (h : readDocument s = .ok t) :
    ∃ d ≤ maxNesting, DocumentText d s t := by
  rw [readDocument_eq] at h
  obtain ⟨w₁, hw₁, hs⟩ := exists_isBlank_append_skipSpace s
  rcases hread : outcome (readValue (maxNesting + 1) (skipSpace s)) with stop | ⟨u, left⟩
  · rw [hread] at h
    cases h
  rw [hread] at h
  simp only [Except.bind] at h
  split at h
  · rename_i hleft
    cases h
    obtain ⟨d, k, hd, hk, hk'⟩ := valueText_of_readValue _ hread
    rw [hk'] at hs
    rw [hs]
    exact ⟨d, Nat.le_of_lt_succ hd, .intro hw₁ hk (isBlank_of_skipSpace_eq_nil hleft)⟩
  · cases h

theorem parse_eq (text : String) :
    parse text = (readDocument text.toList).mapError fun stop ↦
      ⟨stop.fault, Text.byteCount text.toList - Text.byteCount stop.left⟩ := by
  unfold parse
  cases h : readDocument text.toList <;> simp only [h] <;> rfl

/-- What is read as a document is what is parsed. -/
theorem parse_eq_ok_iff_readDocument {text : String} {t : Tree} :
    parse text = .ok t ↔ readDocument text.toList = .ok t := by
  rw [parse_eq]
  cases readDocument text.toList <;> simp [Except.mapError]

/-- A document that does not go too deep is parsed to the tree which it denotes. -/
theorem DocumentText.parse_eq_ok {d : Nat} {text : String} {t : Tree}
    (h : DocumentText d text.toList t) (hd : d ≤ maxNesting) : parse text = .ok t := by
  have hread := h.answers
  rw [if_pos hd] at hread
  exact parse_eq_ok_iff_readDocument.2 hread

/-- A document that goes too deep fails with the fault that says so. -/
theorem DocumentText.parse_eq_error {d : Nat} {text : String} {t : Tree}
    (h : DocumentText d text.toList t) (hd : maxNesting < d) :
    ∃ f, parse text = .error f ∧ f.fault = .nestingTooDeep := by
  have hread := h.answers
  rw [if_neg (Nat.not_le.2 hd)] at hread
  obtain ⟨left, hleft⟩ := hread
  rw [parse_eq, hleft]
  exact ⟨_, rfl, rfl⟩

/-- A text is parsed exactly when it is a document that does not go too deep, and then to the tree
which it denotes. -/
theorem parse_eq_ok_iff (text : String) (t : Tree) :
    parse text = .ok t ↔ ∃ d ≤ 512, DocumentText d text.toList t := by
  constructor
  · exact fun h ↦ documentText_of_readDocument (parse_eq_ok_iff_readDocument.1 h)
  · rintro ⟨d, hd, h⟩
    exact h.parse_eq_ok hd

end ScriptHost.Json
