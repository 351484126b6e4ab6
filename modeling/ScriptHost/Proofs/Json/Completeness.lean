import ScriptHost.Proofs.Json.Members
import ScriptHost.Proofs.Json.Numbers
import ScriptHost.Proofs.Json.Outcome
import ScriptHost.Proofs.Json.Strings

/-!
# What the grammar has is read

A value in front of a text that does not go on with a number is read to its end, and its tree is
given.  Only the bound on the nesting can stop the reader: it stops exactly when some value is
enclosed by as many containers as there are levels, and then with the fault that says so.

## Main results

* `Json.ValueText.isRead`, `Json.ElementsText.areRead`, `Json.MembersText.areRead` : the answers of
  the readers, by recursion on the grammar.
-/

namespace ScriptHost.Json

/-- The answer of a reader with `levels` levels to a text that goes `depth` containers deep: what is
there and what follows it, or the fault of too deep a nesting. -/
def Answers {α : Type} (levels depth : Nat) (r : Except Stop (α × List Char)) (a : α)
    (left : List Char) : Prop :=
  if depth < levels then r = .ok (a, left) else TooDeep r

/-- Containers end numbers. -/
theorem endsNumber_append {w r : List Char} {c : Char} (hw : IsBlank w)
    (hc : c = ',' ∨ c = ']' ∨ c = '}') : EndsNumber (w ++ c :: r) := by
  cases w with
  | nil =>
    rintro d hd
    obtain rfl : c = d := Option.some.inj hd
    rcases hc with rfl | rfl | rfl <;> decide
  | cons b w =>
    rintro d hd
    obtain rfl : b = d := Option.some.inj hd
    rcases hw b List.mem_cons_self with rfl | rfl | rfl | rfl <;> decide

/-- A number begins with a minus or with a digit. -/
theorem NumberText.head {s : List Char} {x : Double} (h : NumberText s x) :
    ∃ c s', s = c :: s' ∧ (c = '-' ∨ c.isDigit = true) := by
  obtain @⟨minus, whole, fraction, exponent, x, hminus, hwhole, -, -, -⟩ := h
  obtain ⟨d, ds, rfl⟩ := List.exists_cons_of_ne_nil hwhole.1
  rcases hminus with rfl | rfl
  · exact ⟨d, _, rfl, .inr (hwhole.2 d List.mem_cons_self)⟩
  · exact ⟨'-', _, rfl, .inl rfl⟩

/-- A value begins with a character that is neither white space nor closes a container. -/
theorem ValueText.head {d : Nat} {s : List Char} {t : Tree} (h : ValueText d s t) :
    ∃ c s', s = c :: s' ∧ isSpace c = false ∧ c ≠ ']' ∧ c ≠ '}' := by
  cases h with
  | number h =>
    obtain ⟨c, s', rfl, hc⟩ := h.head
    refine ⟨c, s', rfl, ?_⟩
    rcases hc with rfl | hc
    · decide
    · have hspace : isSpace c = false := by
        rw [← Bool.not_eq_true, isSpace_iff]
        rintro (rfl | rfl | rfl | rfl) <;> exact absurd hc (by decide)
      exact ⟨hspace, ne_of_isDigit hc rfl, ne_of_isDigit hc rfl⟩
  | _ => exact ⟨_, _, rfl, by decide, by decide, by decide⟩

/-- White space in front of a value is skipped, and no more. -/
theorem skipSpace_append_value {d : Nat} {w s : List Char} {t : Tree} (hw : IsBlank w)
    (h : ValueText d s t) (r : List Char) : skipSpace (w ++ (s ++ r)) = s ++ r := by
  obtain ⟨c, s', rfl, hc, -⟩ := h.head
  rw [skipSpace_append hw, skipSpace, List.cons_append, List.dropWhile_cons_of_neg (by simp [hc])]

theorem skipSpace_append_cons {w : List Char} {c : Char} (hw : IsBlank w) (hc : isSpace c = false)
    (r : List Char) : skipSpace (w ++ c :: r) = c :: r := by
  rw [skipSpace_append hw, skipSpace, List.dropWhile_cons_of_neg (by simp [hc])]

/-- The name of a member is read with its colon. -/
theorem outcome_readName_append {k name w r : List Char} (hname : StringText k name)
    (hw : IsBlank w) :
    outcome (readName ('"' :: (k ++ '"' :: (w ++ ':' :: r)))) = .ok (String.ofList name, r) := by
  rw [outcome_readName_quote]
  simp only [outcome_readLiteral, List.tail_cons, readString_append hname, Except.map, Except.bind,
    skipSpace_append_cons hw (c := ':') rfl]

theorem answers_zero {α : Type} {depth : Nat} {s left : List Char} {a : α} :
    Answers 0 depth (.error ⟨.nestingTooDeep, s⟩) a left := by
  rw [Answers, if_neg (Nat.not_lt_zero depth)]
  exact ⟨s, rfl⟩

theorem answers_ok {α : Type} {levels : Nat} {left : List Char} {a : α} :
    Answers (levels + 1) 0 (.ok (a, left)) a left := by
  rw [Answers, if_pos (Nat.succ_pos levels)]

/-- Working on what was read works on the answer. -/
theorem Answers.map {α β : Type} {levels depth : Nat} {r : Except Stop (α × List Char)} {a : α}
    {left : List Char} (f : α → β) (h : Answers levels depth r a left) :
    Answers levels depth (r.map fun p ↦ (f p.1, p.2)) (f a) left := by
  unfold Answers at h ⊢
  split_ifs at h ⊢
  · rw [h]
    rfl
  · obtain ⟨l, rfl⟩ := h
    exact ⟨l, rfl⟩

/-- Reading on from the answer: what lies deepest lies so in one of the two parts. -/
theorem Answers.bind {α β : Type} {levels d e : Nat} {r : Except Stop (α × List Char)} {a : α}
    {b : β} {left left' : List Char} (h : Answers levels d r a left)
    {f : α × List Char → Except Stop (β × List Char)}
    (hf : Answers levels e (f (a, left)) b left') :
    Answers levels (max d e) (r.bind f) b left' := by
  unfold Answers at h hf ⊢
  by_cases hd : d < levels
  · rw [if_pos hd] at h
    rw [h]
    by_cases he : e < levels
    · rw [if_pos he] at hf
      rw [if_pos (Nat.max_lt.2 ⟨hd, he⟩)]
      exact hf
    · rw [if_neg he] at hf
      rw [if_neg fun hmax ↦ he (Nat.max_lt.1 hmax).2]
      exact hf
  · rw [if_neg hd] at h
    rw [if_neg fun hmax ↦ hd (Nat.max_lt.1 hmax).1]
    obtain ⟨l, rfl⟩ := h
    exact ⟨l, rfl⟩

/-- Working on what was read and on what follows it works on the answer. -/
theorem Answers.bind_ok {α β : Type} {levels d : Nat} {r : Except Stop (α × List Char)} {a : α}
    {b : β} {left left' : List Char} (h : Answers levels d r a left)
    {f : α × List Char → Except Stop (β × List Char)} (hf : f (a, left) = .ok (b, left')) :
    Answers levels d (r.bind f) b left' := by
  unfold Answers at h ⊢
  split_ifs at h ⊢
  · rw [h]
    exact hf
  · obtain ⟨l, rfl⟩ := h
    exact ⟨l, rfl⟩

theorem Answers.succ {α : Type} {levels depth : Nat} {r : Except Stop (α × List Char)} {a : α}
    {left : List Char} (h : Answers levels depth r a left) :
    Answers (levels + 1) (depth + 1) r a left := by
  simpa only [Answers, Nat.add_lt_add_iff_right] using h

/-- A reader of values reads this text to its end, up to its levels. -/
def ValueIsRead (d : Nat) (s : List Char) (t : Tree) : Prop :=
  ∀ levels rest, EndsNumber rest → Answers levels d (outcome (readValue levels (s ++ rest))) t rest

/-- A reader of elements reads this text to the bracket that closes it. -/
def ElementsAreRead (d : Nat) (s : List Char) (ts : List Tree) : Prop :=
  ∀ levels rest,
    Answers levels d (outcome (readElements (readValue levels) (s ++ ']' :: rest))) ts rest

/-- A reader of members reads this text to the brace that closes it. -/
def MembersAreRead (d : Nat) (s : List Char) (ms : List (String × Tree)) : Prop :=
  ∀ levels rest,
    Answers levels d (outcome (readMembers (readValue levels) (s ++ '}' :: rest))) ms rest

/-- A text is read once it is for at least one level. -/
theorem valueIsRead_of_succ {d : Nat} {s : List Char} {t : Tree}
    (h : ∀ levels rest, EndsNumber rest →
      Answers (levels + 1) d (outcome (readValue (levels + 1) (s ++ rest))) t rest) :
    ValueIsRead d s t := by
  intro levels rest hrest
  cases levels with
  | zero => exact answers_zero
  | succ levels => exact h levels rest hrest

theorem NumberText.isRead {s : List Char} {x : Double} (h : NumberText s x) :
    ValueIsRead 0 s (.number x) := by
  refine valueIsRead_of_succ fun levels rest hrest ↦ ?_
  have hread := readNumber?_append h hrest
  obtain ⟨c, s', rfl, hc⟩ := h.head
  have hbrace : c ≠ '{' := by rintro rfl; exact absurd hc (by decide)
  have hbracket : c ≠ '[' := by rintro rfl; exact absurd hc (by decide)
  have hquote : c ≠ '"' := by rintro rfl; exact absurd hc (by decide)
  rw [List.cons_append] at hread ⊢
  rw [outcome_readValue_cons, if_neg hbrace, if_neg hbracket, if_neg hquote, if_pos hc, hread]
  exact answers_ok

theorem StringText.isRead {k text : List Char} (h : StringText k text) :
    ValueIsRead 0 ('"' :: (k ++ ['"'])) (.string (String.ofList text)) := by
  refine valueIsRead_of_succ fun levels rest _ ↦ ?_
  rw [List.cons_append, outcome_readValue_cons, if_neg (by decide), if_neg (by decide), if_pos rfl,
    List.append_assoc, List.singleton_append, readString_append h]
  exact answers_ok

/-- What is between brackets and begins with an element is read as elements. -/
theorem outcome_readArray_of_ne (item : (s : List Char) → Reading Tree s) {s : List Char}
    (h : ∀ r, skipSpace s ≠ ']' :: r) :
    outcome (readArray item s) =
      (outcome (readElements item s)).map fun p ↦ (.array p.1, p.2) := by
  rw [outcome_readArray]
  split
  · exact absurd ‹_› (h _)
  · rfl

/-- What is between braces and begins with a member is read as members. -/
theorem outcome_readObject_of_ne (item : (s : List Char) → Reading Tree s) {s : List Char}
    (h : ∀ r, skipSpace s ≠ '}' :: r) :
    outcome (readObject item s) =
      (outcome (readMembers item s)).map fun p ↦ (.map p.1, p.2) := by
  rw [outcome_readObject]
  split
  · exact absurd ‹_› (h _)
  · rfl

theorem valueIsRead_emptyArray {w : List Char} (hw : IsBlank w) :
    ValueIsRead 0 ('[' :: (w ++ [']'])) (.node .array []) := by
  refine valueIsRead_of_succ fun levels rest _ ↦ ?_
  rw [List.cons_append, outcome_readValue_cons, if_neg (by decide), if_pos rfl, List.append_assoc,
    List.singleton_append, outcome_readArray, skipSpace_append_cons hw (c := ']') rfl]
  exact answers_ok

theorem valueIsRead_emptyObject {w : List Char} (hw : IsBlank w) :
    ValueIsRead 0 ('{' :: (w ++ ['}'])) (.node .map []) := by
  refine valueIsRead_of_succ fun levels rest _ ↦ ?_
  rw [List.cons_append, outcome_readValue_cons, if_pos rfl, List.append_assoc,
    List.singleton_append, outcome_readObject, skipSpace_append_cons hw (c := '}') rfl]
  exact answers_ok

theorem ElementsText.skipSpace_ne {d : Nat} {s : List Char} {ts : List Tree}
    (h : ElementsText d s ts) (rest r : List Char) : skipSpace (s ++ rest) ≠ ']' :: r := by
  cases h with
  | last hw₁ h hw₂ =>
    rw [List.append_assoc, List.append_assoc, skipSpace_append_value hw₁ h]
    obtain ⟨c, s', rfl, -, hc, -⟩ := h.head
    exact fun heq ↦ hc (List.cons.inj heq).1
  | cons hw₁ h hw₂ hr =>
    rw [List.append_assoc, List.append_assoc, skipSpace_append_value hw₁ h]
    obtain ⟨c, s', rfl, -, hc, -⟩ := h.head
    exact fun heq ↦ hc (List.cons.inj heq).1

theorem ElementsText.isRead_of_areRead {d : Nat} {s : List Char} {ts : List Tree}
    (h : ElementsText d s ts) (hread : ElementsAreRead d s ts) :
    ValueIsRead (d + 1) ('[' :: (s ++ [']'])) (Tree.array ts) := by
  refine valueIsRead_of_succ fun levels rest _ ↦ ?_
  rw [List.cons_append, outcome_readValue_cons, if_neg (by decide), if_pos rfl, List.append_assoc,
    List.singleton_append, outcome_readArray_of_ne _ (h.skipSpace_ne _)]
  exact ((hread levels rest).map Tree.array).succ

theorem MembersText.skipSpace_eq {d : Nat} {s : List Char} {ms : List (String × Tree)}
    (h : MembersText d s ms) (rest : List Char) : ∃ r, skipSpace (s ++ rest) = '"' :: r := by
  cases h with
  | last hw₁ =>
    rw [List.append_assoc, List.cons_append]
    exact ⟨_, skipSpace_append_cons hw₁ rfl _⟩
  | cons hw₁ =>
    rw [List.append_assoc, List.cons_append]
    exact ⟨_, skipSpace_append_cons hw₁ rfl _⟩

theorem MembersText.isRead_of_areRead {d : Nat} {s : List Char} {ms kept : List (String × Tree)}
    (h : MembersText d s ms) (hread : MembersAreRead d s ms) (hkept : LastWins ms kept) :
    ValueIsRead (d + 1) ('{' :: (s ++ ['}'])) (.node .map kept) := by
  refine valueIsRead_of_succ fun levels rest _ ↦ ?_
  have hquote (r : List Char) : skipSpace (s ++ '}' :: rest) ≠ '}' :: r := by
    obtain ⟨r', hr'⟩ := h.skipSpace_eq ('}' :: rest)
    rw [hr']
    exact fun heq ↦ absurd (List.cons.inj heq).1 (by decide)
  rw [List.cons_append, outcome_readValue_cons, if_pos rfl, List.append_assoc,
    List.singleton_append, outcome_readObject_of_ne _ hquote, ← lastWins_iff.1 hkept]
  exact ((hread levels rest).map Tree.map).succ

/-! ### Elements and members -/

theorem ValueText.areRead_last {d : Nat} {w₁ s w₂ : List Char} {t : Tree} (h : ValueText d s t)
    (hread : ValueIsRead d s t) (hw₁ : IsBlank w₁) (hw₂ : IsBlank w₂) :
    ElementsAreRead d (w₁ ++ (s ++ w₂)) [t] := by
  intro levels rest
  rw [outcome_readElements, List.append_assoc, List.append_assoc, skipSpace_append_value hw₁ h]
  refine (hread levels _ (endsNumber_append hw₂ (by decide))).bind_ok ?_
  simp only [skipSpace_append_cons hw₂ (c := ']') rfl]

theorem ValueText.areRead_cons {d e : Nat} {w₁ s w₂ r : List Char} {t : Tree} {ts : List Tree}
    (h : ValueText d s t) (hread : ValueIsRead d s t) (hw₁ : IsBlank w₁) (hw₂ : IsBlank w₂)
    (hr : ElementsAreRead e r ts) :
    ElementsAreRead (max d e) (w₁ ++ (s ++ (w₂ ++ ',' :: r))) (t :: ts) := by
  intro levels rest
  rw [outcome_readElements, List.append_assoc, List.append_assoc, skipSpace_append_value hw₁ h,
    List.append_assoc, List.cons_append]
  refine (hread levels _ (endsNumber_append hw₂ (by decide))).bind ?_
  simp only [skipSpace_append_cons hw₂ (c := ',') rfl]
  exact (hr levels rest).map (t :: ·)

/-- A member is read up to its value. -/
theorem outcome_readMembers_append {levels : Nat} {w₁ k name w₂ w₃ s : List Char} {d : Nat}
    {t : Tree} (hw₁ : IsBlank w₁) (hname : StringText k name) (hw₂ : IsBlank w₂) (hw₃ : IsBlank w₃)
    (h : ValueText d s t) (r : List Char) :
    outcome (readMembers (readValue levels)
        (w₁ ++ '"' :: (k ++ '"' :: (w₂ ++ ':' :: (w₃ ++ (s ++ r)))))) =
      (outcome (readValue levels (s ++ r))).bind fun (t, left) ↦
        match skipSpace left with
        | ',' :: s' =>
          (outcome (readMembers (readValue levels) s')).map fun p ↦
            ((String.ofList name, t) :: p.1, p.2)
        | '}' :: s' => .ok ([(String.ofList name, t)], s')
        | s' => .error ⟨.expectedObjectSeparator, s'⟩ := by
  have hvalue := congrArg (fun s ↦ outcome (readValue levels s)) (skipSpace_append_value hw₃ h r)
  rw [outcome_readMembers, skipSpace_append_cons hw₁ (c := '"') rfl,
    outcome_readName_append hname hw₂]
  exact congrFun (congrArg Except.bind hvalue) _

theorem ValueText.membersAreRead_last {d : Nat} {w₁ k name w₂ w₃ s w₄ : List Char} {t : Tree}
    (h : ValueText d s t) (hread : ValueIsRead d s t) (hw₁ : IsBlank w₁)
    (hname : StringText k name) (hw₂ : IsBlank w₂) (hw₃ : IsBlank w₃) (hw₄ : IsBlank w₄) :
    MembersAreRead d (w₁ ++ '"' :: (k ++ '"' :: (w₂ ++ ':' :: (w₃ ++ (s ++ w₄)))))
      [(String.ofList name, t)] := by
  intro levels rest
  have hassoc : w₁ ++ '"' :: (k ++ '"' :: (w₂ ++ ':' :: (w₃ ++ (s ++ w₄)))) ++ '}' :: rest =
      w₁ ++ '"' :: (k ++ '"' :: (w₂ ++ ':' :: (w₃ ++ (s ++ (w₄ ++ '}' :: rest))))) := by
    simp
  rw [hassoc, outcome_readMembers_append hw₁ hname hw₂ hw₃ h]
  refine (hread levels _ (endsNumber_append hw₄ (by decide))).bind_ok ?_
  simp only [skipSpace_append_cons hw₄ (c := '}') rfl]

theorem ValueText.membersAreRead_cons {d e : Nat} {w₁ k name w₂ w₃ s w₄ r : List Char} {t : Tree}
    {ms : List (String × Tree)} (h : ValueText d s t) (hread : ValueIsRead d s t)
    (hw₁ : IsBlank w₁) (hname : StringText k name) (hw₂ : IsBlank w₂) (hw₃ : IsBlank w₃)
    (hw₄ : IsBlank w₄) (hr : MembersAreRead e r ms) :
    MembersAreRead (max d e)
      (w₁ ++ '"' :: (k ++ '"' :: (w₂ ++ ':' :: (w₃ ++ (s ++ (w₄ ++ ',' :: r))))))
      ((String.ofList name, t) :: ms) := by
  intro levels rest
  have hassoc :
      w₁ ++ '"' :: (k ++ '"' :: (w₂ ++ ':' :: (w₃ ++ (s ++ (w₄ ++ ',' :: r))))) ++ '}' :: rest =
        w₁ ++ '"' ::
          (k ++ '"' :: (w₂ ++ ':' :: (w₃ ++ (s ++ (w₄ ++ ',' :: (r ++ '}' :: rest)))))) := by
    simp
  rw [hassoc, outcome_readMembers_append hw₁ hname hw₂ hw₃ h]
  refine (hread levels _ (endsNumber_append hw₄ (by decide))).bind ?_
  simp only [skipSpace_append_cons hw₄ (c := ',') rfl]
  exact (hr levels rest).map ((String.ofList name, t) :: ·)

/-! ### All of the grammar -/

mutual

/-- What the grammar has as a value is read. -/
theorem ValueText.isRead {d : Nat} {s : List Char} {t : Tree} :
    ValueText d s t → ValueIsRead d s t
  | .nullWord => valueIsRead_of_succ fun _ _ _ ↦ answers_ok
  | .trueWord => valueIsRead_of_succ fun _ _ _ ↦ answers_ok
  | .falseWord => valueIsRead_of_succ fun _ _ _ ↦ answers_ok
  | .number h => h.isRead
  | .string h => h.isRead
  | .emptyArray hw => valueIsRead_emptyArray hw
  | .array h => h.isRead_of_areRead h.areRead
  | .emptyObject hw => valueIsRead_emptyObject hw
  | .object h hkept => h.isRead_of_areRead h.areRead hkept

/-- What the grammar has as elements is read. -/
theorem ElementsText.areRead {d : Nat} {s : List Char} {ts : List Tree} :
    ElementsText d s ts → ElementsAreRead d s ts
  | .last hw₁ h hw₂ => h.areRead_last h.isRead hw₁ hw₂
  | .cons hw₁ h hw₂ hr => h.areRead_cons h.isRead hw₁ hw₂ hr.areRead

/-- What the grammar has as members is read. -/
theorem MembersText.areRead {d : Nat} {s : List Char} {ms : List (String × Tree)} :
    MembersText d s ms → MembersAreRead d s ms
  | .last hw₁ hname hw₂ hw₃ h hw₄ => h.membersAreRead_last h.isRead hw₁ hname hw₂ hw₃ hw₄
  | .cons hw₁ hname hw₂ hw₃ h hw₄ hr =>
    h.membersAreRead_cons h.isRead hw₁ hname hw₂ hw₃ hw₄ hr.areRead

end

end ScriptHost.Json
