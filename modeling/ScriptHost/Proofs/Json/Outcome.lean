import ScriptHost.Json.Parser

/-!
# What the readers give

The readers of `ScriptHost.Json.Parser` carry the proof that they go forward in their types.  Here
each of them is described by an equation without that proof, which the statements about texts are
then derived from.

## Main definitions

* `Json.outcome` : what a reading gives, with the text left as a plain list.
* `Json.TooDeep` : a reading that stopped at a value under too many containers.
-/

namespace ScriptHost.Json

/-- What a reading gives, without the proof that it went forward. -/
def outcome {α : Type} {s : List Char} : Reading α s → Except Stop (α × List Char)
  | .error stop => .error stop
  | .ok (a, left) => .ok (a, left.1)

/-- The reading stopped at a value under too many containers. -/
def TooDeep {α : Type} (r : Except Stop α) : Prop := ∃ left, r = .error ⟨.nestingTooDeep, left⟩

variable {α : Type} {s : List Char}

@[simp]
theorem outcome_error (stop : Stop) : outcome (.error stop : Reading α s) = .error stop := rfl

@[simp]
theorem outcome_ok (a : α) (left : { r : List Char // r.length < s.length }) :
    outcome (.ok (a, left) : Reading α s) = .ok (a, left.1) := rfl

theorem outcome_afterFirst {c : Char} (r : Reading α s) :
    outcome (afterFirst (c := c) r) = outcome r := by
  rcases r with stop | ⟨a, left, h⟩
  · rfl
  · rfl

section

variable {β : Type}

theorem map_eq_ok_iff {r : Except Stop α} {f : α → β} {b : β} :
    r.map f = .ok b ↔ ∃ a, r = .ok a ∧ f a = b := by
  cases r with
  | error stop => simp [Except.map]
  | ok a => simp [Except.map]

theorem map_eq_error_iff {r : Except Stop α} {f : α → β} {stop : Stop} :
    r.map f = .error stop ↔ r = .error stop := by
  cases r with
  | error stop => simp [Except.map]
  | ok a => simp [Except.map]

theorem bind_eq_ok_iff {r : Except Stop α} {f : α → Except Stop β} {b : β} :
    r.bind f = .ok b ↔ ∃ a, r = .ok a ∧ f a = .ok b := by
  cases r with
  | error stop => simp [Except.bind]
  | ok a => simp [Except.bind]

theorem bind_eq_error_iff {r : Except Stop α} {f : α → Except Stop β} {stop : Stop} :
    r.bind f = .error stop ↔ r = .error stop ∨ ∃ a, r = .ok a ∧ f a = .error stop := by
  cases r with
  | error stop => simp [Except.bind]
  | ok a => simp [Except.bind]

end

/-! ### Tokens -/

theorem outcome_readLiteral (s : List Char) :
    outcome (readLiteral s) =
      (readString s s.tail).map fun p ↦ (String.ofList p.1, p.2) := by
  unfold readLiteral
  split
  · rename_i h
    simp only [h, outcome_error, Except.map]
  · rename_i h
    simp only [h, outcome_ok, Except.map]

theorem outcome_readNumber (s : List Char) :
    outcome (readNumber s) =
      match readNumber? s with
      | some p => .ok p
      | none => .error ⟨.invalidNumber, s⟩ := by
  unfold readNumber
  split
  · rename_i h
    simp only [h, outcome_ok]
  · rename_i h
    simp only [h, outcome_error]

theorem outcome_readWord (word : List Char) (t : Tree) (c : Char) (s : List Char) :
    outcome (readWord word t c s) =
      if word.isPrefixOf s then .ok (t, s.drop word.length)
      else .error ⟨.unexpectedCharacter c, c :: s⟩ := by
  unfold readWord
  split
  · rfl
  · rfl

/-! ### Containers -/

theorem outcome_readElements (item : (s : List Char) → Reading Tree s) (s : List Char) :
    outcome (readElements item s) =
      (outcome (item (skipSpace s))).bind fun (t, left) ↦
        match skipSpace left with
        | ',' :: s' => (outcome (readElements item s')).map fun p ↦ (t :: p.1, p.2)
        | ']' :: s' => .ok ([t], s')
        | s' => .error ⟨.expectedArraySeparator, s'⟩ := by
  rw [readElements]
  rcases item (skipSpace s) with stop | ⟨t, left, hleft⟩
  · rfl
  · simp only [outcome_ok, Except.bind]
    split
    · rename_i h
      simp only [h]
      cases readElements item _ <;> rfl
    · rename_i h
      simp only [h, outcome_ok]
    · rename_i hcomma hclose
      split
      · exact (hcomma _ ‹_›).elim
      · exact (hclose _ ‹_›).elim
      · rfl

theorem outcome_readName_quote (s : List Char) :
    outcome (readName ('"' :: s)) =
      (outcome (readLiteral ('"' :: s))).bind fun (name, left) ↦
        match skipSpace left with
        | ':' :: r => .ok (name, r)
        | r => .error ⟨.expectedColon, r⟩ := by
  rw [readName]
  generalize readLiteral ('"' :: s) = r
  rcases r with stop | ⟨name, left, hleft⟩
  · rfl
  · simp only [outcome_ok, Except.bind]
    split
    · rename_i h
      simp only [h, outcome_ok]
    · rename_i hcolon
      split
      · exact (hcolon _ ‹_›).elim
      · rfl

/-- A name begins with a quote. -/
theorem exists_quote_of_readName {s rest : List Char} {name : String}
    (h : outcome (readName s) = .ok (name, rest)) : ∃ s', s = '"' :: s' := by
  unfold readName at h
  split at h
  · cases h
  · exact ⟨_, rfl⟩
  · cases h

theorem outcome_readMembers (item : (s : List Char) → Reading Tree s) (s : List Char) :
    outcome (readMembers item s) =
      (outcome (readName (skipSpace s))).bind fun (name, afterName) ↦
        (outcome (item (skipSpace afterName))).bind fun (t, left) ↦
          match skipSpace left with
          | ',' :: s' => (outcome (readMembers item s')).map fun p ↦ ((name, t) :: p.1, p.2)
          | '}' :: s' => .ok ([(name, t)], s')
          | s' => .error ⟨.expectedObjectSeparator, s'⟩ := by
  rw [readMembers]
  rcases readName (skipSpace s) with stop | ⟨name, afterName, hname⟩
  · rfl
  · simp only [outcome_ok, Except.bind]
    rcases item (skipSpace afterName) with stop | ⟨t, left, hleft⟩
    · rfl
    · simp only [outcome_ok]
      split
      · rename_i h
        simp only [h]
        cases readMembers item _ <;> rfl
      · rename_i h
        simp only [h, outcome_ok]
      · rename_i hcomma hclose
        split
        · exact (hcomma _ ‹_›).elim
        · exact (hclose _ ‹_›).elim
        · rfl

theorem outcome_readArray (item : (s : List Char) → Reading Tree s) (s : List Char) :
    outcome (readArray item s) =
      match skipSpace s with
      | ']' :: left => .ok (.array [], left)
      | _ => (outcome (readElements item s)).map fun p ↦ (.array p.1, p.2) := by
  unfold readArray
  split
  · rename_i h
    simp only [h, outcome_ok]
  · rename_i hclose
    rcases readElements item s with stop | ⟨parts, left⟩
    · dsimp only
      split
      · exact (hclose _ ‹_›).elim
      · rfl
    · dsimp only
      split
      · exact (hclose _ ‹_›).elim
      · rfl

theorem outcome_readObject (item : (s : List Char) → Reading Tree s) (s : List Char) :
    outcome (readObject item s) =
      match skipSpace s with
      | '}' :: left => .ok (.map [], left)
      | _ => (outcome (readMembers item s)).map fun p ↦ (.map p.1, p.2) := by
  unfold readObject
  split
  · rename_i h
    simp only [h, outcome_ok]
  · rename_i hclose
    rcases readMembers item s with stop | ⟨parts, left⟩
    · dsimp only
      split
      · exact (hclose _ ‹_›).elim
      · rfl
    · dsimp only
      split
      · exact (hclose _ ‹_›).elim
      · rfl

/-! ### Values and documents -/

theorem outcome_readValue_cons (levels : Nat) (c : Char) (s : List Char) :
    outcome (readValue (levels + 1) (c :: s)) =
      if c = '{' then outcome (readObject (readValue levels) s)
      else if c = '[' then outcome (readArray (readValue levels) s)
      else if c = '"' then
        (readString (c :: s) s).map fun p ↦ (.string (String.ofList p.1), p.2)
      else if c = '-' ∨ c.isDigit then
        match readNumber? (c :: s) with
        | some p => .ok (.number p.1, p.2)
        | none => .error ⟨.invalidNumber, c :: s⟩
      else if c = 't' then outcome (readWord ['r', 'u', 'e'] (.boolean true) c s)
      else if c = 'f' then outcome (readWord ['a', 'l', 's', 'e'] (.boolean false) c s)
      else if c = 'n' then outcome (readWord ['u', 'l', 'l'] .nil c s)
      else .error ⟨.unexpectedCharacter c, c :: s⟩ := by
  rw [readValue]
  split
  · rw [outcome_afterFirst]
  split
  · rw [outcome_afterFirst]
  split
  · have hliteral := outcome_readLiteral (c :: s)
    generalize readLiteral (c :: s) = r at hliteral ⊢
    rcases r with stop | ⟨text, left⟩
    · cases hs : readString (c :: s) s <;> simp_all [Except.map]
    · cases hs : readString (c :: s) s <;> simp_all [Except.map]
  split
  · have hnumber := outcome_readNumber (c :: s)
    generalize readNumber (c :: s) = r at hnumber ⊢
    rcases r with stop | ⟨x, left⟩
    · cases hx : readNumber? (c :: s) <;> simp_all
    · rcases hx : readNumber? (c :: s) with _ | ⟨y, l⟩ <;> simp_all
  split
  · rfl
  split
  · rfl
  split
  · rfl
  · rfl

theorem readDocument_eq (s : List Char) :
    readDocument s =
      (outcome (readValue (maxNesting + 1) (skipSpace s))).bind fun (t, left) ↦
        match skipSpace left with
        | [] => .ok t
        | r => .error ⟨.trailingCharacters, r⟩ := by
  unfold readDocument
  rcases readValue (maxNesting + 1) (skipSpace s) with stop | ⟨t, left, hleft⟩
  · rfl
  · rfl

end ScriptHost.Json
