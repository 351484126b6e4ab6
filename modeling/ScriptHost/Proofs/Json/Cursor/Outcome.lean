import Mathlib.Tactic.Common
import ScriptHost.Json.Cursor

/-!
# What the readers by offsets give

The readers of `ScriptHost.Json.Cursor` carry the proof that they go forward in their types.  Here
each of them is described by an equation without that proof.

## Main definitions

* `Json.Cursor.outcome` : what a reading gives, with the index after it as a plain number.
-/

namespace ScriptHost.Json.Cursor

/-- What a reading gives, without the proof that it went forward. -/
def outcome {α : Type} {i : Nat} : Reading α i → Except Halt (α × Nat)
  | .error halt => .error halt
  | .ok (a, j) => .ok (a, j.1)

section

variable {α : Type} {i : Nat}

@[simp]
theorem outcome_error (halt : Halt) : outcome (.error halt : Reading α i) = .error halt := rfl

@[simp]
theorem outcome_ok (a : α) (j : { j : Nat // i < j }) :
    outcome (.ok (a, j) : Reading α i) = .ok (a, j.1) := rfl

end

section

variable (bytes : List UInt8)

theorem outcome_readString (opened i : Nat) :
    outcome (readString bytes opened i) =
      match slice? bytes i (skipWhile bytes isPlain i) with
      | none => .error .panicked
      | some run =>
        match peek bytes (skipWhile bytes isPlain i) with
        | none => .error (.fault .unterminatedString opened)
        | some '"' => .ok (run, skipWhile bytes isPlain i + 1)
        | some _ =>
          (outcome (readEscape bytes (skipWhile bytes isPlain i + 1))).bind fun (c, k) ↦
            (outcome (readString bytes opened k)).map fun p ↦ (run ++ c :: p.1, p.2) := by
  rw [readString]
  cases slice? bytes i (skipWhile bytes isPlain i) with
  | none => rfl
  | some run =>
    dsimp only
    split
    · rename_i h
      simp only [h]
      rfl
    · rename_i h
      simp only [h]
      rfl
    · rename_i c hc h
      simp only [h]
      rcases readEscape bytes (skipWhile bytes isPlain i + 1) with halt | ⟨c, k, hk⟩
      · rfl
      · dsimp only [outcome, Except.bind]
        cases readString bytes opened k <;> rfl

theorem outcome_readLiteral (i : Nat) :
    outcome (readLiteral bytes i) =
      (outcome (readString bytes i (i + 1))).map fun p ↦ (String.ofList p.1, p.2) := by
  unfold readLiteral
  rcases readString bytes i (i + 1) with halt | ⟨text, j, hj⟩ <;> rfl

theorem outcome_readNumber (i : Nat) :
    outcome (readNumber bytes i) =
      match skipNumber? bytes i with
      | none => .error (.fault .invalidNumber i)
      | some j =>
        match slice? bytes i j with
        | none => .error .panicked
        | some text =>
          match Decimal.readDouble text with
          | none => .error (.fault .invalidNumber i)
          | some x => .ok (x, j) := by
  unfold readNumber
  split
  · rename_i h
    simp only [h]
    rfl
  · rename_i j h
    simp only [h]
    rcases slice? bytes i j with - | text
    · rfl
    · dsimp only
      cases Decimal.readDouble text <;> rfl

theorem outcome_readElements (item : (i : Nat) → Reading Tree i) (i : Nat) :
    outcome (readElements bytes item i) =
      (outcome (item (skipSpace bytes i))).bind fun (t, j) ↦
        if peek bytes (skipSpace bytes j) = some ',' then
          (outcome (readElements bytes item (skipSpace bytes j + 1))).map fun p ↦ (t :: p.1, p.2)
        else if peek bytes (skipSpace bytes j) = some ']' then .ok ([t], skipSpace bytes j + 1)
        else .error (.fault .expectedArraySeparator (skipSpace bytes j)) := by
  rw [readElements]
  rcases item (skipSpace bytes i) with halt | ⟨t, j, hj⟩
  · rfl
  · simp only [outcome_ok, Except.bind]
    split_ifs
    · cases readElements bytes item (skipSpace bytes j + 1) <;> rfl
    · rfl
    · rfl

theorem outcome_readName (i : Nat) :
    outcome (readName bytes i) =
      if peek bytes i = some '"' then
        (outcome (readLiteral bytes i)).bind fun (name, j) ↦
          if peek bytes (skipSpace bytes j) = some ':' then .ok (name, skipSpace bytes j + 1)
          else .error (.fault .expectedColon (skipSpace bytes j))
      else if peek bytes i = none then .error (.fault .unexpectedEnd i)
      else .error (.fault .expectedKey i) := by
  unfold readName
  split_ifs
  · rcases readLiteral bytes i with halt | ⟨name, j, hj⟩
    · rfl
    · simp only [outcome_ok, Except.bind]
      split_ifs <;> rfl
  · rfl
  · rfl

theorem outcome_readMembers (item : (i : Nat) → Reading Tree i) (i : Nat) :
    outcome (readMembers bytes item i) =
      (outcome (readName bytes (skipSpace bytes i))).bind fun (name, afterName) ↦
        (outcome (item (skipSpace bytes afterName))).bind fun (t, j) ↦
          if peek bytes (skipSpace bytes j) = some ',' then
            (outcome (readMembers bytes item (skipSpace bytes j + 1))).map fun p ↦
              ((name, t) :: p.1, p.2)
          else if peek bytes (skipSpace bytes j) = some '}' then
            .ok ([(name, t)], skipSpace bytes j + 1)
          else .error (.fault .expectedObjectSeparator (skipSpace bytes j)) := by
  rw [readMembers]
  rcases readName bytes (skipSpace bytes i) with halt | ⟨name, afterName, hname⟩
  · rfl
  simp only [outcome_ok, Except.bind]
  rcases item (skipSpace bytes afterName) with halt | ⟨t, j, hj⟩
  · rfl
  · simp only [outcome_ok]
    split_ifs
    · cases readMembers bytes item (skipSpace bytes j + 1) <;> rfl
    · rfl
    · rfl

theorem outcome_readArray (item : (i : Nat) → Reading Tree i) (i : Nat) :
    outcome (readArray bytes item i) =
      if peek bytes (skipSpace bytes (i + 1)) = some ']' then
        .ok (.array [], skipSpace bytes (i + 1) + 1)
      else
        (outcome (readElements bytes item (skipSpace bytes (i + 1)))).map fun p ↦
          (.array p.1, p.2) := by
  unfold readArray
  dsimp only
  split_ifs
  · rfl
  · cases readElements bytes item (skipSpace bytes (i + 1)) <;> rfl

theorem outcome_readObject (item : (i : Nat) → Reading Tree i) (i : Nat) :
    outcome (readObject bytes item i) =
      if peek bytes (skipSpace bytes (i + 1)) = some '}' then
        .ok (.map [], skipSpace bytes (i + 1) + 1)
      else
        (outcome (readMembers bytes item (skipSpace bytes (i + 1)))).map fun p ↦
          (.map p.1, p.2) := by
  unfold readObject
  dsimp only
  split_ifs
  · rfl
  · cases readMembers bytes item (skipSpace bytes (i + 1)) <;> rfl

theorem outcome_readValue_of_peek {i : Nat} {c : Char} (h : peek bytes i = some c)
    (levels : Nat) :
    outcome (readValue bytes (levels + 1) i) =
      if c = '{' then outcome (readObject bytes (readValue bytes levels) i)
      else if c = '[' then outcome (readArray bytes (readValue bytes levels) i)
      else if c = '"' then (outcome (readLiteral bytes i)).map fun p ↦ (.string p.1, p.2)
      else if c = '-' ∨ c.isDigit then
        (outcome (readNumber bytes i)).map fun p ↦ (.number p.1, p.2)
      else if c = 't' then outcome (readWord bytes ['r', 'u', 'e'] (.boolean true) c i)
      else if c = 'f' then outcome (readWord bytes ['a', 'l', 's', 'e'] (.boolean false) c i)
      else if c = 'n' then outcome (readWord bytes ['u', 'l', 'l'] .nil c i)
      else .error (unexpected bytes i) := by
  rw [readValue, h]
  dsimp only
  split_ifs
  · rfl
  · rfl
  · rcases readLiteral bytes i with halt | ⟨text, j⟩ <;> rfl
  · rcases readNumber bytes i with halt | ⟨x, j⟩ <;> rfl
  · rfl
  · rfl
  · rfl
  · rfl

end

theorem readDocument_eq (bytes : List UInt8) :
    readDocument bytes =
      (outcome (readValue bytes (maxNesting + 1) (skipSpace bytes 0))).bind fun (t, i) ↦
        if bytes.length ≤ skipSpace bytes i then .ok t
        else .error (.fault .trailingCharacters (skipSpace bytes i)) := by
  unfold readDocument
  rcases readValue bytes (maxNesting + 1) (skipSpace bytes 0) with halt | ⟨t, i, hi⟩ <;> rfl

end ScriptHost.Json.Cursor
