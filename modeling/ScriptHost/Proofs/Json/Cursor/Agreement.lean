import ScriptHost.Proofs.Json.Cursor.Tokens
import ScriptHost.Proofs.Json.Recognition

/-!
# The two readers agree

The reader by byte offsets and the reader by what is left of the text give the same: the same values
at the same places, and the same faults.  In particular the reader by offsets never panics: it takes
its pieces of the text between places, and looks at no byte that is not there.

## Main results

* `Json.Cursor.agrees_readValue` : the readers of values agree.
* `Json.Cursor.parse_eq_mapError` : the readers of documents agree.
-/

namespace ScriptHost.Json.Cursor

open Text.Utf8

variable {text : List Char}

/-! ### Containers -/

theorem skipSpace_skipSpace (s : List Char) :
    Json.skipSpace (Json.skipSpace s) = Json.skipSpace s := by
  obtain ⟨w, hw, hs⟩ := exists_isBlank_append_skipSpace s
  have hskip := skipSpace_append hw (Json.skipSpace s)
  rw [← hs] at hskip
  exact hskip.symm

/-- What a reading leaves is shorter. -/
theorem length_of_outcome {α : Type} {s left : List Char} {r : Json.Reading α s} {a : α}
    (h : Json.outcome r = .ok (a, left)) : left.length < s.length := by
  rcases r with stop | ⟨a', left', hleft⟩
  · cases h
  · cases h
    exact hleft

/-- A reader of values by offsets that agrees with one by what is left. -/
def AgreeOnItems (text : List Char) (item : (i : Nat) → Reading Tree i)
    (item' : (s : List Char) → Json.Reading Tree s) : Prop :=
  ∀ {s : List Char} {i : Nat}, At text i s →
    Agrees text (outcome (item i)) (Json.outcome (item' s))

variable {item : (i : Nat) → Reading Tree i} {item' : (s : List Char) → Json.Reading Tree s}

theorem AgreeOnItems.elements (hitem : AgreeOnItems text item item') :
    ∀ {s : List Char} {i : Nat}, At text i s →
      Agrees text (outcome (readElements (encode text) item i))
        (Json.outcome (Json.readElements item' s)) := by
  intro s
  induction hn : s.length using Nat.strongRecOn generalizing s with
  | _ n ih =>
    intro i h
    subst hn
    rw [outcome_readElements, Json.outcome_readElements]
    refine (hitem h.skipSpace).bind fun t j left hleft hj ↦ ?_
    have hlength := length_of_outcome hleft
    have hspace := length_skipSpace_le s
    have hspace' := length_skipSpace_le left
    have hk := hj.skipSpace
    have hcomma := hk.peek_eq_some_iff (c := ',') (by decide)
    have hclose := hk.peek_eq_some_iff (c := ']') (by decide)
    dsimp only
    generalize Json.skipSpace left = rest at hspace' hk hcomma hclose ⊢
    split_ifs with hc hb
    · obtain ⟨s', rfl⟩ := hcomma.1 hc
      rw [List.length_cons] at hspace'
      exact (ih s'.length (by omega) rfl (hk.next (by decide))).map (t :: ·)
    · obtain ⟨s', rfl⟩ := hclose.1 hb
      exact .ok (hk.next (by decide))
    · split
      · exact absurd (hcomma.2 ⟨_, rfl⟩) hc
      · exact absurd (hclose.2 ⟨_, rfl⟩) hb
      · exact .fault hk

theorem agrees_readName {s : List Char} {i : Nat} (h : At text i s) :
    Agrees text (outcome (readName (encode text) i)) (Json.outcome (Json.readName s)) := by
  have hquote := h.peek_eq_some_iff (c := '"') (by decide)
  rw [outcome_readName]
  split_ifs with hq hnone
  · obtain ⟨s, rfl⟩ := hquote.1 hq
    rw [Json.outcome_readName_quote]
    refine (agrees_readLiteral h).bind fun name j left _ hj ↦ ?_
    have hk := hj.skipSpace
    have hcolon := hk.peek_eq_some_iff (c := ':') (by decide)
    dsimp only
    generalize Json.skipSpace left = rest at hk hcolon ⊢
    split_ifs with hc
    · obtain ⟨s', rfl⟩ := hcolon.1 hc
      exact .ok (hk.next (by decide))
    · split
      · exact absurd (hcolon.2 ⟨_, rfl⟩) hc
      · exact .fault hk
  · rcases s with _ | ⟨c, s⟩
    · exact .fault h
    · obtain ⟨b, hb, -⟩ := h.exists_peek
      rw [hb] at hnone
      cases hnone
  · rcases s with _ | ⟨c, s⟩
    · exact absurd h.peek_nil hnone
    · rw [Json.readName]
      · exact .fault h
      · simp
      · exact fun s' hs' ↦ hq (hquote.2 ⟨s', hs'⟩)

theorem AgreeOnItems.members (hitem : AgreeOnItems text item item') :
    ∀ {s : List Char} {i : Nat}, At text i s →
      Agrees text (outcome (readMembers (encode text) item i))
        (Json.outcome (Json.readMembers item' s)) := by
  intro s
  induction hn : s.length using Nat.strongRecOn generalizing s with
  | _ n ih =>
    intro i h
    subst hn
    rw [outcome_readMembers, Json.outcome_readMembers]
    refine (agrees_readName h.skipSpace).bind fun name j afterName hafter hj ↦ ?_
    refine (hitem hj.skipSpace).bind fun t k left hleft hk ↦ ?_
    have hlength := length_of_outcome hafter
    have hlength' := length_of_outcome hleft
    have hspace := length_skipSpace_le s
    have hspace' := length_skipSpace_le afterName
    have hspace'' := length_skipSpace_le left
    have hl := hk.skipSpace
    have hcomma := hl.peek_eq_some_iff (c := ',') (by decide)
    have hclose := hl.peek_eq_some_iff (c := '\x7d') (by decide)
    dsimp only
    generalize Json.skipSpace left = rest at hspace'' hl hcomma hclose ⊢
    split_ifs with hc hb
    · obtain ⟨s', rfl⟩ := hcomma.1 hc
      rw [List.length_cons] at hspace''
      exact (ih s'.length (by omega) rfl (hl.next (by decide))).map ((name, t) :: ·)
    · obtain ⟨s', rfl⟩ := hclose.1 hb
      exact .ok (hl.next (by decide))
    · split
      · exact absurd (hcomma.2 ⟨_, rfl⟩) hc
      · exact absurd (hclose.2 ⟨_, rfl⟩) hb
      · exact .fault hl

theorem AgreeOnItems.array (hitem : AgreeOnItems text item item') {s : List Char} {i : Nat}
    (h : At text i ('[' :: s)) :
    Agrees text (outcome (readArray (encode text) item i))
      (Json.outcome (Json.readArray item' s)) := by
  have hk : At text _ (Json.skipSpace s) := (h.next (by decide)).skipSpace
  have hclose := hk.peek_eq_some_iff (c := ']') (by decide)
  have hread : Json.outcome (Json.readElements item' s) =
      Json.outcome (Json.readElements item' (Json.skipSpace s)) := by
    rw [Json.outcome_readElements, Json.outcome_readElements, skipSpace_skipSpace]
  rw [outcome_readArray, Json.outcome_readArray, hread]
  generalize Json.skipSpace s = rest at hk hclose ⊢
  split_ifs with hb
  · obtain ⟨s', rfl⟩ := hclose.1 hb
    exact .ok (hk.next (by decide))
  · split
    · exact absurd (hclose.2 ⟨_, rfl⟩) hb
    · exact (hitem.elements hk).map Tree.array

theorem AgreeOnItems.object (hitem : AgreeOnItems text item item') {s : List Char} {i : Nat}
    (h : At text i ('{' :: s)) :
    Agrees text (outcome (readObject (encode text) item i))
      (Json.outcome (Json.readObject item' s)) := by
  have hk : At text _ (Json.skipSpace s) := (h.next (by decide)).skipSpace
  have hclose := hk.peek_eq_some_iff (c := '}') (by decide)
  have hread : Json.outcome (Json.readMembers item' s) =
      Json.outcome (Json.readMembers item' (Json.skipSpace s)) := by
    rw [Json.outcome_readMembers, Json.outcome_readMembers, skipSpace_skipSpace]
  rw [outcome_readObject, Json.outcome_readObject, hread]
  generalize Json.skipSpace s = rest at hk hclose ⊢
  split_ifs with hb
  · obtain ⟨s', rfl⟩ := hclose.1 hb
    exact .ok (hk.next (by decide))
  · split
    · exact absurd (hclose.2 ⟨_, rfl⟩) hb
    · exact (hitem.members hk).map Tree.map

/-! ### Values and documents -/

/-- No value begins with a character beyond ASCII. -/
theorem agrees_readValue_of_beyond {b c : Char} {s : List Char} {i : Nat} (h : At text i (c :: s))
    (hb : peek (encode text) i = some b) (hbeyond : 0x80 ≤ b.toNat) (hcbeyond : 0x80 ≤ c.toNat)
    (levels : Nat) :
    Agrees text (outcome (readValue (encode text) (levels + 1) i))
      (Json.outcome (Json.readValue (levels + 1) (c :: s))) := by
  have hnumber {c : Char} (hc : 0x80 ≤ c.toNat) : ¬(c = '-' ∨ c.isDigit = true) := by
    rw [isDigit_of_beyond hc]
    exact not_or.2 ⟨ne_of_beyond hc (by decide), Bool.false_ne_true⟩
  rw [outcome_readValue_of_peek _ hb, if_neg (ne_of_beyond hbeyond (by decide)),
    if_neg (ne_of_beyond hbeyond (by decide)), if_neg (ne_of_beyond hbeyond (by decide)),
    if_neg (hnumber hbeyond), if_neg (ne_of_beyond hbeyond (by decide)),
    if_neg (ne_of_beyond hbeyond (by decide)), if_neg (ne_of_beyond hbeyond (by decide)),
    h.unexpected_eq, Json.outcome_readValue_cons, if_neg (ne_of_beyond hcbeyond (by decide)),
    if_neg (ne_of_beyond hcbeyond (by decide)), if_neg (ne_of_beyond hcbeyond (by decide)),
    if_neg (hnumber hcbeyond), if_neg (ne_of_beyond hcbeyond (by decide)),
    if_neg (ne_of_beyond hcbeyond (by decide)), if_neg (ne_of_beyond hcbeyond (by decide))]
  exact .fault h

/-- One more level: each kind of value is known from its first byte. -/
theorem AgreeOnItems.succ {levels : Nat}
    (hitem : AgreeOnItems text (readValue (encode text) levels) (Json.readValue levels)) :
    AgreeOnItems text (readValue (encode text) (levels + 1)) (Json.readValue (levels + 1)) := by
  rintro (_ | ⟨c, s⟩) i h
  · rw [readValue, h.peek_nil]
    exact .fault h
  obtain ⟨b, hb, rfl | ⟨hbeyond, hcbeyond⟩⟩ := h.exists_peek
  · rw [outcome_readValue_of_peek _ hb, Json.outcome_readValue_cons]
    split_ifs with hbrace hbracket hquote hnumber
    · subst hbrace
      exact hitem.object h
    · subst hbracket
      exact hitem.array h
    · subst hquote
      have hstring : (Json.readString ('"' :: s) s).map
            (fun p ↦ (Tree.string (String.ofList p.1), p.2)) =
          (Json.outcome (Json.readLiteral ('"' :: s))).map fun p ↦ (Tree.string p.1, p.2) := by
        rw [Json.outcome_readLiteral, List.tail_cons]
        cases Json.readString ('"' :: s) s <;> rfl
      rw [hstring]
      exact (agrees_readLiteral h).map Tree.string
    · have hagrees := (agrees_readNumber h).map Tree.number
      rw [Json.outcome_readNumber] at hagrees
      generalize readNumber? (b :: s) = r at hagrees ⊢
      cases r with
      | none => exact hagrees
      | some p => exact hagrees
    · exact agrees_readWord _ _ h
    · exact agrees_readWord _ _ h
    · exact agrees_readWord _ _ h
    · rw [h.unexpected_eq]
      exact .fault h
  · exact agrees_readValue_of_beyond h hb hbeyond hcbeyond levels

/-- The readers of values agree. -/
theorem agrees_readValue (text : List Char) (levels : Nat) :
    AgreeOnItems text (readValue (encode text) levels) (Json.readValue levels) := by
  induction levels with
  | zero => exact fun h ↦ .fault h
  | succ levels ih => exact ih.succ

/-- The end of the text is where nothing is left. -/
theorem At.length_le_iff {left : List Char} {i : Nat} (h : At text i left) :
    (encode text).length ≤ i ↔ left = [] := by
  rw [h.length_eq, ← Text.byteCount_eq_zero_iff]
  omega

/-- The readers of documents agree. -/
theorem readDocument_encode (text : List Char) :
    readDocument (encode text) =
      (Json.readDocument text).mapError fun stop ↦
        .fault stop.fault (Text.byteCount text - Text.byteCount stop.left) := by
  have hagrees := agrees_readValue text (maxNesting + 1) (at_zero text).skipSpace
  rw [Json.readDocument_eq, readDocument_eq]
  generalize Json.outcome (Json.readValue (maxNesting + 1) (Json.skipSpace text)) = r' at hagrees ⊢
  generalize outcome (readValue (encode text) (maxNesting + 1) (skipSpace (encode text) 0)) = r
    at hagrees ⊢
  cases hagrees with
  | @ok t i left h =>
    have hk := h.skipSpace
    simp only [Except.bind]
    split_ifs with hend
    · rw [hk.length_le_iff.1 hend]
      rfl
    · split
      · rename_i hnil
        exact absurd (hk.length_le_iff.2 hnil) hend
      · rw [hk.eq_sub]
        rfl
  | fault h =>
    rw [h.eq_sub]
    rfl

/-- The parser by offsets gives what the parser by what is left gives, and never panics. -/
theorem parse_eq_mapError (text : String) :
    parse text = (Json.parse text).mapError .failed := by
  rw [parse, readDocument_encode, parse_eq]
  cases Json.readDocument text.toList <;> rfl

end ScriptHost.Json.Cursor
