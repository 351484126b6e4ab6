import ScriptHost.Proofs.Json.Cursor.Outcome
import ScriptHost.Proofs.Json.Cursor.Places
import ScriptHost.Proofs.Json.Numbers
import ScriptHost.Proofs.Json.Outcome
import ScriptHost.Proofs.Json.Strings

/-!
# Tokens at an offset

The readers of tokens by byte offsets give what the readers by what is left of the text give.

Where the one goes over a string by runs of plain characters, the other goes over it by characters;
where the one converts the piece of the text that a number takes, the other has its parts.

## Main definitions

* `Json.Cursor.Agrees` : readings that agree.

## Main results

* `Json.Cursor.agrees_readLiteral`, `Json.Cursor.agrees_readNumber`, `Json.Cursor.agrees_readWord` :
  the readers of tokens agree.
-/

namespace ScriptHost.Json.Cursor

open Text.Utf8

/-- Readings that agree: both give a value and stop at one place, or both find the same fault at one
place. -/
inductive Agrees (text : List Char) {α : Type} :
    Except Halt (α × Nat) → Except Stop (α × List Char) → Prop
  | ok {a : α} {i : Nat} {left : List Char} (h : At text i left) :
      Agrees text (.ok (a, i)) (.ok (a, left))
  | fault {f : Fault} {i : Nat} {left : List Char} (h : At text i left) :
      Agrees text (.error (.fault f i)) (.error ⟨f, left⟩)

variable {text : List Char}

theorem Agrees.map {α β : Type} {r : Except Halt (α × Nat)} {r' : Except Stop (α × List Char)}
    (h : Agrees text r r') (f : α → β) :
    Agrees text (r.map fun p ↦ (f p.1, p.2)) (r'.map fun p ↦ (f p.1, p.2)) := by
  cases h with
  | ok h => exact .ok h
  | fault h => exact .fault h

theorem Agrees.bind {α β : Type} {r : Except Halt (α × Nat)} {r' : Except Stop (α × List Char)}
    (h : Agrees text r r') {f : α × Nat → Except Halt (β × Nat)}
    {f' : α × List Char → Except Stop (β × List Char)}
    (hf : ∀ a i left, r' = .ok (a, left) → At text i left →
      Agrees text (f (a, i)) (f' (a, left))) :
    Agrees text (r.bind f) (r'.bind f') := by
  cases h with
  | ok h => exact hf _ _ _ rfl h
  | fault h => exact .fault h

/-! ### Escapes -/

/-- The code point of the four hexadecimal digits at the front of a text. -/
def frontCodePoint? : List Char → Option (Nat × List Char)
  | a :: b :: c :: d :: s => (codePoint? a b c d).map fun n ↦ (n, s)
  | _ => none

theorem frontCodePoint?_eq_some_iff {s left : List Char} {n : Nat} :
    frontCodePoint? s = some (n, left) ↔
      ∃ a b c d, s = a :: b :: c :: d :: left ∧ codePoint? a b c d = some n := by
  unfold frontCodePoint?
  split
  · rename_i a b c d s
    rw [Option.map_eq_some_iff]
    constructor
    · rintro ⟨n', hn, h⟩
      cases h
      exact ⟨a, b, c, d, rfl, hn⟩
    · rintro ⟨a', b', c', d', h, hn⟩
      cases h
      exact ⟨n, hn, rfl⟩
  · rename_i hs
    constructor
    · simp
    · rintro ⟨a, b, c, d, rfl, -⟩
      exact (hs a b c d left rfl).elim

/-- Behind four hexadecimal digits. -/
theorem At.codePointAt?_eq {s left : List Char} {i n : Nat} (h : At text i s)
    (hn : frontCodePoint? s = some (n, left)) :
    codePointAt? (encode text) i = some n ∧ At text (i + 4) left := by
  obtain ⟨a, b, c, d, rfl, hcode⟩ := frontCodePoint?_eq_some_iff.1 hn
  obtain ⟨n₃, n₂, n₁, n₀, h₃, h₂, h₁, h₀, -⟩ := codePoint?_eq_some_iff.1 hcode
  have ha := (h.peek_eq_some_iff h₃.lt).2 ⟨_, rfl⟩
  have h := h.next h₃.lt
  have hb := (h.peek_eq_some_iff h₂.lt).2 ⟨_, rfl⟩
  have h := h.next h₂.lt
  have hc := (h.peek_eq_some_iff h₁.lt).2 ⟨_, rfl⟩
  have h := h.next h₁.lt
  have hd := (h.peek_eq_some_iff h₀.lt).2 ⟨_, rfl⟩
  refine ⟨?_, h.next h₀.lt⟩
  rw [codePointAt?, ha, hb, hc, hd]
  exact hcode

/-- Four hexadecimal digits that are found in the bytes are what follows. -/
theorem At.exists_front {s : List Char} {i n : Nat} (h : At text i s)
    (hn : codePointAt? (encode text) i = some n) : ∃ left, frontCodePoint? s = some (n, left) := by
  simp only [codePointAt?, Option.bind_eq_bind, Option.bind_eq_some_iff] at hn
  obtain ⟨a, ha, b, hb, c, hc, d, hd, hcode⟩ := hn
  obtain ⟨n₃, n₂, n₁, n₀, h₃, h₂, h₁, h₀, -⟩ := codePoint?_eq_some_iff.1 hcode
  obtain ⟨s₁, rfl⟩ := (h.peek_eq_some_iff h₃.lt).1 ha
  have h := h.next h₃.lt
  obtain ⟨s₂, rfl⟩ := (h.peek_eq_some_iff h₂.lt).1 hb
  have h := h.next h₂.lt
  obtain ⟨s₃, rfl⟩ := (h.peek_eq_some_iff h₁.lt).1 hc
  have h := h.next h₁.lt
  obtain ⟨left, rfl⟩ := (h.peek_eq_some_iff h₀.lt).1 hd
  exact ⟨left, frontCodePoint?_eq_some_iff.2 ⟨a, b, c, d, rfl, hcode⟩⟩

/-- The escape at the front of a text, from behind its backslash. -/
def frontEscape : List Char → Except Stop (Char × List Char)
  | [] => .error ⟨.unterminatedString, []⟩
  | e :: s =>
    if e = 'u' then
      match frontCodePoint? s with
      | some (n, left) => .ok (ofCodePoint n, left)
      | none => .error ⟨.invalidEscape, s⟩
    else
      match escape? e with
      | some c => .ok (c, s)
      | none => .error ⟨.invalidEscape, e :: s⟩

theorem length_of_frontEscape {s left : List Char} {c : Char}
    (h : frontEscape s = .ok (c, left)) : left.length < s.length := by
  unfold frontEscape at h
  split at h
  · cases h
  split_ifs at h
  · split at h
    · rename_i n left' hn
      cases h
      obtain ⟨a, b, c, d, rfl, -⟩ := frontCodePoint?_eq_some_iff.1 hn
      simp only [List.length_cons]
      omega
    · cases h
  · split at h
    · cases h
      exact Nat.lt_succ_self _
    · cases h

theorem prepend_eq_map (c : Char) (r : Except Stop (List Char × List Char)) :
    prepend c r = r.map fun p ↦ (c :: p.1, p.2) := by
  cases r <;> rfl

/-- A string literal goes on after an escape. -/
theorem readString_backslash (opened s : List Char) :
    Json.readString opened ('\\' :: s) =
      (frontEscape s).bind fun (c, left) ↦
        (Json.readString opened left).map fun p ↦ (c :: p.1, p.2) := by
  rcases s with _ | ⟨e, s⟩
  · rfl
  rw [frontEscape]
  split_ifs with hu
  · subst hu
    cases hn : frontCodePoint? s with
    | none =>
      unfold frontCodePoint? at hn
      split at hn
      · have hcode := Option.map_eq_none_iff.1 hn
        simp only [Json.readString, hcode, Except.bind]
      · rw [Json.readString]
        · rfl
        · assumption
    | some p =>
      obtain ⟨a, b, c, d, rfl, hcode⟩ := frontCodePoint?_eq_some_iff.1 hn
      simp only [Json.readString, hcode, prepend_eq_map, Except.bind]
  · rw [Json.readString]
    · cases escape? e with
      | none => rfl
      | some c => exact prepend_eq_map c _
    · exact fun _ _ _ _ _ he _ ↦ hu he
    · exact hu

theorem escape?_of_beyond {c : Char} (hc : 0x80 ≤ c.toNat) : escape? c = none := by
  simp [escape?, ne_of_beyond hc]

theorem agrees_readEscape {s : List Char} {i : Nat} (h : At text i s) :
    Agrees text (outcome (readEscape (encode text) i)) (frontEscape s) := by
  rcases s with _ | ⟨e, s⟩
  · rw [readEscape, h.peek_nil]
    exact .fault h
  rw [frontEscape]
  split_ifs with hu
  · subst hu
    have hpeek : peek (encode text) i = some 'u' := (h.peek_eq_some_iff (by decide)).2 ⟨s, rfl⟩
    have hnext : At text (i + 1) s := h.next (by decide)
    rw [readEscape, hpeek]
    dsimp only
    rw [if_pos rfl]
    cases hn : frontCodePoint? s with
    | none =>
      have hnone : codePointAt? (encode text) (i + 1) = none := by
        rw [Option.eq_none_iff_forall_not_mem]
        intro n hcode
        obtain ⟨left, hleft⟩ := hnext.exists_front hcode
        rw [hn] at hleft
        cases hleft
      rw [hnone]
      exact .fault hnext
    | some p =>
      obtain ⟨hcode, hleft⟩ := hnext.codePointAt?_eq hn
      rw [hcode]
      exact .ok hleft
  · obtain ⟨b, hb, rfl | ⟨hbeyond, hebeyond⟩⟩ := h.exists_peek
    · rw [readEscape, hb]
      dsimp only
      rw [if_neg hu]
      cases hc : escape? b with
      | none => exact .fault h
      | some c =>
        refine .ok (h.next (Nat.lt_of_not_le fun hge ↦ ?_))
        rw [escape?_of_beyond hge] at hc
        cases hc
    · rw [readEscape, hb]
      dsimp only
      rw [if_neg (ne_of_beyond hbeyond (by decide)), escape?_of_beyond hbeyond,
        escape?_of_beyond hebeyond]
      exact .fault h

/-! ### Strings -/

/-- A string literal goes on after characters that stand for themselves. -/
theorem readString_plain (opened : List Char) {run : List Char}
    (hrun : ∀ c ∈ run, isPlain c = true) (s : List Char) :
    Json.readString opened (run ++ s) =
      (Json.readString opened s).map fun p ↦ (run ++ p.1, p.2) := by
  induction run with
  | nil => cases h : Json.readString opened s <;> simp [h, Except.map]
  | cons c run ih =>
    have hc : c ≠ '"' ∧ c ≠ '\\' := by
      simpa [isPlain] using hrun c List.mem_cons_self
    have hcons : Json.readString opened (c :: (run ++ s)) =
        prepend c (Json.readString opened (run ++ s)) := by
      rw [Json.readString]
      · exact hc.1
      · exact fun h _ ↦ hc.2 h
      · exact fun _ _ _ _ _ h _ ↦ hc.2 h
      · exact fun _ h _ ↦ hc.2 h
      · exact fun _ _ h _ ↦ hc.2 h
    rw [List.cons_append, hcons, ih fun d hd ↦ hrun d (List.mem_cons_of_mem c hd)]
    cases Json.readString opened s <;> rfl

theorem agrees_readString {opened : List Char} {o : Nat} (hopened : At text o opened) :
    ∀ {s : List Char} {i : Nat}, At text i s →
      Agrees text (outcome (readString (encode text) o i)) (Json.readString opened s) := by
  intro s
  induction hn : s.length using Nat.strongRecOn generalizing s with
  | _ n ih =>
    intro i h
    subst hn
    have hs : s.takeWhile isPlain ++ s.dropWhile isPlain = s := List.takeWhile_append_dropWhile
    have hslice : slice? (encode text) i (skipWhile (encode text) isPlain i) =
        some (s.takeWhile isPlain) := by
      rw [h.skipWhile_eq isAsciiTest_isPlain]
      exact At.slice?_eq (hs.symm ▸ h)
    have hrest := h.skipWhile isAsciiTest_isPlain
    have hread := readString_plain opened (List.all_eq_true.1 (List.all_takeWhile (l := s)))
      (s.dropWhile isPlain)
    rw [hs] at hread
    have hlength := (List.dropWhile_sublist isPlain (l := s)).length_le
    have hhead := List.head?_dropWhile_not isPlain s
    rw [outcome_readString, hslice, hread]
    generalize skipWhile (encode text) isPlain i = j at hrest ⊢
    generalize s.takeWhile isPlain = run
    generalize s.dropWhile isPlain = rest at hrest hlength hhead ⊢
    rcases rest with _ | ⟨c, rest⟩
    · rw [hrest.peek_nil]
      exact .fault hopened
    by_cases hquote : c = '"'
    · subst hquote
      have hpeek : peek (encode text) j = some '"' :=
        (hrest.peek_eq_some_iff (by decide)).2 ⟨rest, rfl⟩
      have hread : (Json.readString opened ('"' :: rest)).map (fun p ↦ (run ++ p.1, p.2)) =
          .ok (run, rest) := by
        rw [Json.readString, Except.map, List.append_nil]
      rw [hpeek, hread]
      exact .ok (hrest.next (by decide))
    · have hplain : isPlain c = false := hhead
      obtain rfl : c = '\\' := by simpa [isPlain, hquote] using hplain
      have hpeek : peek (encode text) j = some '\\' :=
        (hrest.peek_eq_some_iff (by decide)).2 ⟨rest, rfl⟩
      have hnext : At text (j + 1) rest := hrest.next (by decide)
      have hmap : (Json.readString opened ('\\' :: rest)).map (fun p ↦ (run ++ p.1, p.2)) =
          (frontEscape rest).bind fun (c, left) ↦
            (Json.readString opened left).map fun p ↦ (run ++ c :: p.1, p.2) := by
        rw [readString_backslash]
        rcases frontEscape rest with stop | ⟨c, left⟩
        · rfl
        · dsimp only [Except.bind]
          cases Json.readString opened left <;> rfl
      rw [hpeek, hmap]
      refine (agrees_readEscape hnext).bind fun c k left hleft hk ↦ ?_
      have hlt := length_of_frontEscape hleft
      rw [List.length_cons] at hlength
      exact (ih left.length (by omega) rfl hk).map (run ++ c :: ·)

theorem agrees_readLiteral {s : List Char} {i : Nat} (h : At text i ('"' :: s)) :
    Agrees text (outcome (readLiteral (encode text) i))
      (Json.outcome (Json.readLiteral ('"' :: s))) := by
  rw [outcome_readLiteral, Json.outcome_readLiteral, List.tail_cons]
  exact (agrees_readString h (h.next (by decide))).map String.ofList

/-! ### Numbers -/

/-- An index that is found when a place is, and then is that of the place. -/
inductive Finds (text : List Char) : Option Nat → Option (List Char) → Prop
  | none : Finds text none none
  | some {i : Nat} {left : List Char} (h : At text i left) : Finds text (some i) (some left)

theorem Finds.bind {r : Option Nat} {r' : Option (List Char)} (h : Finds text r r')
    {f : Nat → Option Nat} {f' : List Char → Option (List Char)}
    (hf : ∀ i left, At text i left → Finds text (f i) (f' left)) :
    Finds text (r.bind f) (r'.bind f') := by
  cases h with
  | none => exact .none
  | some h => exact hf _ _ h

/-- What is left behind digits, of which there is at least one. -/
def behindDigits? (s : List Char) : Option (List Char) :=
  if (Decimal.spanDigits s).1.isEmpty then none else some (Decimal.spanDigits s).2

theorem finds_skipDigits? {s : List Char} {i : Nat} (h : At text i s) :
    Finds text (skipDigits? (encode text) i) (behindDigits? s) := by
  have hskip := h.skipWhile_eq isAsciiTest_isDigit
  have hplace := h.skipWhile isAsciiTest_isDigit
  have hempty : (Decimal.spanDigits s).1.isEmpty = true ↔ s.takeWhile Char.isDigit = [] :=
    List.isEmpty_iff
  simp only [skipDigits?, behindDigits?]
  by_cases hnil : s.takeWhile Char.isDigit = []
  · rw [Text.byteCount_eq_zero_iff.2 hnil] at hskip
    rw [if_neg (by omega), if_pos (hempty.2 hnil)]
    exact .none
  · have hpos := Nat.pos_of_ne_zero (mt Text.byteCount_eq_zero_iff.1 hnil)
    rw [if_pos (by omega), if_neg (mt hempty.1 hnil)]
    exact .some hplace

theorem finds_skipFraction? {s : List Char} {i : Nat} (h : At text i s) :
    Finds text (skipFraction? (encode text) i) ((readFraction s).map Prod.snd) := by
  have hpeek := h.peek_eq_some_iff (c := '.') (by decide)
  unfold skipFraction?
  split_ifs with hpoint
  · obtain ⟨s, rfl⟩ := hpeek.1 hpoint
    have hbehind : (readFraction ('.' :: s)).map Prod.snd = behindDigits? s := by
      simp only [readFraction, behindDigits?]
      split_ifs <;> rfl
    rw [hbehind]
    exact finds_skipDigits? (h.next (by decide))
  · rw [readFraction]
    · exact .some h
    · exact fun s' hs' ↦ hpoint (hpeek.2 ⟨s', hs'⟩)

/-- A sign in front of digits is passed over. -/
theorem At.skipSign {s : List Char} {i : Nat} (h : At text i s) :
    At text (skipSign (encode text) i) (Decimal.spanSign s).2 := by
  have hplus := h.peek_eq_some_iff (c := '+') (by decide)
  have hminus := h.peek_eq_some_iff (c := '-') (by decide)
  unfold Cursor.skipSign
  split_ifs with hsign
  · rcases hsign with hsign | hsign
    · obtain ⟨s, rfl⟩ := hplus.1 hsign
      exact h.next (by decide)
    · obtain ⟨s, rfl⟩ := hminus.1 hsign
      exact h.next (by decide)
  · rw [not_or] at hsign
    rw [Decimal.spanSign]
    · exact h
    · exact fun s' hs' ↦ hsign.2 (hminus.2 ⟨s', hs'⟩)
    · exact fun s' hs' ↦ hsign.1 (hplus.2 ⟨s', hs'⟩)

theorem At.skipMinus {s : List Char} {i : Nat} (h : At text i s) :
    At text (skipMinus (encode text) i) (spanMinus s).2 := by
  have hminus := h.peek_eq_some_iff (c := '-') (by decide)
  unfold Cursor.skipMinus
  split_ifs with hsign
  · obtain ⟨s, rfl⟩ := hminus.1 hsign
    exact h.next (by decide)
  · rw [spanMinus]
    · exact h
    · exact fun s' hs' ↦ hsign (hminus.2 ⟨s', hs'⟩)

theorem finds_skipExponent? {s : List Char} {i : Nat} (h : At text i s) :
    Finds text (skipExponent? (encode text) i) ((readExponent s).map Prod.snd) := by
  have hlower := h.peek_eq_some_iff (c := 'e') (by decide)
  have hupper := h.peek_eq_some_iff (c := 'E') (by decide)
  have hbehind (mark : Char) (hmark : (mark == 'e' || mark == 'E') = true) (s : List Char) :
      (readExponent (mark :: s)).map Prod.snd = behindDigits? (Decimal.spanSign s).2 := by
    simp only [readExponent, hmark, behindDigits?, if_true]
    split_ifs <;> rfl
  unfold skipExponent?
  split_ifs with hmark
  · rcases hmark with hmark | hmark
    · obtain ⟨s, rfl⟩ := hlower.1 hmark
      rw [hbehind 'e' rfl]
      exact finds_skipDigits? (h.next (by decide)).skipSign
    · obtain ⟨s, rfl⟩ := hupper.1 hmark
      rw [hbehind 'E' rfl]
      exact finds_skipDigits? (h.next (by decide)).skipSign
  · rcases s with _ | ⟨c, s⟩
    · exact .some h
    · have hc : ¬(c == 'e' || c == 'E') = true := by
        rw [Bool.or_eq_true, beq_iff_eq, beq_iff_eq]
        rintro (rfl | rfl)
        · exact hmark (.inl (hlower.2 ⟨s, rfl⟩))
        · exact hmark (.inr (hupper.2 ⟨s, rfl⟩))
      rw [readExponent, if_neg hc]
      exact .some h

/-- What is left behind a number is found part by part. -/
theorem readNumber?_map_snd (s : List Char) :
    (readNumber? s).map Prod.snd =
      (behindDigits? (spanMinus s).2).bind fun r ↦
        ((readFraction r).map Prod.snd).bind fun r ↦ (readExponent r).map Prod.snd := by
  simp only [readNumber?, behindDigits?]
  split_ifs
  · rfl
  · dsimp only [Option.bind_eq_bind, Option.bind]
    rcases readFraction (Decimal.spanDigits (spanMinus s).2).2 with _ | ⟨fraction, r⟩
    · rfl
    · rcases hr : readExponent r with _ | ⟨exponent, r'⟩ <;> simp [hr]

theorem finds_skipNumber? {s : List Char} {i : Nat} (h : At text i s) :
    Finds text (skipNumber? (encode text) i) ((readNumber? s).map Prod.snd) := by
  rw [readNumber?_map_snd]
  refine (finds_skipDigits? h.skipMinus).bind fun _ _ h ↦ ?_
  exact (finds_skipFraction? h).bind fun _ _ h ↦ finds_skipExponent? h

/-- A number is converted from the piece of the text that it takes. -/
theorem agrees_readNumber {s : List Char} {i : Nat} (h : At text i s) :
    Agrees text (outcome (readNumber (encode text) i)) (Json.outcome (Json.readNumber s)) := by
  have hfinds := finds_skipNumber? h
  rw [outcome_readNumber, Json.outcome_readNumber]
  rcases hs : readNumber? s with _ | ⟨x, left⟩
  · rw [hs] at hfinds
    generalize skipNumber? (encode text) i = r at hfinds ⊢
    cases hfinds
    exact .fault h
  · rw [hs] at hfinds
    obtain ⟨k, hk, rfl⟩ := numberText_of_readNumber? hs
    have hx : Decimal.readDouble k = some x := by
      cases hk
      assumption
    generalize skipNumber? (encode text) i = r at hfinds ⊢
    cases hfinds with
    | @some j _ hj =>
      obtain rfl : j = i + Text.byteCount k := hj.eq_sub.trans h.append.eq_sub.symm
      dsimp only
      rw [h.slice?_eq]
      dsimp only
      rw [hx]
      exact .ok hj

/-! ### Words -/

/-- The character that is not expected is the next one. -/
theorem At.unexpected_eq {c : Char} {s : List Char} {i : Nat} (h : At text i (c :: s)) :
    unexpected (encode text) i = .fault (.unexpectedCharacter c) i := by
  have hslice := At.slice?_eq (u := c :: s) (s := []) ((List.append_nil (c :: s)).symm ▸ h)
  rw [unexpected, h.length_eq, hslice]
  rfl

theorem agrees_readWord (word : List Char) (t : Tree) {c : Char} {s : List Char} {i : Nat}
    (h : At text i (c :: s)) :
    Agrees text (outcome (readWord (encode text) word t c i))
      (Json.outcome (Json.readWord word t c s)) := by
  have hbegins : (encode (c :: word)).isPrefixOf (encode (c :: s)) = true ↔
      word.isPrefixOf s = true := by
    have hcons : c :: word <+: c :: s ↔ word <+: s := List.prefix_cons_inj c
    exact List.isPrefixOf_iff_prefix.trans <| encode_isPrefix_iff.trans <| hcons.trans <|
      List.isPrefixOf_iff_prefix.symm
  rw [Json.outcome_readWord, readWord, h.suffix?_eq]
  dsimp only
  split_ifs with hbytes hword hword
  · obtain ⟨r, rfl⟩ := List.isPrefixOf_iff_prefix.1 hword
    have hplace := At.append (u := c :: word) h
    rw [Text.byteCount_eq] at hplace
    rw [List.drop_left]
    exact .ok hplace
  · exact absurd (hbegins.1 hbytes) hword
  · exact absurd (hbegins.2 hword) hbytes
  · rw [outcome_error, h.unexpected_eq]
    exact .fault h

end ScriptHost.Json.Cursor
