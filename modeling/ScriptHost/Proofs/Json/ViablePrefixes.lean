import ScriptHost.Proofs.Json.OpenContainers
import ScriptHost.Proofs.Json.Soundness

/-!
# Where reading stops

A reader that fails stops behind a text that begins one of the texts which it was to read: nothing
before the place at which it stops is at fault.  The rest of the text that was begun is made from
what is open there.  A reader of values with so many levels stops at too deep a nesting only where
as many containers are open.

The induction is on the levels; within a container it is on the length of the text.

## Main definitions

* `Json.StopsIn` : a place at which a reader of some language stops.

## Main results

* `Json.stopsIn_of_readValue` : where readers of values stop.
* `Json.stopsIn_of_readDocument` : where readers of documents stop.
-/

namespace ScriptHost.Json

/-! ### What is to be read -/

/-- The texts of values, however deep they go. -/
def IsValue (s : List Char) : Prop := ∃ d t, ValueText d s t

/-- The texts of elements, however deep they go. -/
def AreElements (s : List Char) : Prop := ∃ d ts, ElementsText d s ts

/-- The texts of members, however deep they go. -/
def AreMembers (s : List Char) : Prop := ∃ d ms, MembersText d s ms

/-- The texts of documents, however deep they go. -/
def IsDocument (s : List Char) : Prop := ∃ d t, DocumentText d s t

/-- The name of a member with its colon. -/
def IsName (s : List Char) : Prop :=
  ∃ k name w, StringText k name ∧ IsBlank w ∧ s = '"' :: (k ++ '"' :: (w ++ [':']))

theorem isValue_null : IsValue ['n', 'u', 'l', 'l'] := ⟨0, .nil, .nullWord⟩

theorem isName_empty : IsName ['"', '"', ':'] := ⟨[], [], [], .nil, isBlank_nil, rfl⟩

/-- The text in front of `left` begins a text of `language`. -/
def Begins (language : List Char → Prop) (s left : List Char) : Prop :=
  ∃ before rest, s = before ++ left ∧ language (before ++ rest)

/-- A reader of `language` stopped in `s`: what it has read begins a text of the language, and if it
has met too deep a nesting, then `levels` containers are open there. -/
def StopsIn (language : List Char → Prop) (levels : Nat) (s : List Char) (stop : Stop) : Prop :=
  ∃ before rest, s = before ++ stop.left ∧ language (before ++ rest) ∧
    (stop.fault = .nestingTooDeep → Opens levels before)

section

variable {language language' : List Char → Prop} {levels levels' : Nat} {s u left : List Char}
  {stop : Stop}

theorem begins_start (h : ∃ k, language k) : Begins language s s := by
  obtain ⟨k, hk⟩ := h
  exact ⟨[], k, rfl, hk⟩

/-- What a text begins with may come after another. -/
theorem Begins.after (h : Begins language s left)
    (hlanguage : ∀ k, language k → ∃ rest, language' (u ++ (k ++ rest))) :
    Begins language' (u ++ s) left := by
  obtain ⟨before, rest, rfl, hbefore⟩ := h
  obtain ⟨rest', hrest'⟩ := hlanguage _ hbefore
  refine ⟨u ++ before, rest ++ rest', List.append_assoc u before left |>.symm, ?_⟩
  rwa [List.append_assoc, ← List.append_assoc before]

theorem Begins.stopsIn (h : Begins language s stop.left) (hfault : stop.fault ≠ .nestingTooDeep) :
    StopsIn language levels s stop := by
  obtain ⟨before, rest, hs, hbefore⟩ := h
  exact ⟨before, rest, hs, hbefore, fun hdeep ↦ absurd hdeep hfault⟩

/-- A reader that stops after it has read something else first. -/
theorem StopsIn.append (h : StopsIn language levels s stop) (hu : Opens levels' u)
    (hlanguage : ∀ k, language k → ∃ rest, language' (u ++ (k ++ rest))) :
    StopsIn language' (levels' + levels) (u ++ s) stop := by
  obtain ⟨before, rest, hs, hbefore, hdeep⟩ := h
  obtain ⟨rest', hrest'⟩ := hlanguage _ hbefore
  refine ⟨u ++ before, rest ++ rest', ?_, ?_, fun hfault ↦ hu.append (hdeep hfault)⟩
  · rw [hs, List.append_assoc]
  · rwa [List.append_assoc, ← List.append_assoc before]

/-- A reader that stops after it has read something closed first. -/
theorem StopsIn.after (h : StopsIn language levels s stop) (hu : Opens 0 u)
    (hlanguage : ∀ k, language k → ∃ rest, language' (u ++ (k ++ rest))) :
    StopsIn language' levels (u ++ s) stop := by
  simpa only [Nat.zero_add] using h.append hu hlanguage

end

/-! ### Tokens -/

/-- What may stand between the quotes of a string. -/
def IsString (s : List Char) : Prop := ∃ text, StringText s text

theorem prepend_eq_error_iff {c : Char} {r : Except Stop (List Char × List Char)} {stop : Stop} :
    prepend c r = .error stop ↔ r = .error stop := by
  rcases r with stop' | ⟨t, l⟩
  · simp [prepend]
  · simp [prepend]

/-- A string literal is found to be at fault at its opening quote, or behind a part of it that can
be completed. -/
theorem begins_of_readString {opened s : List Char} {stop : Stop}
    (h : readString opened s = .error stop) :
    stop.fault ≠ .nestingTooDeep ∧ (stop.left = opened ∨ Begins IsString s stop.left) := by
  have hletter : IsString ['\\', 'n'] := ⟨['\n'], .short (by decide) .nil⟩
  have hzero : HexDigit '0' 0 := .decimal (by decide) (by decide)
  have hcode : IsString ['\\', 'u', '0', '0', '0', '0'] :=
    ⟨_, .ascii hzero hzero hzero hzero (by decide) .nil⟩
  fun_induction readString opened s with
  | case1 =>
    cases h
    exact ⟨by simp, .inl rfl⟩
  | case2 => cases h
  | case3 =>
    cases h
    exact ⟨by simp, .inr ⟨['\\'], ['n'], rfl, hletter⟩⟩
  | case4 a b c d s n hn ih =>
    obtain ⟨hfault, hleft⟩ := ih (prepend_eq_error_iff.1 h)
    refine ⟨hfault, hleft.imp_right fun hbegins ↦ ?_⟩
    obtain ⟨n₃, n₂, n₁, n₀, h₃, h₂, h₁, h₀, rfl⟩ := codePoint?_eq_some_iff.1 hn
    refine hbegins.after (u := ['\\', 'u', a, b, c, d]) ?_
    rintro k ⟨text, hk⟩
    rw [← List.append_nil k] at hk
    by_cases hle : ((n₃ * 16 + n₂) * 16 + n₁) * 16 + n₀ ≤ 0x7F
    · exact ⟨[], _, .ascii h₃ h₂ h₁ h₀ hle hk⟩
    · exact ⟨[], _, .beyond h₃ h₂ h₁ h₀ (Nat.lt_of_not_le hle) hk⟩
  | case5 =>
    cases h
    exact ⟨by simp, .inr ⟨['\\', 'u'], ['0', '0', '0', '0'], rfl, hcode⟩⟩
  | case6 =>
    cases h
    exact ⟨by simp, .inr ⟨['\\', 'u'], ['0', '0', '0', '0'], rfl, hcode⟩⟩
  | case7 e s _ _ c hc ih =>
    obtain ⟨hfault, hleft⟩ := ih (prepend_eq_error_iff.1 h)
    refine ⟨hfault, hleft.imp_right fun hbegins ↦ ?_⟩
    refine hbegins.after (u := ['\\', e]) ?_
    rintro k ⟨text, hk⟩
    rw [← List.append_nil k] at hk
    exact ⟨[], _, .short (escape?_eq_some_iff.1 hc) hk⟩
  | case8 =>
    cases h
    exact ⟨by simp, .inr ⟨['\\'], ['n'], rfl, hletter⟩⟩
  | case9 c s hquote hend _ _ hletter' ih =>
    obtain ⟨hfault, hleft⟩ := ih (prepend_eq_error_iff.1 h)
    refine ⟨hfault, hleft.imp_right fun hbegins ↦ ?_⟩
    have hbackslash : c ≠ '\\' := fun hc ↦ by
      cases s with
      | nil => exact hend hc rfl
      | cons e r => exact hletter' e r hc rfl
    refine hbegins.after (u := [c]) ?_
    rintro k ⟨text, hk⟩
    rw [← List.append_nil k] at hk
    exact ⟨[], _, .plain hquote hbackslash hk⟩

/-- Where a reader of names stops. -/
theorem stopsIn_of_readName {levels : Nat} {s : List Char} {stop : Stop}
    (h : outcome (readName s) = .error stop) : StopsIn IsName levels s stop := by
  have hstart (s : List Char) : Begins IsName s s := begins_start ⟨_, isName_empty⟩
  rcases s with _ | ⟨c, s⟩
  · cases h
    exact (hstart []).stopsIn (by simp)
  by_cases hc : c = '"'
  · subst hc
    rw [outcome_readName_quote, outcome_readLiteral] at h
    rcases bind_eq_error_iff.1 h with h | ⟨⟨name, left⟩, hname, h⟩
    · obtain ⟨hfault, hleft | hbegins⟩ := begins_of_readString (map_eq_error_iff.1 h)
      · rw [← hleft]
        exact (hstart _).stopsIn hfault
      · refine Begins.stopsIn (Begins.after (u := ['"']) hbegins ?_) hfault
        rintro k ⟨text, hk⟩
        exact ⟨['"', ':'], k, text, [], hk, isBlank_nil, rfl⟩
    · obtain ⟨⟨chars, r⟩, hchars, hr⟩ := map_eq_ok_iff.1 hname
      cases hr
      obtain ⟨k, hk, hs⟩ := stringText_of_readString hchars
      obtain ⟨w, hw, hleft⟩ := exists_isBlank_append_skipSpace r
      rw [List.tail_cons] at hs
      dsimp only at h
      split at h
      · cases h
      · cases h
        refine Begins.stopsIn ⟨'"' :: (k ++ '"' :: w), [':'], ?_, k, chars, w, hk, hw, ?_⟩ (by simp)
        · rw [List.cons_append, List.append_assoc, List.cons_append, ← hleft, ← hs]
        · rw [List.cons_append, List.append_assoc, List.cons_append]
  · rw [readName] at h
    · cases h
      exact Begins.stopsIn (hstart _) (by simp)
    · simp
    · exact fun s' hs' ↦ hc (List.cons.inj hs').1

/-! ### Containers -/

/-- Where a reader of values with so many levels stops. -/
def StopsInValues (levels : Nat) : Prop :=
  ∀ {s : List Char} {stop : Stop}, outcome (readValue levels s) = .error stop →
    StopsIn IsValue levels s stop

/-- Where a reader of elements stops. -/
theorem StopsInValues.elements {levels : Nat} (hitem : StopsInValues levels) :
    ∀ {s : List Char} {stop : Stop}, outcome (readElements (readValue levels) s) = .error stop →
      StopsIn AreElements levels s stop := by
  intro s
  induction hn : s.length using Nat.strongRecOn generalizing s with
  | _ n ih =>
    intro stop h
    subst hn
    rw [outcome_readElements] at h
    obtain ⟨w₁, hw₁, hs₁⟩ := exists_isBlank_append_skipSpace s
    rcases bind_eq_error_iff.1 h with h | ⟨⟨t, left⟩, ht, h⟩
    · rw [hs₁]
      refine (hitem h).after hw₁.opens ?_
      rintro k ⟨d, t, hk⟩
      exact ⟨[], d, [t], .last hw₁ hk isBlank_nil⟩
    obtain ⟨w₂, hw₂, hs₂⟩ := exists_isBlank_append_skipSpace left
    obtain ⟨d, k, -, hk, hs⟩ := valueText_of_readValue levels ht
    rw [hs, hs₂] at hs₁
    dsimp only at h
    split at h
    · rename_i s' hcomma
      rw [hcomma] at hs₁
      have hs' : s = (w₁ ++ (k ++ (w₂ ++ [',']))) ++ s' := by
        rw [hs₁]
        simp only [List.append_assoc, List.cons_append, List.nil_append]
      have hlength : s'.length < s.length := by
        rw [hs', List.length_append]
        simp only [List.length_append, List.length_cons]
        omega
      have hopens : Opens 0 (w₁ ++ (k ++ (w₂ ++ [',']))) :=
        hw₁.opens.before <| hk.opens.before <| hw₂.opens.before (opens_nil.cons isInert_comma)
      rw [hs']
      refine (ih s'.length hlength rfl (map_eq_error_iff.1 h)).after hopens ?_
      rintro r ⟨e, ts, hr⟩
      refine ⟨[], max d e, t :: ts, ?_⟩
      simp only [List.append_assoc, List.cons_append, List.nil_append, List.append_nil]
      exact .cons hw₁ hk hw₂ hr
    · cases h
    · cases h
      refine Begins.stopsIn ⟨w₁ ++ (k ++ w₂), [], ?_, d, [t], ?_⟩ (by simp)
      · rw [hs₁, List.append_assoc, List.append_assoc]
      · rw [List.append_nil]
        exact .last hw₁ hk hw₂

/-- The beginning of a member, up to its value. -/
inductive MemberFront : List Char → String → Prop
  | intro {w₁ k name w₂ w₃ : List Char} (hw₁ : IsBlank w₁) (hname : StringText k name)
      (hw₂ : IsBlank w₂) (hw₃ : IsBlank w₃) :
      MemberFront (w₁ ++ '"' :: (k ++ '"' :: (w₂ ++ ':' :: w₃))) (String.ofList name)

section MemberFront

variable {front s w r : List Char} {name : String} {d e : Nat} {t : Tree}

theorem MemberFront.opens (h : MemberFront front name) : Opens 0 front := by
  obtain ⟨hw₁, hname, hw₂, hw₃⟩ := h
  exact hw₁.opens.before <| hname.opens_append <| hw₂.opens.before <| .cons isInert_colon hw₃.opens

theorem MemberFront.last (h : MemberFront front name) (hs : ValueText d s t) (hw : IsBlank w) :
    MembersText d (front ++ (s ++ w)) [(name, t)] := by
  obtain ⟨hw₁, hname, hw₂, hw₃⟩ := h
  simpa only [List.append_assoc, List.cons_append] using
    MembersText.last hw₁ hname hw₂ hw₃ hs hw

theorem MemberFront.cons {ms : List (String × Tree)} (h : MemberFront front name)
    (hs : ValueText d s t) (hw : IsBlank w) (hr : MembersText e r ms) :
    MembersText (max d e) (front ++ (s ++ (w ++ ',' :: r))) ((name, t) :: ms) := by
  obtain ⟨hw₁, hname, hw₂, hw₃⟩ := h
  simpa only [List.append_assoc, List.cons_append] using
    MembersText.cons hw₁ hname hw₂ hw₃ hs hw hr

/-- What a reader of members reads up to a value begins a member. -/
theorem exists_memberFront (h : outcome (readName (skipSpace s)) = .ok (name, r)) :
    ∃ front, MemberFront front name ∧ s = front ++ skipSpace r := by
  obtain ⟨w₁, hw₁, hs₁⟩ := exists_isBlank_append_skipSpace s
  obtain ⟨k, chars, w₂, hchars, rfl, hw₂, hs₂⟩ := stringText_of_readName h
  obtain ⟨w₃, hw₃, hs₃⟩ := exists_isBlank_append_skipSpace r
  refine ⟨_, .intro hw₁ hchars hw₂ hw₃, ?_⟩
  rw [hs₂, hs₃] at hs₁
  rw [hs₁]
  simp only [List.append_assoc, List.cons_append]

/-- What a reader of members reads up to a name, with what it has of that, begins members. -/
theorem stopsIn_name {levels : Nat} {stop : Stop}
    (h : outcome (readName (skipSpace s)) = .error stop) : StopsIn AreMembers levels s stop := by
  obtain ⟨w₁, hw₁, hs₁⟩ := exists_isBlank_append_skipSpace s
  rw [hs₁]
  refine (stopsIn_of_readName h).after hw₁.opens ?_
  rintro _ ⟨k, chars, w₂, hk, hw₂, rfl⟩
  refine ⟨['n', 'u', 'l', 'l'], 0, [(String.ofList chars, .nil)], ?_⟩
  simpa using MembersText.last hw₁ hk hw₂ isBlank_nil .nullWord isBlank_nil

end MemberFront

/-- Where a reader of members stops. -/
theorem StopsInValues.members {levels : Nat} (hitem : StopsInValues levels) :
    ∀ {s : List Char} {stop : Stop}, outcome (readMembers (readValue levels) s) = .error stop →
      StopsIn AreMembers levels s stop := by
  intro s
  induction hn : s.length using Nat.strongRecOn generalizing s with
  | _ n ih =>
    intro stop h
    subst hn
    rw [outcome_readMembers] at h
    rcases bind_eq_error_iff.1 h with h | ⟨⟨name, afterName⟩, hname, h⟩
    · exact stopsIn_name h
    obtain ⟨front, hfront, hs₁⟩ := exists_memberFront hname
    rcases bind_eq_error_iff.1 h with h | ⟨⟨t, left⟩, ht, h⟩
    · rw [hs₁]
      refine (hitem h).after hfront.opens ?_
      rintro v ⟨d, t, hv⟩
      exact ⟨[], d, [(name, t)], hfront.last hv isBlank_nil⟩
    obtain ⟨w, hw, hs₂⟩ := exists_isBlank_append_skipSpace left
    obtain ⟨d, v, -, hv, hs⟩ := valueText_of_readValue levels ht
    rw [hs, hs₂] at hs₁
    dsimp only at h
    split at h
    · rename_i s' hcomma
      rw [hcomma] at hs₁
      have hs' : s = (front ++ (v ++ (w ++ [',']))) ++ s' := by
        rw [hs₁]
        simp only [List.append_assoc, List.cons_append, List.nil_append]
      have hlength : s'.length < s.length := by
        rw [hs', List.length_append]
        simp only [List.length_append, List.length_cons]
        omega
      have hopens : Opens 0 (front ++ (v ++ (w ++ [',']))) :=
        hfront.opens.before <| hv.opens.before <| hw.opens.before (opens_nil.cons isInert_comma)
      rw [hs']
      refine (ih s'.length hlength rfl (map_eq_error_iff.1 h)).after hopens ?_
      rintro r ⟨e, ms, hr⟩
      refine ⟨[], max d e, (name, t) :: ms, ?_⟩
      simp only [List.append_assoc, List.cons_append, List.nil_append, List.append_nil]
      exact hfront.cons hv hw hr
    · cases h
    · cases h
      refine Begins.stopsIn ⟨front ++ (v ++ w), [], ?_, d, [(name, t)], ?_⟩ (by simp)
      · rw [hs₁, List.append_assoc, List.append_assoc]
      · rw [List.append_nil]
        exact hfront.last hv hw

theorem StopsInValues.array {levels : Nat} (hitem : StopsInValues levels) {s : List Char}
    {stop : Stop} (h : outcome (readArray (readValue levels) s) = .error stop) :
    StopsIn IsValue (levels + 1) ('[' :: s) stop := by
  rw [outcome_readArray] at h
  split at h
  · cases h
  · rw [Nat.add_comm]
    refine (hitem.elements (map_eq_error_iff.1 h)).append opens_bracket ?_
    rintro k ⟨d, ts, hk⟩
    exact ⟨[']'], d + 1, _, .array hk⟩

theorem StopsInValues.object {levels : Nat} (hitem : StopsInValues levels) {s : List Char}
    {stop : Stop} (h : outcome (readObject (readValue levels) s) = .error stop) :
    StopsIn IsValue (levels + 1) ('{' :: s) stop := by
  rw [outcome_readObject] at h
  split at h
  · cases h
  · rw [Nat.add_comm]
    refine (hitem.members (map_eq_error_iff.1 h)).append opens_brace ?_
    rintro k ⟨d, ms, hk⟩
    exact ⟨['}'], d + 1, _, .object hk (lastWins_iff.2 rfl)⟩

/-! ### Values and documents -/

theorem StopsInValues.succ {levels : Nat} (hitem : StopsInValues levels) :
    StopsInValues (levels + 1) := by
  have hstart (s : List Char) : Begins IsValue s s := begins_start ⟨_, isValue_null⟩
  have hword {word s : List Char} {t : Tree} {c : Char} {stop : Stop}
      (h : outcome (readWord word t c s) = .error stop) :
      StopsIn IsValue (levels + 1) (c :: s) stop := by
    rw [outcome_readWord] at h
    split_ifs at h
    cases h
    exact Begins.stopsIn (hstart _) (by simp)
  rintro (_ | ⟨c, s⟩) stop h
  · cases h
    exact Begins.stopsIn (hstart _) (by simp)
  rw [outcome_readValue_cons] at h
  split_ifs at h with hbrace hbracket hquote hnumber htrue hfalse hnull
  · subst hbrace
    exact hitem.object h
  · subst hbracket
    exact hitem.array h
  · subst hquote
    obtain ⟨hfault, hleft | hbegins⟩ := begins_of_readString (map_eq_error_iff.1 h)
    · rw [← hleft]
      exact (hstart _).stopsIn hfault
    · refine Begins.stopsIn (Begins.after (u := ['"']) hbegins ?_) hfault
      rintro k ⟨text, hk⟩
      exact ⟨['"'], 0, _, .string hk⟩
  · split at h
    · cases h
    · cases h
      exact Begins.stopsIn (hstart _) (by simp)
  · exact hword h
  · exact hword h
  · exact hword h
  · cases h
    exact Begins.stopsIn (hstart _) (by simp)

/-- Where readers of values stop. -/
theorem stopsIn_of_readValue (levels : Nat) : StopsInValues levels := by
  induction levels with
  | zero =>
    intro s stop h
    cases h
    exact ⟨[], _, rfl, isValue_null, fun _ ↦ opens_nil⟩
  | succ levels ih => exact ih.succ

/-- Where readers of documents stop. -/
theorem stopsIn_of_readDocument {s : List Char} {stop : Stop}
    (h : readDocument s = .error stop) : StopsIn IsDocument (maxNesting + 1) s stop := by
  rw [readDocument_eq] at h
  obtain ⟨w₁, hw₁, hs₁⟩ := exists_isBlank_append_skipSpace s
  rcases bind_eq_error_iff.1 h with h | ⟨⟨t, left⟩, ht, h⟩
  · rw [hs₁]
    refine (stopsIn_of_readValue _ h).after hw₁.opens ?_
    rintro k ⟨d, t, hk⟩
    exact ⟨[], d, t, .intro hw₁ hk isBlank_nil⟩
  · obtain ⟨d, k, -, hk, hs⟩ := valueText_of_readValue _ ht
    obtain ⟨w₂, hw₂, hs₂⟩ := exists_isBlank_append_skipSpace left
    rw [hs, hs₂] at hs₁
    dsimp only at h
    split at h
    · cases h
    · cases h
      refine Begins.stopsIn ⟨w₁ ++ (k ++ w₂), [], ?_, d, t, ?_⟩ (by simp)
      · rw [hs₁, List.append_assoc, List.append_assoc]
      · rw [List.append_nil]
        exact .intro hw₁ hk hw₂

end ScriptHost.Json
