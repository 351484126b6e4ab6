import ScriptHost.Proofs.Double.Rereading
import ScriptHost.Proofs.Json.DocumentTrees
import ScriptHost.Proofs.Json.NumberTokens
import ScriptHost.Proofs.Json.Recognition
import ScriptHost.Proofs.Json.Writing
import ScriptHost.Proofs.Tree.Refolding

/-!
# Formatting a document

To format a text is to parse it and to write what was parsed.  What comes out is formatted to
itself, in either layout: the numbers of the text were cut down to six digits the first time, and
are the same six digits the second time, while those beyond the largest double have become null.
Subnormal numbers are left out, for which the second text may differ from the first.  A text whose
numbers have six digits at most is formatted without a loss.

## Main definitions

* `Json.Reformats` : the text of a value is parsed to a tree that has this text again.

## Main results

* `Json.writeAt_reread` : what is read from a text is written as this text.
* `Json.exists_reformats` : a document that was formatted is formatted to itself, and keeps numbers
  of six digits.
-/

namespace ScriptHost

/-! ### What is read from a text -/

namespace Tree

/-- The members of a node count as an array after they were read if they did before. -/
theorem countsAsArray_reread (shape : Shape) (ms : List (String × Tree)) :
    countsAsArray (if countsAsArray shape ms then .array else .map) (rereadMembers ms) =
      countsAsArray shape ms := by
  cases ms with
  | nil => cases shape <;> rfl
  | cons m ms => exact Members.isDense_congr (keys_rereadMembers (m :: ms))

mutual

/-- Reading goes as deep as what was written. -/
theorem nesting_reread : ∀ t : Tree, t.reread.nesting = t.nesting
  | .nil => rfl
  | .number n => by
    rw [reread]
    split_ifs <;> rfl
  | .boolean _ => rfl
  | .string _ => rfl
  | .node _ [] => rfl
  | .node _ (m :: ms) => congrArg (· + 1) (deepest_rereadMembers (m :: ms))

theorem deepest_rereadMembers :
    ∀ ms : List (String × Tree), deepest (rereadMembers ms) = deepest ms
  | [] => rfl
  | (_, t) :: ms => congrArg₂ max (nesting_reread t) (deepest_rereadMembers ms)

end

/-- A finite double that is read back from its text. -/
def IsKept (n : Double) : Prop := n.isFinite = true ∧ Decimal.readDouble n.text = some n

mutual

/-- Where all numbers are read back, reading changes nothing but shapes. -/
theorem alike_reread : ∀ t : Tree, t.AllNumbers IsKept → t.reread.Alike t
  | .nil, _ => .nil
  | .number n, ⟨hfinite, hread⟩ => by
    rw [reread, if_pos hfinite, hread]
    refine .number ?_
    rintro rfl
    cases hfinite
  | .boolean _, _ => .boolean
  | .string _, _ => .string
  | .node shape ms, h => .node (countsAsArray_reread shape ms) (membersAlike_rereadMembers ms h)

theorem membersAlike_rereadMembers : ∀ ms : List (String × Tree), MembersAllNumbers IsKept ms →
    MembersAlike (rereadMembers ms) ms
  | [], _ => .nil
  | (_, t) :: ms, h => .cons (alike_reread t h.1) (membersAlike_rereadMembers ms h.2)

end

end Tree

namespace Json

variable {layout : Layout}

/-! ### The second text -/

/-- What is read from a number has its text, which is null for an infinity. -/
theorem writeAt_reread_number {n : Double} (hn : n.isOrdinary = true) (depth : Nat)
    (rest : List Char) :
    writeAt layout depth (Tree.number n).reread rest = writeAt layout depth (.number n) rest := by
  rw [Tree.reread, writeAt, numeral]
  split_ifs with hfinite
  · obtain ⟨y, hread, hy, htext⟩ := Double.exists_readDouble_text hfinite hn
    rw [hread, Option.getD_some, writeAt, numeral, if_pos hy, htext]
  · rfl

mutual

/-- What is read from a text is written as this text. -/
theorem writeAt_reread : ∀ (t : Tree), t.AllNumbers (·.isOrdinary = true) →
    ∀ (depth : Nat) (rest : List Char),
      writeAt layout depth t.reread rest = writeAt layout depth t rest
  | .nil, _, _, _ => rfl
  | .number _, hn, depth, rest => writeAt_reread_number hn depth rest
  | .boolean _, _, _, _ => rfl
  | .string _, _, _, _ => rfl
  | .node shape [], _, depth, rest => by
    have hcounts := Tree.countsAsArray_reread shape []
    rw [Tree.rereadMembers] at hcounts
    simp only [Tree.reread, Tree.rereadMembers, writeAt, hcounts]
  | .node shape (m :: ms), h, depth, rest => by
    have hcounts := Tree.countsAsArray_reread shape (m :: ms)
    have hmembers := writeMembers_rereadMembers (m :: ms) h
    rw [Tree.rereadMembers] at hcounts hmembers
    simp only [Tree.reread, Tree.rereadMembers, writeAt, hcounts, hmembers]

theorem writeMembers_rereadMembers : ∀ (ms : List (String × Tree)),
    Tree.MembersAllNumbers (·.isOrdinary = true) ms →
      ∀ (depth : Nat) (array comma : Bool) (rest : List Char),
        writeMembers layout depth array comma (Tree.rereadMembers ms) rest =
          writeMembers layout depth array comma ms rest
  | [], _, _, _, _, _ => rfl
  | (_, t) :: ms, h, depth, array, comma, rest => by
    simp only [Tree.rereadMembers, writeMembers, writeAt_reread t h.1,
      writeMembers_rereadMembers ms h.2]

end

/-- The text of a tree that does not go too deep is parsed. -/
theorem parse_write {t : Tree} (hnames : t.HasDistinctNames) (hnesting : t.nesting ≤ maxNesting) :
    parse (String.ofList (write layout t [])) = .ok t.reread := by
  have hwritten : IsWritten layout t := isWritten t hnames
  obtain ⟨k, hk, hwrite⟩ := hwritten 0
  have hdocument := DocumentText.intro isBlank_nil hk isBlank_nil
  rw [List.nil_append, List.append_nil, ← String.toList_ofList (l := k)] at hdocument
  rw [write, hwrite, List.append_nil]
  exact hdocument.parse_eq_ok ((Tree.nesting_reread t).trans_le hnesting)

/-! ### A document of two numbers

One is written with a zero too many, the other with a sign too many. -/

theorem isDigits_zero : IsDigits ['0'] := ⟨by decide, List.forall_mem_singleton.2 rfl⟩

theorem isDigits_ten : IsDigits ['1', '0'] :=
  ⟨by decide, List.forall_mem_cons.2 ⟨rfl, List.forall_mem_singleton.2 rfl⟩⟩

theorem parse_tenth_zero :
    parse "[0.10,-0]" =
      .ok (.node .array
        [("0", .number (.ofRatio false 1 10)), ("1", .number (.finite true .zero))]) := by
  have htenth : NumberText ([] ++ (['0'] ++ (['.', '1', '0'] ++ []))) (.ofRatio false 1 10) :=
    .parts (.inl rfl) isDigits_zero (.digits isDigits_ten) .absent (by decide +kernel)
  have hzero : NumberText (['-'] ++ (['0'] ++ ([] ++ []))) (.finite true .zero) :=
    .parts (.inr rfl) isDigits_zero .absent .absent (by decide +kernel)
  have helements : ElementsText (max 0 0)
      ([] ++ (['0', '.', '1', '0'] ++ ([] ++ ',' :: ([] ++ (['-', '0'] ++ [])))))
      [.number (.ofRatio false 1 10), .number (.finite true .zero)] :=
    .cons isBlank_nil (.number htenth) isBlank_nil (.last isBlank_nil (.number hzero) isBlank_nil)
  have hdocument : DocumentText 1 "[0.10,-0]".toList _ :=
    .intro isBlank_nil (.array helements) isBlank_nil
  exact hdocument.parse_eq_ok (by decide)

theorem numberTokens_tenth_zero :
    numberTokens "[0.10,-0]".toList = [['0', '.', '1', '0'], ['-', '0']] := by
  decide +kernel

theorem isOrdinary_tenth_zero : ∀ k ∈ numberTokens "[0.10,-0]".toList,
    ∃ x, Decimal.readDouble k = some x ∧ x.isOrdinary = true := by
  rw [numberTokens_tenth_zero]
  refine List.forall_mem_cons.2 ⟨⟨.ofRatio false 1 10, ?_, ?_⟩,
    List.forall_mem_singleton.2 ⟨.finite true .zero, ?_, ?_⟩⟩ <;> decide +kernel

theorem hasSixDigits_tenth : Decimal.HasSixDigits (1 / 10) := by
  refine .inr ⟨1, -1, by norm_num, by decide, by decide, ?_, ?_⟩
  · calc (222508 / 10 ^ 313 : ℚ) ≤ 222508 / 10 ^ 7 := by gcongr <;> norm_num
      _ ≤ |1 / 10| := by norm_num
  · calc |(1 / 10 : ℚ)| ≤ 179769 * 10 ^ 0 := by norm_num
      _ ≤ 179769 * 10 ^ 303 := by gcongr <;> norm_num

theorem exactValue_tenth : Decimal.exactValue ['0', '.', '1', '0'] = 1 / 10 := by
  have hparts : Decimal.exactValue ['0', '.', '1', '0'] =
      1 * (Decimal.fixedPoint ['0'] ['1', '0'] * 10 ^ (0 : ℤ)) := rfl
  have hdigits : Decimal.ofDigits (['0'] ++ ['1', '0']) = 10 := by decide
  rw [hparts, Decimal.fixedPoint, hdigits]
  norm_num

theorem exactValue_minus_zero : Decimal.exactValue ['-', '0'] = 0 := by
  have hparts : Decimal.exactValue ['-', '0'] =
      -1 * (Decimal.fixedPoint ['0'] [] * 10 ^ (0 : ℤ)) := rfl
  have hdigits : Decimal.ofDigits (['0'] ++ []) = 0 := by decide
  rw [hparts, Decimal.fixedPoint, hdigits]
  norm_num

theorem hasSixDigits_tenth_zero : ∀ k ∈ numberTokens "[0.10,-0]".toList,
    Decimal.ReadsNearest k ∧ Decimal.HasSixDigits (Decimal.exactValue k) := by
  have htenth : Decimal.ReadsNearest ([] ++ (['0'] ++ (['.', '1', '0'] ++ []))) :=
    Decimal.readsNearest_parts (.inl rfl) isDigits_zero (.digits isDigits_ten) .absent (by decide)
  have hzero : Decimal.ReadsNearest (['-'] ++ (['0'] ++ ([] ++ []))) :=
    Decimal.readsNearest_parts (.inr rfl) isDigits_zero .absent .absent (by decide)
  rw [numberTokens_tenth_zero]
  refine List.forall_mem_cons.2
    ⟨⟨htenth, ?_⟩, List.forall_mem_singleton.2 ⟨hzero, .inl exactValue_minus_zero⟩⟩
  rw [exactValue_tenth]
  exact hasSixDigits_tenth

/-! ### Formatting -/

/-- The text of a value is parsed to this tree, which has the same text again. -/
def Reformats (text : Heap → Value → String) (heap : Heap) (v : Value) (u : Tree) : Prop :=
  parse (text heap v) = .ok u ∧ text (heap.realize u).2 (heap.realize u).1 = text heap v

/-- A value that leads to a tree from a document, in either layout. -/
theorem reformats_reread (layout : Layout) {heap : Heap} {v : Value} {t : Tree}
    (hunfold : heap.unfold v = t) (hnames : t.HasDistinctNames) (hnesting : t.nesting ≤ maxNesting)
    (hordinary : t.AllNumbers (·.isOrdinary = true)) :
    Reformats (fun heap v ↦ String.ofList (write layout (heap.unfold v) [])) heap v t.reread := by
  refine ⟨?_, ?_⟩
  · dsimp only
    rw [hunfold]
    exact parse_write hnames hnesting
  · dsimp only
    rw [Heap.unfold_realize heap hnames.reread, hunfold, write, write, writeAt_reread t hordinary]

/-- Formatting a document gives a text that is formatted to itself, in either layout, if the numbers
of the document are zeros, normal doubles or infinities.  If they are numbers of at most six digits,
and the conversion gives the doubles nearest to them, then nothing is lost. -/
theorem exists_reformats {text : String} {t : Tree} (hparse : parse text = .ok t)
    (hordinary : ∀ k ∈ numberTokens text.toList,
      ∃ x, Decimal.readDouble k = some x ∧ x.isOrdinary = true) (heap : Heap) :
    let (v, heap) := heap.realize t
    ∃ u, Reformats compact heap v u ∧ Reformats pretty heap v u ∧
      ((∀ k ∈ numberTokens text.toList,
          Decimal.ReadsNearest k ∧ Decimal.HasSixDigits (Decimal.exactValue k)) →
        (heap.realize u).2.deepEq? (heap.realize u).1 v = some true) := by
  obtain ⟨d, hd, hdocument⟩ := (parse_eq_ok_iff text t).1 hparse
  have hnames := hdocument.hasDistinctNames
  have hnesting : t.nesting ≤ maxNesting := Nat.le_trans hdocument.nesting_le hd
  have hunfold := heap.unfold_realize hnames
  have hfirst := heap.realized_realize t hnames
  have hsecond := (heap.realize t).2.realized_realize t.reread hnames.reread
  have hall := hdocument.allNumbers hordinary
  refine ⟨t.reread, reformats_reread .compact hunfold hnames hnesting hall,
    reformats_reread (.indented 2) hunfold hnames hnesting hall, fun hexact ↦ ?_⟩
  have hkept : t.AllNumbers Tree.IsKept := hdocument.allNumbers fun k hk ↦
    ⟨_, (hexact k hk).1, Double.readDouble_text_ofRatio _ (hexact k hk).2⟩
  have hsize := hsecond.size_le
  exact hsecond.leadsTo.deepEq?_eq (hfirst.leadsTo.mono hsecond.ext) (Tree.alike_reread t hkept)
    (by omega)

/-- The document of two numbers is formatted without a loss. -/
theorem exists_reformats_tenth_zero :
    let t := Tree.node .array
      [("0", .number (.ofRatio false 1 10)), ("1", .number (.finite true .zero))]
    let (v, heap) := Heap.empty.realize t
    parse "[0.10,-0]" = .ok t ∧
      ∃ u, Reformats compact heap v u ∧ Reformats pretty heap v u ∧
        (heap.realize u).2.deepEq? (heap.realize u).1 v = some true := by
  obtain ⟨u, hcompact, hpretty, hkept⟩ :=
    exists_reformats parse_tenth_zero isOrdinary_tenth_zero .empty
  exact ⟨parse_tenth_zero, u, hcompact, hpretty, hkept hasSixDigits_tenth_zero⟩

end Json

end ScriptHost
