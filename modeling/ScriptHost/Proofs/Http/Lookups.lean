import Mathlib.Data.Set.List
import Mathlib.Tactic.Common
import ScriptHost.Http.Lookup
import ScriptHost.Proofs.Builtin.Panics
import ScriptHost.Proofs.Callback.Calls
import ScriptHost.Proofs.Text.Lines

/-!
# Queries and cookies as lists

A query string is a list of segments with ampersands between them, each a name with a value or a
bare name, and a cookie header is a list of cookies with semicolons between them, with white space
around them and other segments among them.  Every text is such a list, and looking a name up in the
text is looking it up in the list: the first one with that name answers.

## Main definitions

* `Http.QuerySegment`, `Http.CookieSegment` : what stands between two separators.
* `Http.QuerySegment.join`, `Http.CookieSegment.join` : how lists of segments are written.
* `Http.QuerySegment.pair`, `Http.CookieSegment.pair?` : the name and the value of a segment.
* `Builtin.LooksUp` : what a builtin answers to a text and a name.

## Main results

* `Http.queryGet?_join`, `Http.cookieGet?_join` : what is found in what was written.
* `Http.QuerySegment.exists_join_eq`, `Http.CookieSegment.exists_join_eq` : every text was written
  so.
* `Http.lookups_of_join` : what the builtins answer.
-/

namespace ScriptHost

namespace Http

/-! ### Segments -/

/-- A segment of a query string: a name with a value, or a bare name. -/
structure QuerySegment where
  name : List Char
  value? : Option (List Char)
  ampersand_notMem_name : '&' ∉ name
  equals_notMem_name : '=' ∉ name
  ampersand_notMem_value : ∀ v ∈ value?, '&' ∉ v

namespace QuerySegment

/-- How a segment is written. -/
def text (s : QuerySegment) : List Char :=
  match s.value? with
  | some v => s.name ++ '=' :: v
  | none => s.name

/-- The name and the value; a bare name has the empty value. -/
def pair (s : QuerySegment) : List Char × List Char := (s.name, s.value?.getD [])

/-- How segments are written. -/
def join (segments : List QuerySegment) : List Char := ['&'].intercalate (segments.map text)

end QuerySegment

/-- A cookie.  Its name does not begin with white space and its value does not end in it. -/
structure Cookie where
  name : List Char
  value : List Char
  semicolon_notMem_name : ';' ∉ name
  equals_notMem_name : '=' ∉ name
  head_name : ∀ c ∈ name.head?, Text.isBlank c = false
  semicolon_notMem_value : ';' ∉ value
  last_value : ∀ c ∈ value.getLast?, Text.isBlank c = false

/-- How a cookie is written. -/
def Cookie.text (c : Cookie) : List Char := c.name ++ '=' :: c.value

/-- A text of white space. -/
abbrev Blanks : Type := { s : List Char // ∀ c ∈ s, Text.isBlank c = true }

/-- A segment of a cookie header: a cookie within white space, or a text that is no cookie. -/
inductive CookieSegment where
  | cookie (before : Blanks) (c : Cookie) (after : Blanks)
  | other (text : List Char) (semicolon_notMem : ';' ∉ text) (equals_notMem : '=' ∉ text)

namespace CookieSegment

/-- How a segment is written. -/
def text : CookieSegment → List Char
  | cookie before c after => before.1 ++ c.text ++ after.1
  | other text _ _ => text

/-- The name and the value of a cookie. -/
def pair? : CookieSegment → Option (List Char × List Char)
  | cookie _ c _ => some (c.name, c.value)
  | other _ _ _ => none

/-- How segments are written. -/
def join (segments : List CookieSegment) : List Char := [';'].intercalate (segments.map text)

end CookieSegment

/-! ### Segments with separators between them -/

section Separators

variable {σ : Type} {text : σ → List Char} {c : Char}

/-- Segments without the separator are what stands between the separators. -/
theorem splitOn_intercalate_map (h : ∀ s, c ∉ text s) {segments : List σ} (hne : segments ≠ []) :
    ([c].intercalate (segments.map text)).splitOn c = segments.map text :=
  List.splitOn_intercalate c (List.forall_mem_map.2 fun s _ ↦ h s) (mt List.map_eq_nil_iff.1 hne)

/-- If every text without the separator is a segment, every text is made of segments. -/
theorem exists_intercalate_map_eq (h : ∀ piece, c ∉ piece → ∃ s, text s = piece)
    (whole : List Char) :
    ∃ segments : List σ, segments ≠ [] ∧ [c].intercalate (segments.map text) = whole := by
  have hpieces : whole.splitOn c ∈ Set.range (List.map text) := by
    rw [Set.range_list_map]
    exact fun piece hpiece ↦ h piece (Text.notMem_of_mem_splitOn hpiece)
  obtain ⟨segments, hsegments⟩ := hpieces
  refine ⟨segments, ?_, ?_⟩
  · rintro rfl
    exact List.splitOn_ne_nil _ _ hsegments.symm
  · rw [hsegments, List.intercalate_splitOn]

end Separators

/-- Reading one segment after another until one has the name is a search in the list of pairs. -/
theorem findSome?_eq_lookup {σ : Type} {read : σ → Option (List Char)}
    {pair? : σ → Option (List Char × List Char)} {key : List Char}
    (h : ∀ s, read s = (pair? s).bind fun e ↦ if e.1 = key then some e.2 else none)
    (segments : List σ) : segments.findSome? read = (segments.filterMap pair?).lookup key := by
  induction segments with
  | nil => rfl
  | cons s segments ih =>
    rw [List.findSome?_cons, h, ih, List.filterMap_cons]
    cases pair? s with
    | none => rfl
    | some e =>
      rw [Option.bind_some, List.lookup_cons]
      by_cases he : e.1 = key
      · simp [he]
      · simp [he, beq_eq_false_iff_ne.2 (Ne.symm he)]

/-! ### Query strings -/

namespace QuerySegment

theorem ampersand_notMem_text (s : QuerySegment) : '&' ∉ s.text := by
  obtain ⟨name, value?, hname, -, hvalue⟩ := s
  cases value? with
  | none => exact hname
  | some v => simpa [text, hname] using hvalue v rfl

/-- A segment is cut at its equals sign if it has a value, and not at all otherwise. -/
theorem splitOnce_text (s : QuerySegment) :
    Text.splitOnce '=' s.text = s.value?.map fun v ↦ (s.name, v) := by
  obtain ⟨name, value?, -, hname, -⟩ := s
  cases value? with
  | none => exact Text.splitOnce_eq_none_iff.2 hname
  | some v => exact Text.splitOnce_eq_some_iff.2 ⟨rfl, hname⟩

theorem exists_text_eq {piece : List Char} (h : '&' ∉ piece) :
    ∃ s : QuerySegment, s.text = piece := by
  by_cases hequals : '=' ∈ piece
  · obtain ⟨name, value, rfl, hname⟩ := List.eq_append_cons_of_mem hequals
    simp only [List.mem_append, List.mem_cons, not_or] at h
    exact ⟨⟨name, some value, h.1, hname, by simpa using h.2.2⟩, rfl⟩
  · exact ⟨⟨piece, none, h, hequals, by simp⟩, rfl⟩

/-- Every text is a list of segments. -/
theorem exists_join_eq (query : List Char) :
    ∃ segments : List QuerySegment, segments ≠ [] ∧ join segments = query :=
  exists_intercalate_map_eq (fun _ ↦ exists_text_eq) query

end QuerySegment

/-- What is found in a query string is what its first segment with the name has. -/
theorem queryGet?_join {segments : List QuerySegment} (hne : segments ≠ []) (key : List Char) :
    queryGet? (QuerySegment.join segments) key =
      (segments.map QuerySegment.pair).lookup key := by
  rw [queryGet?, QuerySegment.join,
    splitOn_intercalate_map QuerySegment.ampersand_notMem_text hne, List.findSome?_map,
    ← List.filterMap_eq_map]
  refine findSome?_eq_lookup (fun s ↦ ?_) segments
  rw [Function.comp_apply, s.splitOnce_text]
  cases hvalue : s.value? with
  | none =>
    have htext : s.text = s.name := by rw [QuerySegment.text, hvalue]
    simp [QuerySegment.pair, htext, hvalue]
  | some v => simp [QuerySegment.pair, hvalue]

/-! ### Cookies -/

namespace Cookie

variable (c : Cookie)

theorem semicolon_notMem_text : ';' ∉ c.text := by
  simp [text, c.semicolon_notMem_name, c.semicolon_notMem_value]

theorem isTrimmed_text : Text.IsTrimmed c.text :=
  (Text.isTrimmed_append_cons_iff (by decide)).2 ⟨c.head_name, c.last_value⟩

theorem splitOnce_text : Text.splitOnce '=' c.text = some (c.name, c.value) :=
  Text.splitOnce_eq_some_iff.2 ⟨rfl, c.equals_notMem_name⟩

/-- A trimmed text with an equals sign is a cookie. -/
theorem exists_text_eq {s : List Char} (htrimmed : Text.IsTrimmed s) (hsemicolon : ';' ∉ s)
    (hequals : '=' ∈ s) : ∃ c : Cookie, c.text = s := by
  obtain ⟨name, value, rfl, hname⟩ := List.eq_append_cons_of_mem hequals
  obtain ⟨hhead, hlast⟩ := (Text.isTrimmed_append_cons_iff (by decide)).1 htrimmed
  simp only [List.mem_append, List.mem_cons, not_or] at hsemicolon
  exact ⟨⟨name, value, hsemicolon.1, hname, hhead, hsemicolon.2.2, hlast⟩, rfl⟩

end Cookie

/-- White space has no separators. -/
theorem Blanks.notMem (blanks : Blanks) {c : Char} (hc : Text.isBlank c = false) :
    c ∉ blanks.1 := by
  intro hmem
  rw [blanks.2 c hmem] at hc
  cases hc

namespace CookieSegment

theorem semicolon_notMem_text (s : CookieSegment) : ';' ∉ s.text := by
  cases s with
  | cookie before c after =>
    have hblank : Text.isBlank ';' = false := by decide
    simp [text, c.semicolon_notMem_text, before.notMem hblank, after.notMem hblank]
  | other _ hsemicolon _ => exact hsemicolon

/-- A segment is read as its pair. -/
theorem splitOnce_trim_text (s : CookieSegment) :
    Text.splitOnce '=' (Text.trim s.text) = s.pair? := by
  cases s with
  | cookie before c after =>
    rw [text, Text.trim_append_append before.2 after.2, c.isTrimmed_text.trim_eq, c.splitOnce_text]
    rfl
  | other text _ hequals => exact Text.splitOnce_eq_none_iff.2 (mt Text.mem_of_mem_trim hequals)

theorem exists_text_eq {piece : List Char} (h : ';' ∉ piece) :
    ∃ s : CookieSegment, s.text = piece := by
  by_cases hequals : '=' ∈ piece
  · obtain ⟨before, after, hpiece, hbefore, hafter⟩ := Text.exists_append_trim_append piece
    -- the equals sign is no white space, so it is in what trimming leaves
    have hmem : '=' ∈ Text.trim piece := by
      rw [hpiece, List.mem_append, List.mem_append] at hequals
      have hblank : Text.isBlank '=' = false := by decide
      exact (hequals.resolve_right (Blanks.notMem ⟨after, hafter⟩ hblank)).resolve_left
        (Blanks.notMem ⟨before, hbefore⟩ hblank)
    obtain ⟨c, hc⟩ := Cookie.exists_text_eq (Text.isTrimmed_trim piece)
      (mt Text.mem_of_mem_trim h) hmem
    refine ⟨.cookie ⟨before, hbefore⟩ c ⟨after, hafter⟩, ?_⟩
    rw [text, hc, ← hpiece]
  · exact ⟨.other piece h hequals, rfl⟩

/-- Every text is a list of segments. -/
theorem exists_join_eq (header : List Char) :
    ∃ segments : List CookieSegment, segments ≠ [] ∧ join segments = header :=
  exists_intercalate_map_eq (fun _ ↦ exists_text_eq) header

end CookieSegment

/-- What is found in a cookie header is what its first cookie with the name has. -/
theorem cookieGet?_join (segments : List CookieSegment) (key : List Char) :
    cookieGet? (CookieSegment.join segments) key =
      (segments.filterMap CookieSegment.pair?).lookup key := by
  -- no segments are written like one empty segment, which is no cookie
  by_cases hne : segments = []
  · subst hne
    rfl
  rw [cookieGet?, CookieSegment.join,
    splitOn_intercalate_map CookieSegment.semicolon_notMem_text hne, List.findSome?_map]
  refine findSome?_eq_lookup (fun s ↦ ?_) segments
  rw [Function.comp_apply, s.splitOnce_trim_text]
  cases s.pair? <;> rfl

end Http

/-! ### The builtins -/

namespace Builtin

theorem lookupIn_string (name : String) (find : List Char → List Char → Option (List Char))
    (s t : String) (more : List Value) (w : World) :
    lookupIn name find (.string s :: .string t :: more) w =
      .ok (orNil (find s.toList t.toList)) w := by
  have hexpect : expect name (.string s :: .string t :: more) 2 = pure () := if_neg (by simp)
  rw [lookupIn, hexpect]
  rfl

theorem get?_standard_queryGet :
    Builtins.standard.get? "blaze_qs_get" = some (ofAction queryGet) := by
  rw [Builtins.get?_standard]
  rfl

theorem get?_standard_cookieGet :
    Builtins.standard.get? "blaze_cookie_get" = some (ofAction cookieGet) := by
  rw [Builtins.get?_standard]
  rfl

/-- A standard builtin, given a text and a name, answers with a string, or with nil for none, and
leaves the host as it is. -/
def LooksUp (builtin : String) (text key : List Char) (answer : Option (List Char)) : Prop :=
  ∀ more host,
    Builtins.standard.tryCall builtin
      (.string (String.ofList text) :: .string (String.ofList key) :: more) host =
        .ok (orNil answer) host

theorem looksUp_of_get? {builtin name : String} {find : List Char → List Char → Option (List Char)}
    (h : Builtins.standard.get? builtin = some (ofAction (lookupIn name find)))
    (text key : List Char) : LooksUp builtin text key (find text key) := by
  intro more host
  have hlookup := lookupIn_string name find (String.ofList text) (String.ofList key) more host.world
  rw [String.toList_ofList, String.toList_ofList] at hlookup
  rw [Builtins.tryCall, h]
  exact Native.liftM_of_ok hlookup

end Builtin

namespace Http

open Builtin (LooksUp)

/-- A name is looked up in a query string, and in a cookie header, by searching the list of segments
that was written for the first one with the name; every text was written so. -/
theorem lookups_of_join {segments : List QuerySegment} (hne : segments ≠ [])
    (cookies : List CookieSegment) (key : List Char) :
    (queryGet? (QuerySegment.join segments) key = (segments.map QuerySegment.pair).lookup key ∧
      LooksUp "blaze_qs_get" (QuerySegment.join segments) key
        ((segments.map QuerySegment.pair).lookup key)) ∧
    (cookieGet? (CookieSegment.join cookies) key =
        (cookies.filterMap CookieSegment.pair?).lookup key ∧
      LooksUp "blaze_cookie_get" (CookieSegment.join cookies) key
        ((cookies.filterMap CookieSegment.pair?).lookup key)) ∧
    (∀ query, ∃ segments, segments ≠ [] ∧ QuerySegment.join segments = query) ∧
    ∀ header, ∃ segments, segments ≠ [] ∧ CookieSegment.join segments = header := by
  have hquery := queryGet?_join hne key
  have hcookie := cookieGet?_join cookies key
  refine ⟨⟨hquery, ?_⟩, ⟨hcookie, ?_⟩, QuerySegment.exists_join_eq, CookieSegment.exists_join_eq⟩
  · rw [← hquery]
    exact Builtin.looksUp_of_get? Builtin.get?_standard_queryGet _ key
  · rw [← hcookie]
    exact Builtin.looksUp_of_get? Builtin.get?_standard_cookieGet _ key

/-- A bare name stands before a value of that name, and a cookie before another one. -/
theorem lookups_of_join_flag :
    ∃ (segments : List QuerySegment) (cookies : List CookieSegment),
      segments ≠ [] ∧ QuerySegment.join segments = "a=x=y&flag&flag=1".toList ∧
      CookieSegment.join cookies = " flag ; flag=b=c\t;flag=2".toList ∧
      queryGet? (QuerySegment.join segments) "flag".toList = some [] ∧
      cookieGet? (CookieSegment.join cookies) "flag".toList = some "b=c".toList := by
  let segments : List QuerySegment :=
    [⟨['a'], some "x=y".toList, by decide, by decide, by simp⟩,
      ⟨"flag".toList, none, by decide, by decide, by simp⟩,
      ⟨"flag".toList, some ['1'], by decide, by decide, by simp⟩]
  let cookies : List CookieSegment :=
    [.other " flag ".toList (by decide) (by decide),
      .cookie ⟨[' '], List.forall_mem_singleton.2 rfl⟩
        ⟨"flag".toList, "b=c".toList, by decide, by decide, by simp [Text.isBlank], by decide,
          by simp [Text.isBlank]⟩
        ⟨['\t'], List.forall_mem_singleton.2 rfl⟩,
      .cookie ⟨[], List.forall_mem_nil _⟩
        ⟨"flag".toList, ['2'], by decide, by decide, by simp [Text.isBlank], by decide,
          by simp [Text.isBlank]⟩
        ⟨[], List.forall_mem_nil _⟩]
  have hne : segments ≠ [] := List.cons_ne_nil _ _
  obtain ⟨⟨hquery, -⟩, ⟨hcookie, -⟩, -⟩ := lookups_of_join hne cookies "flag".toList
  exact ⟨segments, cookies, hne, rfl, rfl, hquery, hcookie⟩

end Http

end ScriptHost
