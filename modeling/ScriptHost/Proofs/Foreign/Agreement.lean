import ScriptHost.Foreign.Entry
import ScriptHost.Proofs.Foreign.Passing
import ScriptHost.Proofs.Foreign.Sparing

/-!
# Foreign code and the host agree

A builtin that foreign code calls, with headers of values as its arguments, writes a header of what
the host gets when it calls the builtin with the values.  A string passes up to its first zero
character, on the way in and on the way out, since a header holds no length.

## Main definitions

* `Foreign.passOver` : a value passed to foreign code and taken back.
* `Foreign.callThrough` : a builtin called by foreign code.
* `Foreign.IsPassedOn` : what foreign code gets of an answer of the host.

## Main results

* `Foreign.callThrough_of_ok`, `Foreign.callThrough_of_error` : what foreign code gets.
* `Foreign.headers_agree` : values and calls.
-/

namespace ScriptHost.Foreign

open Builtin (RunsCallbacks)

/-- The value read from the header that is made of a value. -/
def passOver (v : Value) : Action Value := do Header.read (some (← Header.ofValue v))

/-- The bytes of a name with a zero byte after them. -/
def nameBytes (name : String) : List UInt8 := Text.Utf8.encode name.toList ++ [0]

/-- A builtin called by foreign code: headers are made of the arguments, and the value is read from
the header that is written. -/
def callThrough (builtins : Builtins) (name : String) (args : List Value) : Native Value := do
  let headers ← (args.mapM Header.ofValue : Action (List Header))
  let written ← callBuiltin builtins true (some (nameBytes name)) headers
  Header.read written

/-- Foreign code gets the answer of the host, a string up to its first zero character, or the same
abort, and nothing but the tracked memory is otherwise. -/
structure IsPassedOn (native foreign : EStateM.Result Abort Host Value) : Prop where
  ok {v : Value} {host : Host} (h : native = .ok v host) (hv : v.FitsMemory host.world.allocator) :
    ∃ memory, foreign = .ok v.cut (host.setMemory memory)
  error {e : Abort} {host : Host} (h : native = .error e host) :
    ∃ memory, foreign = .error e (host.setMemory memory)

/-- A name passes if no zero character is in it. -/
theorem nameText_nameBytes {name : String} (h : '\x00' ∉ name.toList) :
    nameText (nameBytes name) = name := by
  have hbefore : Text.beforeZero name.toList = name.toList :=
    List.takeWhile_eq_self_iff.2 fun c hc ↦ bne_iff_ne.2 fun heq ↦ h (heq ▸ hc)
  rw [nameText, nameBytes, Text.Utf8.takeWhile_encode, hbefore, Text.Utf8.decode_encode,
    String.ofList_toList]

/-- A value comes back, a string up to its first zero character. -/
theorem exists_passOver {v : Value} {w : World} (hv : v.FitsMemory w.allocator) :
    ∃ memory, passOver v w = .ok v.cut (w.setMemory memory) := by
  obtain ⟨r, memory, hr, -, hread⟩ := Header.exists_ofValue hv
  refine ⟨memory, (Action.bind_of_ok hr).trans ?_⟩
  rw [← hread _ (.refl _)]
  rfl

section Calls

variable {builtins : Builtins} {name : String} {args : List Value} {v : Value} {host host' : Host}

/-- The arguments arrive, strings up to their first zero characters. -/
theorem exists_mapM_ofValue_readAll (hargs : ∀ v ∈ args, v.FitsMemory host.world.allocator) :
    ∃ headers memory,
      (liftM (args.mapM Header.ofValue) : Native (List Header)) host =
        .ok headers (host.setMemory memory) ∧
      (liftM (Header.readAll (headers.map some)) : Native (List Value)) (host.setMemory memory) =
        .ok (args.map Value.cut) (host.setMemory memory) := by
  obtain ⟨headers, memory, hmake, -, hread⟩ := Header.exists_mapM_ofValue hargs
  have hreadAll := Header.readAll_map_some headers (host.world.setMemory memory)
  rw [World.setMemory_memory, hread _ (.refl _)] at hreadAll
  exact ⟨headers, memory, Native.liftM_of_ok hmake, Native.liftM_of_ok hreadAll⟩

/-- What comes of a call by the host comes of the call by foreign code, a string up to its first
zero character. -/
theorem callThrough_of_ok (hname : '\x00' ∉ name.toList)
    (hargs : ∀ v ∈ args, v.FitsMemory host.world.allocator)
    (hignores : ∀ memory args, Ignores (Host.setMemory memory) (builtins.call name args))
    (hv : v.FitsMemory host'.world.allocator)
    (hcall : builtins.call name (args.map Value.cut) host = .ok v host') :
    ∃ memory, callThrough builtins name args host = .ok v.cut (host'.setMemory memory) := by
  obtain ⟨headers, memory, hmake, hreadAll⟩ := exists_mapM_ofValue_readAll hargs
  have hcall' : builtins.call name (args.map Value.cut) (host.setMemory memory) =
      .ok v (host'.setMemory memory) := by
    rw [hignores, hcall]
    rfl
  obtain ⟨r, memory', hr, -, hread⟩ := Header.exists_ofValue (w := host'.world.setMemory memory) hv
  have hwrite : (liftM (writeOut true v) : Native HeaderPointer) (host'.setMemory memory) =
      .ok (some r) (host'.setMemory memory') :=
    Native.liftM_of_ok ((Action.bind_of_ok hr).trans rfl)
  have hforward : callBuiltin builtins true (some (nameBytes name)) headers
      (host.setMemory memory) = .ok (some r) (host'.setMemory memory') := by
    rw [callBuiltin, forward, nameText_nameBytes hname]
    exact (Native.bind_of_ok hreadAll).trans ((Native.bind_of_ok hcall').trans hwrite)
  refine ⟨memory', (Native.bind_of_ok hmake).trans ((Native.bind_of_ok hforward).trans ?_)⟩
  rw [← hread _ (.refl _)]
  rfl

/-- A call by the host that panics panics for foreign code. -/
theorem callThrough_of_error {e : Abort} (hname : '\x00' ∉ name.toList)
    (hargs : ∀ v ∈ args, v.FitsMemory host.world.allocator)
    (hignores : ∀ memory args, Ignores (Host.setMemory memory) (builtins.call name args))
    (hcall : builtins.call name (args.map Value.cut) host = .error e host') :
    ∃ memory, callThrough builtins name args host = .error e (host'.setMemory memory) := by
  obtain ⟨headers, memory, hmake, hreadAll⟩ := exists_mapM_ofValue_readAll hargs
  have hcall' : builtins.call name (args.map Value.cut) (host.setMemory memory) =
      .error e (host'.setMemory memory) := by
    rw [hignores, hcall]
    rfl
  have hforward : callBuiltin builtins true (some (nameBytes name)) headers
      (host.setMemory memory) = .error e (host'.setMemory memory) := by
    rw [callBuiltin, forward, nameText_nameBytes hname]
    exact (Native.bind_of_ok hreadAll).trans (Native.bind_of_error hcall')
  exact ⟨memory, (Native.bind_of_ok hmake).trans (Native.bind_of_error hforward)⟩

/-- Foreign code gets what the host gets. -/
theorem callThrough_agrees (hname : '\x00' ∉ name.toList)
    (hargs : ∀ v ∈ args, v.FitsMemory host.world.allocator)
    (hignores : ∀ memory args, Ignores (Host.setMemory memory) (builtins.call name args)) :
    IsPassedOn (builtins.call name (args.map Value.cut) host)
      (callThrough builtins name args host) where
  ok h hv := callThrough_of_ok hname hargs hignores hv h
  error h := callThrough_of_error hname hargs hignores h

end Calls

/-- Foreign code and the host agree.  A value comes back from foreign code, a string up to its first
zero character, so that a value without zero characters comes back as it was.  A builtin that runs
no callbacks gives foreign code what it gives the host for the arguments so cut, cut again on its
way out, and does the same to all but the tracked memory. -/
theorem headers_agree :
    (∀ (v : Value) (w : World), v.FitsMemory w.allocator →
      ∃ memory, passOver v w = .ok v.cut (w.setMemory memory)) ∧
    (∀ v : Value, v.HasNoZero → v.cut = v ∧ (v ≠ .number .nan → v.cut.strictEq v = true)) ∧
    ∀ (name : String) (args : List Value) (host : Host), '\x00' ∉ name.toList →
      ¬RunsCallbacks name → (∀ v ∈ args, v.FitsMemory host.world.allocator) →
      IsPassedOn (Builtins.standard.call name (args.map Value.cut) host)
        (callThrough Builtins.standard name args host) := by
  refine ⟨fun v w hv ↦ exists_passOver hv, fun v hv ↦ ⟨hv.cut_eq, fun hne ↦ ?_⟩,
    fun name args host hname hself hargs ↦ callThrough_agrees hname hargs
      fun _ args ↦ Builtins.ignores_call_standard hself args⟩
  rw [hv.cut_eq]
  exact Value.strictEq_self hne

theorem get?_standard_concat :
    Builtins.standard.get? "concat" = some (Builtin.ofAction Builtin.concat) := by
  rw [Builtins.get?_standard]
  rfl

/-- A string from beyond ASCII comes back, and two strings are joined, the first of them cut. -/
theorem headers_agree_initial :
    (∃ memory, passOver (.string "h\u00e9") .initial =
      .ok (.string "h\u00e9") (World.initial.setMemory memory)) ∧
    ∃ memory, callThrough Builtins.standard "concat" [.string "a\x00b", .string "c"]
      (.inWorld .initial) = .ok (.string "ac") ((Host.inWorld .initial).setMemory memory) := by
  obtain ⟨hpass, hwhole, hcall⟩ := headers_agree
  constructor
  · have hzero : (Value.string "h\u00e9").HasNoZero := by
      intro s hs
      obtain rfl := Value.string.inj hs
      decide
    obtain ⟨memory, h⟩ := hpass (.string "h\u00e9") .initial (by decide)
    rw [(hwhole _ hzero).1] at h
    exact ⟨memory, h⟩
  · have hconcat : Builtins.standard.call "concat" ([.string "a\x00b", .string "c"].map Value.cut)
        (.inWorld .initial) = .ok (.string "ac") (.inWorld .initial) := by
      rw [Builtins.call, Builtins.tryCall, get?_standard_concat]
      rfl
    exact (hcall "concat" [.string "a\x00b", .string "c"] (.inWorld .initial) (by decide)
      (by decide) (by decide)).ok hconcat (by decide)

theorem get?_standard_len :
    Builtins.standard.get? "len" = some (Builtin.ofAction Builtin.len) := by
  rw [Builtins.get?_standard]
  rfl

/-- What stands after a zero character is lost, in a value that is passed and in what is computed
from it. -/
theorem exists_passOver_strictEq_eq_false :
    (Value.string "a\x00b").FitsMemory World.initial.allocator ∧
    (∃ memory, passOver (.string "a\x00b") .initial =
        .ok (.string "a") (World.initial.setMemory memory) ∧
      (Value.string "a").strictEq (.string "a\x00b") = false) ∧
    Builtins.standard.call "len" [.string "a\x00b"] (.inWorld .initial) =
      .ok (.number (.ofNat 3)) (.inWorld .initial) ∧
    ∃ memory, callThrough Builtins.standard "len" [.string "a\x00b"] (.inWorld .initial) =
        .ok (.number (.ofNat 1)) ((Host.inWorld .initial).setMemory memory) := by
  have hfits : (Value.string "a\x00b").FitsMemory World.initial.allocator := by decide
  have hlen (s : String) (host : Host) : Builtins.standard.call "len" [.string s] host =
      .ok (.number (.ofNat s.utf8ByteSize)) host := by
    rw [Builtins.call, Builtins.tryCall, get?_standard_len]
    rfl
  refine ⟨hfits, ?_, hlen _ _, ?_⟩
  · obtain ⟨memory, hpass⟩ := exists_passOver hfits
    exact ⟨memory, hpass, by decide⟩
  · have hagrees : IsPassedOn
        (Builtins.standard.call "len" ([.string "a\x00b"].map Value.cut) (.inWorld .initial))
        (callThrough Builtins.standard "len" [.string "a\x00b"] (.inWorld .initial)) :=
      callThrough_agrees (by decide) (by decide)
        fun _ args ↦ Builtins.ignores_call_standard (by decide) args
    exact hagrees.ok (hlen "a" _) trivial

end ScriptHost.Foreign
