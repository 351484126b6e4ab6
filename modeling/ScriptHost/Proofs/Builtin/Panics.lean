import ScriptHost.Proofs.Builtin.Guards
import ScriptHost.Proofs.Builtin.Pause
import ScriptHost.Proofs.Builtin.Registration

/-!
# Which calls panic

A call of a standard builtin by name gives a value or fails with a message, whatever the host is
like, as long as the callbacks of the program do not panic and a request has room in a buffer.
There is one exception: a pause that the system does not have.

The callbacks of the program act on the world and call no builtins themselves.  What a builtin does
when a callback calls it is thereby part of what is assumed of the callback: one that joins the
thread it runs in panics, since a thread cannot wait for itself.

## Main definitions

* `Callbacks.NeverPanic` : no callback of the program panics.

## Main results

* `Builtin.noPanic_serve`, `Builtin.noPanic_threadSpawn` : serving and spawning.
* `Builtins.tryCall_standard_panics_iff` : which calls panic.
-/

namespace ScriptHost

/-- No callback of the program panics. -/
def Callbacks.NeverPanic (cs : Callbacks) : Prop :=
  ∀ name cb, cs.get? name = some cb → ∀ args w, NoPanic (cb.run args) w fun _ _ ↦ True

theorem Callbacks.neverPanic_empty : Callbacks.empty.NeverPanic :=
  fun _ _ hget ↦ absurd hget (by simp [get?, empty])

/-- An action on the world within one on the host. -/
@[simp]
theorem Native.noPanic_liftM {α : Type} (a : Action α) {host : Host} {post : α → Host → Prop} :
    NoPanic (liftM a : Native α) host post ↔
      NoPanic a host.world fun x w ↦ post x { host with world := w } :=
  Native.noPanic_ofAction a

/-! ### Callbacks -/

namespace Callbacks

variable {cs : Callbacks} {name : String} {kind : Callback.Kind} {w : World}

/-- What is found is bound to the name. -/
theorem noPanic_find (cs : Callbacks) (name : String) (kind : Callback.Kind) (w : World) :
    NoPanic (cs.find name kind) w fun cb? _ ↦ ∀ cb, cb? = some cb → cs.get? name = some cb := by
  unfold find
  split
  · rename_i cb hcb
    split_ifs
    · rintro _ ⟨rfl⟩
      exact hcb
    · simp
  · simp

theorem NeverPanic.call (h : cs.NeverPanic) (args : List Value) :
    NoPanic (cs.call name kind args) w fun _ _ ↦ True := by
  unfold Callbacks.call
  rw [noPanic_bind]
  refine (cs.noPanic_find name kind w).mono fun cb? w hcb ↦ ?_
  cases cb? with
  | none => exact True.intro
  | some cb => exact h name cb (hcb cb rfl) args w

end Callbacks

/-! ### Serving -/

namespace Http

variable {callbacks : Callbacks}

theorem noPanic_handle (h : callbacks.NeverPanic) (routes : Routes) (raw : List UInt8) (w : World) :
    NoPanic (routes.handle callbacks raw) w fun _ _ ↦ True := by
  have hanswer (request : Request) (v : Value) (w : World) :
      NoPanic (Routes.answer callbacks request v) w fun _ _ ↦ True := by
    simp only [Routes.answer, noPanic_bind, noPanic_get]
    split
    · exact True.intro
    · exact h.call _
  unfold Routes.handle
  split
  · simp only [Routes.respond, noPanic_bind, noPanic_get]
    split
    · exact True.intro
    · exact (hanswer _ _ w).bind fun v w ↦ True.intro
  · simp

/-- A connection is served without a panic if there is a buffer. -/
theorem noPanic_serveOne (h : callbacks.NeverPanic) (routes : Routes) {limit : Nat}
    (hlimit : limit ≤ maxBufferBytes) (connection : Connection) (w : World) :
    NoPanic (serveOne routes callbacks limit connection) w fun _ _ ↦ True := by
  unfold serveOne
  rw [receive, if_pos hlimit]
  cases receiveFrom limit (.head 0) [] 0 connection with
  | error reads => simp [Except.mapError, send]
  | ok received => exact (noPanic_handle h routes _ w).bind fun r w ↦ by simp [send]

/-- The accept loop does not panic if its steps do not. -/
theorem noPanic_driveFrom {σ : Type} {limit : Option Nat} {warn : String → Action Unit}
    {handle : σ → Action Unit} (hwarn : ∀ m w, NoPanic (warn m) w fun _ _ ↦ True)
    (hhandle : ∀ c w, NoPanic (handle c) w fun _ _ ↦ True) (handled failures : Nat)
    (arrivals : List (Arrival σ)) (w : World) :
    NoPanic (driveFrom limit warn handle handled failures arrivals) w fun _ _ ↦ True := by
  induction arrivals generalizing handled failures w with
  | nil => exact True.intro
  | cons arrival arrivals ih =>
    rcases arrival with fault | connection
    · rw [driveFrom]
      split_ifs
      · exact True.intro
      · exact (hwarn _ w).bind fun _ w ↦ ih _ _ w
    · rw [driveFrom]
      refine (hhandle connection w).bind fun _ w ↦ ?_
      split_ifs
      · exact True.intro
      · exact ih _ _ w

theorem noPanic_serve {settings : Settings} (h : callbacks.NeverPanic)
    (hlimit : settings.maxRequestBytes ≤ maxBufferBytes) (table : Value) (w : World) :
    NoPanic (serve settings callbacks table) w fun _ _ ↦ True := by
  simp only [serve, noPanic_bind, Action.noPanic_inspect]
  split
  · exact True.intro
  simp only [noPanic_bind, noPanic_get]
  split
  · exact True.intro
  simp only [noPanic_bind, Action.noPanic_log, serveArrivals]
  refine (noPanic_driveFrom (fun m w ↦ by simp) (noPanic_serveOne h _ hlimit) _ _ _ _).mono
    fun ended w _ ↦ ?_
  split <;> exact True.intro

end Http

/-! ### The builtins that need the host -/

namespace Builtin

variable {host : Host} {args : List Value}

theorem noPanic_serve (h : host.callbacks.NeverPanic)
    (hlimit : host.settings.maxRequestBytes ≤ Http.maxBufferBytes) :
    NoPanic (serve args) host fun _ _ ↦ True := by
  unfold serve
  split
  · simp
  · rename_i port _
    have hlimit : (host.settings.withPort port).maxRequestBytes ≤ Http.maxBufferBytes := hlimit
    simp only [noPanic_bind, noPanic_get, Native.noPanic_liftM]
    refine (Http.noPanic_serve h hlimit _ _).mono fun served w _ ↦ ?_
    split <;> simp

theorem noPanic_runThread (cb : Callback) (v : Value) (w : World) :
    NoPanic (runThread cb v) w fun _ _ ↦ True := by
  unfold NoPanic runThread
  rcases cb.run [v] w with ⟨x, w⟩ | ⟨e, w⟩ <;> exact True.intro

/-- A thread is started, or not, under a valid name. -/
theorem noPanic_runNamed {name : String} (hname : Callbacks.isValidName name = true)
    (cb : Callback) (v : Value) (w : World) :
    NoPanic (runNamed ("snask-" ++ name) cb v) w fun _ _ ↦ True := by
  have hzero : '\x00' ∉ ("snask-" ++ name).toList := by
    rw [zero_mem_threadName]
    intro hmem
    rw [Callbacks.isValidName, Bool.and_eq_true] at hname
    have hall := List.all_eq_true.1 hname.2 _ hmem
    simp at hall
  rw [runNamed, if_neg hzero, noPanic_bind, noPanic_get]
  cases w.threadFault with
  | some message => exact True.intro
  | none => exact noPanic_runThread cb v w

theorem noPanic_threadSpawn (hnames : host.callbacks.HasValidNames) :
    NoPanic (threadSpawn args) host fun _ _ ↦ True := by
  unfold threadSpawn
  simp only [noPanic_bind, Native.noPanic_liftM, noPanic_expect, noPanic_argument, noPanic_toText,
    noPanic_get]
  refine fun hlength ↦ ⟨hlength, fun name _ ↦ ?_⟩
  refine (Callbacks.noPanic_find _ name .single _).mono fun cb? w hcb ↦ ?_
  cases cb? with
  | none => exact True.intro
  | some cb =>
    simp only [noPanic_bind, noPanic_modifyGet, Native.noPanic_liftM]
    refine (noPanic_runNamed (hnames name cb (hcb cb rfl)) cb _ _).mono fun outcome w _ ↦ ?_
    simp

theorem noPanic_threadJoin : NoPanic (threadJoin args) host fun _ _ ↦ True := by
  unfold threadJoin takeThread
  simp only [noPanic_bind, Native.noPanic_liftM, noPanic_expect, noPanic_argument, noPanic_toText,
    noPanic_modifyGet]
  refine fun hlength ↦ ⟨hlength, fun handle _ ↦ ?_⟩
  split <;> simp

theorem noPanic_threadDetach : NoPanic (threadDetach args) host fun _ _ ↦ True := by
  unfold threadDetach takeThread
  split <;> simp

/-- No standard builtin panics but the pause. -/
theorem noPanic_of_mem_standard (hcallbacks : host.callbacks.NeverPanic)
    (hnames : host.callbacks.HasValidNames)
    (hlimit : host.settings.maxRequestBytes ≤ Http.maxBufferBytes) {name : String} {f : Builtin}
    (hf : (name, f) ∈ standard) (hname : name ≠ "sleep") :
    NoPanic (f args) host fun _ _ ↦ True := by
  rcases List.mem_append.1 hf with hf | hf
  · obtain ⟨⟨_, g⟩, hg, heq⟩ := List.mem_map.1 hf
    obtain ⟨rfl, rfl⟩ := Prod.mk.inj heq
    exact (Native.noPanic_ofAction _).2 (noPanic_of_mem_standardActions _ hg hname args host.world)
  · simp only [standardNatives, List.mem_cons, Prod.mk.injEq, List.not_mem_nil, or_false] at hf
    rcases hf with ⟨-, rfl⟩ | ⟨-, rfl⟩ | ⟨-, rfl⟩ | ⟨-, rfl⟩
    · exact noPanic_serve hcallbacks hlimit
    · exact noPanic_threadSpawn hnames
    · exact noPanic_threadJoin
    · exact noPanic_threadDetach

/-- A pause of `2 ^ 64` seconds or more, which the system does not have. -/
def IsTooLong (name : String) (args : List Value) : Prop :=
  name = "sleep" ∧ ∃ x, args[0]? = some (.number (.finite false x)) ∧
    1000 * pauseBound * Magnitude.unitsPerOne ≤ x.units

end Builtin

namespace Builtins

open Builtin (IsTooLong)

variable {host : Host} {name : String} {args : List Value}

/-- What is called by a name. -/
theorem get?_standard (name : String) :
    standard.get? name = Builtin.standard.reverse.lookup name :=
  Registry.get?_registerAll_empty Builtin.standard name

theorem mem_of_get?_standard {f : Builtin} (h : standard.get? name = some f) :
    (name, f) ∈ Builtin.standard := by
  rw [get?_standard, List.lookup_eq_some_iff] at h
  obtain ⟨before, after, h, -⟩ := h
  rw [← List.mem_reverse, h]
  exact List.mem_append_right _ List.mem_cons_self

theorem get?_standard_sleep : standard.get? "sleep" = some (Builtin.ofAction Builtin.sleep) := by
  rw [get?_standard]
  rfl

/-- A call by name does not panic exactly if it is no pause that is too long. -/
theorem noPanic_tryCall_standard_iff (hcallbacks : host.callbacks.NeverPanic)
    (hnames : host.callbacks.HasValidNames)
    (hlimit : host.settings.maxRequestBytes ≤ Http.maxBufferBytes) :
    NoPanic (standard.tryCall name args) host (fun _ _ ↦ True) ↔ ¬IsTooLong name args := by
  by_cases hname : name = "sleep"
  · subst hname
    rw [tryCall, get?_standard_sleep]
    refine ((Native.noPanic_ofAction _).trans (Builtin.noPanic_sleep_iff args host.world)).trans ?_
    rw [IsTooLong]
    push Not
    exact ⟨fun h _ ↦ h, fun h ↦ h rfl⟩
  · refine iff_of_true ?_ fun h ↦ hname h.1
    unfold tryCall
    split
    · rename_i f hf
      exact Builtin.noPanic_of_mem_standard hcallbacks hnames hlimit (mem_of_get?_standard hf) hname
    · exact True.intro

/-- What is called yields a value unless it panics. -/
theorem exists_call_eq_ok_iff {builtins : Builtins} :
    (∃ v host', builtins.call name args host = .ok v host') ↔
      NoPanic (builtins.tryCall name args) host fun _ _ ↦ True := by
  unfold call NoPanic
  rcases builtins.tryCall name args host with ⟨x, host'⟩ | ⟨⟨m⟩ | _, host'⟩
  · exact iff_of_true ⟨x, host', rfl⟩ True.intro
  · exact iff_of_true ⟨_, _, rfl⟩ True.intro
  · simp

/-- A call by name panics exactly if it is a pause that is too long, and any other yields a value.
This is so of hosts whose callbacks do not panic, neither by themselves nor in a builtin that they
call (such as a join of their own thread), and whose bound on a request is one that a buffer can
have: a larger one panics when a connection is served, before anything is read. -/
theorem tryCall_standard_panics_iff (hcallbacks : host.callbacks.NeverPanic)
    (hreached : host.callbacks.Reached)
    (hlimit : host.settings.maxRequestBytes ≤ Http.maxBufferBytes) (name : String)
    (args : List Value) :
    ((∃ host', standard.tryCall name args host = .error .panicked host') ↔ IsTooLong name args) ∧
      ((∃ v host', standard.call name args host = .ok v host') ↔ ¬IsTooLong name args) := by
  have hiff : NoPanic (standard.tryCall name args) host (fun _ _ ↦ True) ↔ ¬IsTooLong name args :=
    noPanic_tryCall_standard_iff hcallbacks hreached.isValidName hlimit
  refine ⟨?_, exists_call_eq_ok_iff.trans hiff⟩
  rw [noPanic_true_iff] at hiff
  exact not_iff_not.1 hiff

/-- The number of milliseconds in the two calls below is a pause that is too long. -/
theorem isTooLong_sleep : IsTooLong "sleep" [.number (.ofNat (10 ^ 30))] := by
  refine ⟨rfl, ⟨7105427357601002, 1121, by decide, by decide, .inr (by decide)⟩, ?_, ?_⟩ <;>
    decide +kernel

/-- Two calls on a host without callbacks. -/
theorem tryCall_standard_panics_iff_initial :
    (Host.inWorld .initial).callbacks.NeverPanic ∧ (Host.inWorld .initial).callbacks.Reached ∧
      (Host.inWorld .initial).settings.maxRequestBytes ≤ Http.maxBufferBytes ∧
      (∃ v host', standard.call "thread_spawn" [.number .nan] (Host.inWorld .initial) =
        .ok v host') ∧
      ∃ host', standard.tryCall "sleep" [.number (.ofNat (10 ^ 30))] (Host.inWorld .initial) =
        .error .panicked host' := by
  have hcallbacks : (Host.inWorld .initial).callbacks.NeverPanic := Callbacks.neverPanic_empty
  have hlimit : (Host.inWorld .initial).settings.maxRequestBytes ≤ Http.maxBufferBytes := by decide
  refine ⟨hcallbacks, .empty, hlimit, ?_, ?_⟩
  · exact (tryCall_standard_panics_iff hcallbacks .empty hlimit _ _).2.2 fun h ↦
      absurd h.1 (by decide)
  · exact (tryCall_standard_panics_iff hcallbacks .empty hlimit _ _).1.2 isTooLong_sleep

/-- A pause of `10 ^ 30` milliseconds panics. -/
theorem exists_tryCall_sleep_panics :
    ∃ host', standard.tryCall "sleep" [.number (.ofNat (10 ^ 30))] (Host.inWorld .initial) =
      .error .panicked host' := by
  have hcallbacks : (Host.inWorld .initial).callbacks.NeverPanic := Callbacks.neverPanic_empty
  have hsleep := noPanic_tryCall_standard_iff hcallbacks Callbacks.Reached.empty.isValidName
    (by decide : _ ≤ Http.maxBufferBytes) |>.not.2 (not_not.2 isTooLong_sleep)
  rwa [noPanic_true_iff, not_not] at hsleep

end Builtins

end ScriptHost
