import ScriptHost.Proofs.Callback.Operations
import ScriptHost.Proofs.Thread.Steps

/-!
# The builtins for threads as steps

A host runs each thread to its end when it is started.  So what its builtins for threads do is what
one caller does in steps with which nobody interferes: each of them is a list of acts of this
caller, and its answer is the one that the last of these acts tells.

## Main definitions

* `Threads.Shared.Shows` : a host has the table of a state, with what the threads have come to.
* `Threads.Shared.HasBuiltins` : what the builtins answer on a host, and which acts they are.
* `Builtin.ReachedByThreads` : the hosts that the builtins for threads lead to.

## Main results

* `Threads.Shared.Shows.hasBuiltins` : the builtins are these acts of a caller.
* `Threads.Shared.exists_run_of_reachedByThreads` : all that are called on a host are acts of one.
-/

namespace ScriptHost

namespace Builtin

variable {host : Host} {name handle : String} {rest : List Value} {cb : Callback}

/-- An operation that begins with its first argument, a text. -/
theorem bind_text {α : Type} (operation text : String) (rest : List Value)
    (k : String → Native α) (host : Host) :
    (do
      expect operation (.string text :: rest) 1
      let text ← toText (← argument (.string text :: rest) 0)
      k text : Native α) host = k text host := by
  have hlength : ¬(Value.string text :: rest).length < 1 := by simp
  have hexpect : expect operation (.string text :: rest) 1 host.world = .ok () host.world := by
    rw [expect, if_neg hlength]
    rfl
  exact Native.bind_of_ok (Native.liftM_of_ok hexpect)

/-- The host after the thread of a handle was taken out of the table. -/
def without (handle : String) (host : Host) : Host :=
  { host with threads := (host.threads.remove handle).2 }

/-- The host after it was logged that a thread has panicked. -/
def warned (handle : String) (host : Host) : Host :=
  Callbacks.logging host ⟨.warn, .threads, handle ++ " panicked"⟩

/-- Taking the thread of a handle out of the table and answering for it. -/
theorem threadJoin_string : threadJoin (.string handle :: rest) host =
    match (host.threads.remove handle).1 with
    | none => .ok .nil (without handle host)
    | some (some v) => .ok v (without handle host)
    | some none => .ok .nil (warned handle (without handle host)) := by
  have htake : takeThread handle host = .ok (host.threads.remove handle).1 (without handle host) :=
    rfl
  refine (bind_text "thread_join" handle rest _ host).trans ?_
  rw [Native.bind_of_ok htake]
  rcases (host.threads.remove handle).1 with _ | _ | v <;> rfl

theorem threadDetach_string : threadDetach (.string handle :: rest) host =
    .ok (.boolean (host.threads.remove handle).1.isSome) (without handle host) := rfl

/-- Without a function to call no thread is started. -/
theorem threadSpawn_of_ne
    (h : ∀ cb, host.callbacks.get? name = some cb → cb.kind ≠ .single) :
    ∃ entry, threadSpawn (.string name :: rest) host = .ok .nil (Callbacks.logging host entry) := by
  obtain ⟨entry, hfind⟩ := Callbacks.exists_find_eq_none h host.world
  refine ⟨entry, (bind_text "thread_spawn" name rest _ host).trans ?_⟩
  rw [Native.get_bind, Native.bind_of_ok (Native.liftM_of_ok hfind)]
  rfl

/-- The host after a number was taken. -/
def numbered (host : Host) : Host := { host with threads := host.threads.takeId.2 }

/-- What is left to do when the thread of a spawn has run. -/
def enter (name : String) (id : UInt64) (outcome : ThreadOutcome) : Native Value := do
  Action.log .debug .threads ("spawned " ++ Threads.handle id ++ " running " ++ name)
  modify fun host ↦ { host with threads := host.threads.insert (Threads.handle id) outcome }
  return .string (Threads.handle id)

/-- A spawn takes a number, runs the thread and enters it into the table. -/
theorem threadSpawn_of_kind (hget : host.callbacks.get? name = some cb)
    (hkind : cb.kind = .single) :
    threadSpawn (.string name :: rest) host =
      (do
        let outcome ← runNamed ("snask-" ++ name) cb (arg (.string name :: rest) 1)
        enter name host.threads.next outcome : Native Value) (numbered host) := by
  have hfind := Callbacks.find_of_get? hget hkind host.world
  refine (bind_text "thread_spawn" name rest _ host).trans ?_
  rw [Native.get_bind, Native.bind_of_ok (Native.liftM_of_ok hfind)]
  rfl

/-- What comes of a request for a thread of a given name. -/
theorem runNamed_of_mem {v : Value} {world : World} (h : '\x00' ∈ name.toList) :
    runNamed ("snask-" ++ name) cb v world = .error .panicked world := by
  rw [runNamed, if_pos (zero_mem_threadName.2 h)]
  rfl

theorem runNamed_of_some {v : Value} {world : World} {message : String}
    (h : '\x00' ∉ name.toList) (hfault : world.threadFault = some message) :
    runNamed ("snask-" ++ name) cb v world = .error (.failed message) world := by
  rw [runNamed, if_neg (mt zero_mem_threadName.1 h), Action.get_bind, hfault]
  rfl

theorem runNamed_of_none {v : Value} {world : World} (h : '\x00' ∉ name.toList)
    (hstarts : world.threadFault = none) :
    runNamed ("snask-" ++ name) cb v world = runThread cb v world := by
  rw [runNamed, if_neg (mt zero_mem_threadName.1 h), Action.get_bind, hstarts]

/-- The host after a thread has come to something and was put into the table. -/
def entered (host : Host) (name : String) (outcome : ThreadOutcome) (world : World) : Host :=
  Callbacks.logging { host with
    world
    threads := host.threads.takeId.2.insert (Threads.handle host.threads.next) outcome }
    ⟨.debug, .threads, "spawned " ++ Threads.handle host.threads.next ++ " running " ++ name⟩

/-- A thread that has run is entered into the table. -/
theorem threadSpawn_of_ok (hget : host.callbacks.get? name = some cb) (hkind : cb.kind = .single)
    {outcome : ThreadOutcome} {world : World}
    (hrun : runNamed ("snask-" ++ name) cb (arg (.string name :: rest) 1) host.world =
      .ok outcome world) :
    threadSpawn (.string name :: rest) host =
      .ok (.string (Threads.handle host.threads.next)) (entered host name outcome world) := by
  have hrun' : (liftM (runNamed ("snask-" ++ name) cb (arg (.string name :: rest) 1)) :
      Native ThreadOutcome) (numbered host) = .ok outcome { numbered host with world } :=
    Native.liftM_of_ok hrun
  rw [threadSpawn_of_kind hget hkind, Native.bind_of_ok hrun']
  rfl

/-- If no thread can be started, the number is taken all the same. -/
theorem threadSpawn_of_error (hget : host.callbacks.get? name = some cb) (hkind : cb.kind = .single)
    {e : Abort} (hrun : runNamed ("snask-" ++ name) cb (arg (.string name :: rest) 1) host.world =
      .error e host.world) :
    threadSpawn (.string name :: rest) host = .error e (numbered host) := by
  have hrun' : (liftM (runNamed ("snask-" ++ name) cb (arg (.string name :: rest) 1)) :
      Native ThreadOutcome) (numbered host) = .error e (numbered host) :=
    Native.liftM_of_error hrun
  rw [threadSpawn_of_kind hget hkind, Native.bind_of_error hrun']

/-- The host that an operation leaves. -/
def hostAfter : EStateM.Result Abort Host Value → Host
  | .ok _ host | .error _ host => host

/-- The hosts that the builtins for threads lead to, called in any order. -/
inductive ReachedByThreads (start : Host) : Host → Prop
  | start : ReachedByThreads start start
  | spawn {host : Host} (name : String) (rest : List Value) (h : ReachedByThreads start host) :
      ReachedByThreads start (hostAfter (threadSpawn (.string name :: rest) host))
  | join {host : Host} (handle : String) (rest : List Value) (h : ReachedByThreads start host) :
      ReachedByThreads start (hostAfter (threadJoin (.string handle :: rest) host))
  | detach {host : Host} (handle : String) (rest : List Value) (h : ReachedByThreads start host) :
      ReachedByThreads start (hostAfter (threadDetach (.string handle :: rest) host))

/-- The value of a thread is that of its function. -/
theorem runThread_eq_ok_some_iff {v value : Value} {w w' : World} :
    runThread cb v w = .ok (some value) w' ↔ cb.run [v] w = .ok value w' := by
  rw [runThread]
  cases cb.run [v] w <;> simp

/-- A thread has panicked if its function has. -/
theorem runThread_eq_ok_none_iff {v : Value} {w w' : World} :
    runThread cb v w = .ok none w' ↔ ∃ e, cb.run [v] w = .error e w' := by
  rw [runThread]
  cases cb.run [v] w <;> simp

/-- A thread comes to something. -/
theorem exists_runThread_eq (cb : Callback) (v : Value) (world : World) :
    ∃ outcome world', runThread cb v world = .ok outcome world' := by
  rw [runThread]
  cases cb.run [v] world with
  | ok result world' => exact ⟨some result, world', rfl⟩
  | error e world' => exact ⟨none, world', rfl⟩

end Builtin

namespace Threads.Shared

open Builtin

variable {ι : Type} {s s' : Shared ι} {host : Host} {handle : String}

/-- A host has the table of a state, with what the threads have come to. -/
structure Shows (s : Shared ι) (host : Host) : Prop where
  world : host.world = s.world
  next : host.threads.next = s.threads.next
  live : host.threads.live.map (fun e ↦ (e.1, some e.2)) =
    s.threads.live.map fun e ↦ (e.1, s.outcomeOf? e.2)

/-- What is found in a table in which every entry was changed. -/
theorem lookup_map_snd {α β : Type} (f : α → β) (k : String) (l : List (String × α)) :
    (l.map fun e ↦ (e.1, f e.2)).lookup k = (l.lookup k).map f := by
  induction l with
  | nil => rfl
  | cons e l ih =>
    rw [List.map_cons, List.lookup_cons, List.lookup_cons, ih]
    by_cases hk : k = e.1
    · simp [hk]
    · simp [beq_eq_false_iff_ne.2 hk]

/-- What a handle takes out of both tables. -/
theorem Shows.remove_fst (h : s.Shows host) (handle : String) :
    (host.threads.remove handle).1.map some = (s.threads.remove handle).1.map s.outcomeOf? := by
  have hlookup := congrArg (List.lookup handle) h.live
  rwa [lookup_map_snd some, lookup_map_snd s.outcomeOf?] at hlookup

/-- What it leaves in them. -/
theorem Shows.remove_snd (h : s.Shows host) (handle : String) :
    (host.threads.remove handle).2.live.map (fun e ↦ (e.1, some e.2)) =
      (s.threads.remove handle).2.live.map fun e ↦ (e.1, s.outcomeOf? e.2) := by
  have hfilter := congrArg (List.filter (·.1 != handle)) h.live
  rwa [List.filter_map, List.filter_map] at hfilter

/-- What is in the table has come to something. -/
theorem Shows.exists_outcomeOf?_eq (h : s.Shows host) {e : String × Nat}
    (he : e ∈ s.threads.live) : ∃ outcome, s.outcomeOf? e.2 = some outcome := by
  have hmem := List.mem_map_of_mem (f := fun e ↦ (e.1, s.outcomeOf? e.2)) he
  rw [← h.live] at hmem
  obtain ⟨entry, -, heq⟩ := List.mem_map.1 hmem
  exact ⟨entry.2, (congrArg Prod.snd heq).symm⟩

/-- A thread that is started later leaves what others have come to. -/
theorem outcomeOf?_of_append {last : Started} {thread : Nat} {outcome : ThreadOutcome}
    (hstarted : s'.started = s.started ++ [last]) (h : s.outcomeOf? thread = some outcome) :
    s'.outcomeOf? thread = some outcome := by
  obtain ⟨cb, arg, hthread⟩ := outcomeOf?_eq_some_iff.1 h
  have hlt : thread < s.started.length := (List.getElem?_eq_some_iff.1 hthread).1
  refine outcomeOf?_eq_some_iff.2 ⟨cb, arg, ?_⟩
  rw [hstarted, List.getElem?_append_left hlt, hthread]

/-- A thread that has come to something is entered into both tables. -/
theorem Shows.live_insert (h : s.Shows host) {cb : Callback} {v : Value} {outcome : ThreadOutcome}
    (hstarted : s'.started = s.started ++ [⟨cb, v, some outcome⟩]) (handle : String) :
    (host.threads.takeId.2.insert handle outcome).live.map (fun e ↦ (e.1, some e.2)) =
      (s.threads.takeId.2.insert handle s.started.length).live.map
        fun e ↦ (e.1, s'.outcomeOf? e.2) := by
  have hlast : s'.outcomeOf? s.started.length = some outcome :=
    outcomeOf?_eq_some_iff.2 ⟨cb, v, hstarted ▸ List.getElem?_concat_length⟩
  have hkept : ∀ e ∈ (s.threads.remove handle).2.live,
      (e.1, s.outcomeOf? e.2) = (e.1, s'.outcomeOf? e.2) := fun e he ↦ by
    obtain ⟨outcome', houtcome'⟩ := h.exists_outcomeOf?_eq (List.mem_of_mem_filter he)
    rw [houtcome', outcomeOf?_of_append hstarted houtcome']
  have hrest := (h.remove_snd handle).trans (List.map_congr_left hkept)
  exact congrArg₂ List.cons (congrArg (Prod.mk handle) hlast.symm) hrest

/-- What is found in both tables. -/
theorem Shows.remove_eq (h : s.Shows host) {thread : Nat} {outcome : ThreadOutcome}
    (hknown : s.threads.live.lookup handle = some thread)
    (houtcome : s.outcomeOf? thread = some outcome) :
    (host.threads.remove handle).1 = some outcome := by
  have hremove := h.remove_fst handle
  rw [s.threads.remove_fst, hknown, Option.map_some, houtcome, Option.map_eq_some_iff] at hremove
  obtain ⟨outcome', hfound, heq⟩ := hremove
  exact hfound.trans heq

/-- What is found in the table has come to something. -/
theorem Shows.exists_outcomeOf?_of_lookup (h : s.Shows host) {thread : Nat}
    (hknown : s.threads.live.lookup handle = some thread) :
    ∃ outcome, s.outcomeOf? thread = some outcome := by
  have hremove := h.remove_fst handle
  rw [s.threads.remove_fst, hknown, Option.map_some, Option.map_eq_some_iff] at hremove
  obtain ⟨outcome, -, heq⟩ := hremove
  exact ⟨outcome, heq.symm⟩

variable [DecidableEq ι] {t : ι}

/-- The acts lead to a state that shows a host, with every caller back where it was. -/
def LeadsTo (s : Shared ι) (acts : List (Act ι)) (host : Host) : Prop :=
  ∃ s', Run Step s acts s' ∧ s'.calls = s.calls ∧ s'.Shows host

/-- What the builtins for threads answer on a host, and the acts of the caller that they are. -/
structure HasBuiltins (s : Shared ι) (t : ι) (host : Host) : Prop where
  /-- A spawn of a name to which no function of one argument is bound answers with nil and does
  nothing to the table. -/
  spawn_unbound {name : String} (rest : List Value)
    (unbound : ∀ cb, host.callbacks.get? name = some cb → cb.kind ≠ .single) :
    ∃ entry, threadSpawn (.string name :: rest) host = .ok .nil (Callbacks.logging host entry) ∧
      s.LeadsTo [.other (Callbacks.logging host entry).world] (Callbacks.logging host entry)
  /-- If one is bound and the system starts threads, the spawn takes the next number, starts a
  thread that runs the function with the argument, puts it into the table and answers with the
  handle of the number. -/
  spawn {name : String} {cb : Callback} (rest : List Value)
    (bound : host.callbacks.get? name = some cb) (kind : cb.kind = .single)
    (nonzero : '\x00' ∉ name.toList) (starts : host.world.threadFault = none) :
    ∃ outcome world, runThread cb (arg (.string name :: rest) 1) host.world = .ok outcome world ∧
      threadSpawn (.string name :: rest) host =
        .ok (.string (Threads.handle s.threads.next)) (entered host name outcome world) ∧
      s.LeadsTo [.take t s.threads.next, .start t s.started.length,
        .finish s.started.length outcome host.world world,
        .other (entered host name outcome world).world,
        .insert t s.threads.next cb (arg (.string name :: rest) 1) s.started.length]
        (entered host name outcome world)
  /-- If the system starts no thread, the spawn has taken a number and fails with what the system
  says. -/
  spawn_refused {name message : String} {cb : Callback} (rest : List Value)
    (bound : host.callbacks.get? name = some cb) (kind : cb.kind = .single)
    (nonzero : '\x00' ∉ name.toList) (fault : host.world.threadFault = some message) :
    threadSpawn (.string name :: rest) host = .error (.failed message) (numbered host) ∧
      s.LeadsTo [.take t s.threads.next, .refuse t s.threads.next] (numbered host)
  /-- A name with a zero character, which no function that was registered has, is a panic. -/
  spawn_panics {name : String} {cb : Callback} (rest : List Value)
    (bound : host.callbacks.get? name = some cb) (kind : cb.kind = .single)
    (zero : '\x00' ∈ name.toList) :
    threadSpawn (.string name :: rest) host = .error .panicked (numbered host) ∧
      s.LeadsTo [.take t s.threads.next, .refuse t s.threads.next] (numbered host)
  /-- A join for which no thread is in the table answers with nil and changes nothing. -/
  join_unknown {handle : String} (rest : List Value)
    (unknown : s.threads.live.lookup handle = none) :
    threadJoin (.string handle :: rest) host = .ok .nil host ∧
      s.LeadsTo [.seek t handle none] host
  /-- What is in the table has come to something. -/
  outcome {handle : String} {thread : Nat} (known : s.threads.live.lookup handle = some thread) :
    ∃ outcome, s.outcomeOf? thread = some outcome
  /-- A join answers with the value of its thread. -/
  join {handle : String} {thread : Nat} {v : Value} (rest : List Value)
    (known : s.threads.live.lookup handle = some thread)
    (value : s.outcomeOf? thread = some (some v)) :
    threadJoin (.string handle :: rest) host = .ok v (without handle host) ∧
      s.LeadsTo [.seek t handle (some thread), .join t handle thread (some v)] (without handle host)
  /-- If the thread has panicked, it answers with nil and logs a warning. -/
  join_panicked {handle : String} {thread : Nat} (rest : List Value)
    (known : s.threads.live.lookup handle = some thread)
    (panicked : s.outcomeOf? thread = some none) :
    threadJoin (.string handle :: rest) host = .ok .nil (warned handle (without handle host)) ∧
      s.LeadsTo [.seek t handle (some thread), .join t handle thread none,
        .other (warned handle (without handle host)).world] (warned handle (without handle host))
  /-- A detach answers whether a thread is in the table. -/
  detach (handle : String) (rest : List Value) :
    threadDetach (.string handle :: rest) host =
        .ok (.boolean (s.threads.live.lookup handle).isSome) (without handle host) ∧
      s.LeadsTo [.detach t handle (s.threads.live.lookup handle)] (without handle host)

theorem put_idle (hcall : s.calls t = .idle) : Function.update s.calls t .idle = s.calls :=
  Function.update_eq_self_iff.2 hcall.symm

theorem Shows.detach (h : s.Shows host) (hcall : s.calls t = .idle) (handle : String)
    (rest : List Value) :
    threadDetach (.string handle :: rest) host =
        .ok (.boolean (s.threads.live.lookup handle).isSome) (without handle host) ∧
      s.LeadsTo [.detach t handle (s.threads.live.lookup handle)] (without handle host) := by
  have hisSome := congrArg Option.isSome (h.remove_fst handle)
  rw [Option.isSome_map, Option.isSome_map, s.threads.remove_fst] at hisSome
  refine ⟨?_, _, .singleton (.detach handle hcall), rfl, h.world, h.next, h.remove_snd handle⟩
  rw [threadDetach_string, hisSome]

theorem Shows.join_unknown (h : s.Shows host) (hcall : s.calls t = .idle) (rest : List Value)
    (hunknown : s.threads.live.lookup handle = none) :
    threadJoin (.string handle :: rest) host = .ok .nil host ∧
      s.LeadsTo [.seek t handle none] host := by
  have hseek := Step.seek handle hcall
  have hremove := h.remove_fst handle
  rw [s.threads.remove_fst, hunknown] at hseek hremove
  rw [Option.map_none, Option.map_eq_none_iff] at hremove
  have hwithout : without handle host = host := by rw [without, remove_eq_self hremove]
  have hshows := h.remove_snd handle
  rw [remove_eq_self hremove] at hshows
  refine ⟨?_, _, .singleton hseek, put_idle hcall, h.world, h.next, hshows⟩
  rw [threadJoin_string, hremove, hwithout]

/-- Taking a thread out of the table and answering for it. -/
theorem Shows.run_join (h : s.Shows host) (hcall : s.calls t = .idle) {thread : Nat}
    {outcome : ThreadOutcome} (hknown : s.threads.live.lookup handle = some thread)
    (houtcome : s.outcomeOf? thread = some outcome) :
    s.LeadsTo [.seek t handle (some thread), .join t handle thread outcome]
      (without handle host) := by
  have hseek := Step.seek handle hcall
  rw [s.threads.remove_fst, hknown] at hseek
  obtain ⟨cb, arg, hended⟩ := outcomeOf?_eq_some_iff.1 houtcome
  refine ⟨_, .cons hseek (.singleton (.join calls_put_self hended)), ?_, h.world, h.next,
    h.remove_snd handle⟩
  exact (Function.update_idem ..).trans (put_idle hcall)

/-- The world may change at the end. -/
theorem LeadsTo.other {acts : List (Act ι)} (h : s.LeadsTo acts host) (world : World) :
    s.LeadsTo (acts ++ [.other world]) { host with world } := by
  obtain ⟨s', hrun, hcalls, hshows⟩ := h
  exact ⟨_, hrun.snoc (.other world), hcalls, rfl, hshows.next, hshows.live⟩

/-- A caller with whom nobody interferes spawns a thread that ends before it is put into the
table. -/
theorem Shows.run_spawn (h : s.Shows host) (hcall : s.calls t = .idle) {cb : Callback} {v : Value}
    {outcome : ThreadOutcome} {world : World}
    (hran : runThread cb v host.world = .ok outcome world) (name : String) :
    s.LeadsTo [.take t s.threads.next, .start t s.started.length,
      .finish s.started.length outcome host.world world,
      .other (entered host name outcome world).world,
      .insert t s.threads.next cb v s.started.length] (entered host name outcome world) := by
  have hstarted : (s.started ++ [⟨cb, v, none⟩])[s.started.length]? = some ⟨cb, v, none⟩ :=
    List.getElem?_concat_length
  rw [h.world] at hran ⊢
  refine ⟨_, .cons (.take cb v hcall) (.cons (.start calls_put_self)
    (.cons (.finish hstarted hran) (.cons (.other _) (.singleton
      (.insert calls_put_self))))), ?_, rfl, congrArg (· + 1) h.next, ?_⟩
  · exact (Function.update_idem ..).trans ((Function.update_idem ..).trans (put_idle hcall))
  · have hended : (s.started ++ [Started.mk cb v none]).set s.started.length ⟨cb, v, some outcome⟩ =
        s.started ++ [⟨cb, v, some outcome⟩] :=
      (List.set_append_right _ _ le_rfl).trans (by rw [Nat.sub_self]; rfl)
    have hthreads : (entered host name outcome world).threads =
        host.threads.takeId.2.insert (Threads.handle s.threads.next) outcome := by
      rw [← h.next]
      rfl
    rw [hthreads]
    exact h.live_insert hended _

/-- A caller with whom nobody interferes takes a number in vain. -/
theorem Shows.run_refuse (h : s.Shows host) (hcall : s.calls t = .idle) :
    s.LeadsTo [.take t s.threads.next, .refuse t s.threads.next] (numbered host) := by
  refine ⟨_, .cons (.take ⟨.single, fun _ ↦ pure .nil⟩ .nil hcall)
    (.singleton (.refuse calls_put_self)), ?_, h.world, congrArg (· + 1) h.next, h.live⟩
  exact (Function.update_idem ..).trans (put_idle hcall)

/-- The builtins of a host are acts of a caller with whom nobody interferes. -/
theorem Shows.hasBuiltins (h : s.Shows host) (hcall : s.calls t = .idle) :
    s.HasBuiltins t host where
  spawn_unbound rest unbound := by
    obtain ⟨entry, hspawn⟩ := threadSpawn_of_ne unbound
    exact ⟨entry, hspawn, _, .singleton (.other _), rfl, rfl, h.next, h.live⟩
  spawn rest bound kind nonzero starts := by
    obtain ⟨outcome, world, hran⟩ := exists_runThread_eq _ _ host.world
    refine ⟨outcome, world, hran, ?_, h.run_spawn hcall hran _⟩
    rw [← h.next]
    exact threadSpawn_of_ok bound kind ((runNamed_of_none nonzero starts).trans hran)
  spawn_refused rest bound kind nonzero fault :=
    ⟨threadSpawn_of_error bound kind (runNamed_of_some nonzero fault), h.run_refuse hcall⟩
  spawn_panics rest bound kind zero :=
    ⟨threadSpawn_of_error bound kind (runNamed_of_mem zero), h.run_refuse hcall⟩
  join_unknown := h.join_unknown hcall
  outcome := h.exists_outcomeOf?_of_lookup
  join rest known value := by
    refine ⟨?_, h.run_join hcall known value⟩
    rw [threadJoin_string, h.remove_eq known value]
  join_panicked rest known panicked := by
    refine ⟨?_, (h.run_join hcall known panicked).other _⟩
    rw [threadJoin_string, h.remove_eq known panicked]
  detach := h.detach hcall

namespace HasBuiltins

variable (h : s.HasBuiltins t host)
include h

/-- Whatever comes of a spawn, it is acts of the caller. -/
theorem exists_leadsTo_spawn (name : String) (rest : List Value) :
    ∃ acts, s.LeadsTo acts (hostAfter (threadSpawn (.string name :: rest) host)) := by
  by_cases hbound : ∃ cb, host.callbacks.get? name = some cb ∧ cb.kind = .single
  · obtain ⟨cb, hget, hkind⟩ := hbound
    by_cases hzero : '\x00' ∈ name.toList
    · obtain ⟨hspawn, hleads⟩ := h.spawn_panics rest hget hkind hzero
      rw [hspawn]
      exact ⟨_, hleads⟩
    cases hfault : host.world.threadFault with
    | some message =>
      obtain ⟨hspawn, hleads⟩ := h.spawn_refused rest hget hkind hzero hfault
      rw [hspawn]
      exact ⟨_, hleads⟩
    | none =>
      obtain ⟨_, _, -, hspawn, hleads⟩ := h.spawn rest hget hkind hzero hfault
      rw [hspawn]
      exact ⟨_, hleads⟩
  · push Not at hbound
    obtain ⟨entry, hspawn, hleads⟩ := h.spawn_unbound rest hbound
    rw [hspawn]
    exact ⟨_, hleads⟩

/-- So is a join. -/
theorem exists_leadsTo_join (handle : String) (rest : List Value) :
    ∃ acts, s.LeadsTo acts (hostAfter (threadJoin (.string handle :: rest) host)) := by
  cases hlookup : s.threads.live.lookup handle with
  | none =>
    obtain ⟨hjoin, hleads⟩ := h.join_unknown rest hlookup
    rw [hjoin]
    exact ⟨_, hleads⟩
  | some thread =>
    obtain ⟨outcome, houtcome⟩ := h.outcome hlookup
    cases outcome with
    | some v =>
      obtain ⟨hjoin, hleads⟩ := h.join rest hlookup houtcome
      rw [hjoin]
      exact ⟨_, hleads⟩
    | none =>
      obtain ⟨hjoin, hleads⟩ := h.join_panicked rest hlookup houtcome
      rw [hjoin]
      exact ⟨_, hleads⟩

end HasBuiltins

/-- What the builtins lead to from an empty table is what one caller comes to. -/
theorem exists_run_of_reachedByThreads {start : Host} (hempty : start.threads = .empty)
    (t : ι) (h : ReachedByThreads start host) : ∃ record, ∃ s : Shared ι,
      Run Step (initial start.world) record s ∧ s.calls t = .idle ∧ s.Shows host := by
  -- One call more is a run from the state that shows the host before it.
  have hmore {host host' : Host} (hbefore : ∃ record, ∃ s : Shared ι,
        Run Step (initial start.world) record s ∧ s.calls t = .idle ∧ s.Shows host)
      (hleads : ∀ s : Shared ι, s.HasBuiltins t host → ∃ acts, s.LeadsTo acts host') :
      ∃ record, ∃ s : Shared ι, Run Step (initial start.world) record s ∧ s.calls t = .idle ∧
        s.Shows host' := by
    obtain ⟨record, s, hrun, hcall, hshows⟩ := hbefore
    obtain ⟨acts, s', hrun', hcalls, hshows'⟩ := hleads s (hshows.hasBuiltins hcall)
    exact ⟨record ++ acts, s', hrun.append hrun', hcalls ▸ hcall, hshows'⟩
  induction h with
  | start => exact ⟨[], _, .nil _, rfl, rfl, congrArg Threads.next hempty, by rw [hempty]; rfl⟩
  | spawn name rest _ ih => exact hmore ih fun _ hs ↦ hs.exists_leadsTo_spawn name rest
  | join handle rest _ ih => exact hmore ih fun _ hs ↦ hs.exists_leadsTo_join handle rest
  | detach handle rest _ ih => exact hmore ih fun _ hs ↦ ⟨_, (hs.detach handle rest).2⟩

end Threads.Shared

end ScriptHost
