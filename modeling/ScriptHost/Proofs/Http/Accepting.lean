import Mathlib.Tactic.Common
import ScriptHost.Command.Run

/-!
# Which connections are served

A server takes what arrives one after another until it has served as many connections as it is
asked for, until a fault is fatal or the last of too many in a row, or until nothing arrives any
more.  Each of these is told from what has arrived alone, without the counters of the loop, and the
loop ends at the first of them, after it has given every connection up to there to its handler.

## Main definitions

* `Http.Settings.IsOffered` : the settings that a server can be started with, and the number of
  connections that was asked for.
* `Http.connections`, `Http.faultsInARow` : what the counters of the loop stand for.
* `Http.EndsAt` : what ends the loop at one of the arrivals, with the answer.
* `Http.attendAll` : giving connections to a handler, and faults to a log, one after another.

## Main results

* `Http.IsUnderway.exists_driveFrom_eq` : the loop from any of its states on.
* `Http.exists_isFirstEnd_drive` : the loop of a server with settings that it can get.
-/

namespace ScriptHost.Http

variable {σ α : Type}

/-! ### Settings -/

/-- The settings that the environment gives, those with a limit that was asked for, and such
settings with what a command line asks for; each with the number that was asked for. -/
inductive Settings.IsOffered : Settings → Option Nat → Prop
  | ofEnvironment (setting? : String → Option String) :
      IsOffered (.ofEnvironment setting?)
        ((setting? "SNASK_MAX_REQUESTS").bind fun text ↦ Decimal.readNat (1 <<< 64) text.toList)
  | withMaxRequests (s : Settings) (asked : Option Nat) :
      IsOffered (s.withMaxRequests asked) asked
  | ofCommand {base : Settings} {asked : Option Nat} (h : IsOffered base asked)
      (host : Option String) (port maxRequests : Option Nat) :
      IsOffered (Command.settings host port maxRequests base) (maxRequests.or asked)

theorem Settings.bind_limit? (asked : Option Nat) : asked.bind limit? = asked.filter (0 < ·) := by
  rcases asked with - | - | n <;> rfl

/-- The limit is the number that was asked for, unless that is zero. -/
theorem Settings.IsOffered.maxRequests_eq {s : Settings} {asked : Option Nat}
    (h : s.IsOffered asked) : s.maxRequests = asked.filter (0 < ·) := by
  induction h with
  | ofEnvironment setting? => exact bind_limit? _
  | withMaxRequests s asked => exact bind_limit? asked
  | ofCommand h host port maxRequests ih =>
    cases maxRequests with
    | none => exact ih
    | some wanted => exact bind_limit? (some wanted)

/-- A limit is never zero. -/
theorem Settings.IsOffered.maxRequests_pos {s : Settings} {asked : Option Nat}
    (h : s.IsOffered asked) (n : Nat) (hn : s.maxRequests = some n) : 0 < n := by
  rw [h.maxRequests_eq, Option.filter_eq_some_iff] at hn
  exact of_decide_eq_true hn.2

/-! ### What has arrived -/

/-- The connections among what arrived. -/
def connections (seen : List (Arrival σ)) : List σ := seen.filterMap Except.toOption

/-- A fault that is not fatal. -/
def isPassing : Arrival σ → Bool
  | .error fault => !fault.isFatal
  | .ok _ => false

/-- How many faults came last, one after another and none of them fatal. -/
def faultsInARow (seen : List (Arrival σ)) : Nat := (seen.reverse.takeWhile isPassing).length

/-- What ends the loop at the arrival with this index, with the answer: a connection that is the
last one asked for, a fatal fault, or the 32nd fault in a row.  The end of what arrives has the
index behind the last arrival. -/
inductive EndsAt (limit : Option Nat) (arrivals : List (Arrival σ)) (k : Nat) :
    Except AcceptFault Nat → Prop
  | reached {connection : σ} {n : Nat} (hk : arrivals[k]? = some (.ok connection))
      (hlimit : limit = some n) (hn : (connections (arrivals.take (k + 1))).length = n) :
      EndsAt limit arrivals k (.ok n)
  | fatal {fault : AcceptFault} (hk : arrivals[k]? = some (.error fault))
      (hkind : fault.kind ∈ [ErrorKind.invalidInput, .notConnected, .unsupported]) :
      EndsAt limit arrivals k (.error fault)
  | broken {fault : AcceptFault} (hk : arrivals[k]? = some (.error fault))
      (hrow : faultsInARow (arrivals.take (k + 1)) = 32) :
      EndsAt limit arrivals k (.error fault)
  | exhausted (hk : k = arrivals.length) :
      EndsAt limit arrivals k (.ok (connections arrivals).length)

/-- The first index at which something ends the loop. -/
structure IsFirstEnd (limit : Option Nat) (arrivals : List (Arrival σ)) (k : Nat)
    (answer : Except AcceptFault Nat) : Prop where
  endsAt : EndsAt limit arrivals k answer
  notBefore : ∀ j < k, ∀ other, ¬EndsAt limit arrivals j other

section

variable {limit : Option Nat} {seen rest arrivals : List (Arrival σ)} {k : Nat}
  {answer : Except AcceptFault Nat} {connection : σ} {fault : AcceptFault}

theorem length_connections_ok :
    (connections (seen ++ [.ok connection])).length = (connections seen).length + 1 := by
  rw [connections, List.filterMap_append, List.length_append]
  rfl

theorem length_connections_error :
    (connections (seen ++ [.error fault])).length = (connections seen).length := by
  rw [connections, List.filterMap_append, List.length_append]
  rfl

theorem faultsInARow_ok : faultsInARow (seen ++ [.ok connection]) = 0 := by
  rw [faultsInARow, List.reverse_append]
  rfl

theorem faultsInARow_error (hfatal : fault.isFatal = false) :
    faultsInARow (seen ++ [.error fault]) = faultsInARow seen + 1 := by
  have hpassing : isPassing (.error fault : Arrival σ) = true := congrArg not hfatal
  rw [faultsInARow, List.reverse_append]
  exact congrArg List.length (List.takeWhile_cons_of_pos hpassing)

theorem getElem?_length (arrival : Arrival σ) :
    (seen ++ arrival :: rest)[seen.length]? = some arrival := by
  rw [List.getElem?_append_right (Nat.le_refl _), Nat.sub_self]
  rfl

/-- What has arrived with the arrival behind `seen`. -/
theorem take_length_succ (arrival : Arrival σ) :
    (seen ++ arrival :: rest).take (seen.length + 1) = seen ++ [arrival] :=
  List.take_length_add_append 1

theorem length_ne (arrival : Arrival σ) : seen.length ≠ (seen ++ arrival :: rest).length := by
  rw [List.length_append, List.length_cons]
  omega

/-- A connection ends the loop only if it is the last one asked for. -/
theorem EndsAt.of_ok (h : EndsAt limit (seen ++ .ok connection :: rest) seen.length answer) :
    limit = some ((connections seen).length + 1) := by
  cases h with
  | reached _ hlimit hn => rw [hlimit, ← hn, take_length_succ, length_connections_ok]
  | fatal hk _ => cases (getElem?_length _).symm.trans hk
  | broken hk _ => cases (getElem?_length _).symm.trans hk
  | exhausted hk => exact absurd hk (length_ne _)

/-- A fault ends the loop only if it is fatal or the last of too many. -/
theorem EndsAt.of_error (h : EndsAt limit (seen ++ .error fault :: rest) seen.length answer) :
    fault.isFatal = true ∨ faultsInARow (seen ++ [.error fault]) = 32 := by
  cases h with
  | reached hk _ _ => cases (getElem?_length _).symm.trans hk
  | fatal hk hkind =>
    cases (getElem?_length _).symm.trans hk
    exact .inl (AcceptFault.isFatal_iff.2 hkind)
  | broken _ hrow =>
    rw [take_length_succ] at hrow
    exact .inr hrow
  | exhausted hk => exact absurd hk (length_ne _)

/-! ### The loop -/

/-- The loop goes on behind `seen`: nothing has ended it, and its counters are those of what has
arrived. -/
structure IsUnderway (limit : Option Nat) (seen rest : List (Arrival σ))
    (handled failures : Nat) : Prop where
  goesOn : ∀ j < seen.length, ∀ answer, ¬EndsAt limit (seen ++ rest) j answer
  handled_eq : handled = (connections seen).length
  handled_lt : ∀ n, limit = some n → handled < n
  failures_eq : failures = faultsInARow seen
  failures_lt : failures < 32

end

/-- Gives a connection to the handler and a fault to the log. -/
def attend {m : Type → Type} (warn : String → m Unit) (handle : σ → m Unit) : Arrival σ → m Unit
  | .ok connection => handle connection
  | .error fault => warn fault.message

/-- Attends to all that has arrived, one after another, and then does what is last. -/
def attendAll {m : Type → Type} [Monad m] (warn : String → m Unit) (handle : σ → m Unit)
    (seen : List (Arrival σ)) (last : m α) : m α :=
  seen.foldr (fun arrival rest ↦ do attend warn handle arrival; rest) last

/-- Gives the answer, after the connection that comes with it if it is one. -/
def conclude {m : Type → Type} [Monad m] (handle : σ → m Unit) (answer : α) :
    Option (Arrival σ) → m α
  | some (.ok connection) => do handle connection; pure answer
  | _ => pure answer

namespace IsUnderway

variable {limit : Option Nat} {seen rest : List (Arrival σ)} {handled failures : Nat}
  {connection : σ} {fault : AcceptFault}

/-- At the end of what arrives the loop ends with the number of connections. -/
theorem isFirstEnd_nil (h : IsUnderway limit seen [] handled failures) :
    IsFirstEnd limit (seen ++ []) seen.length (.ok handled) where
  endsAt := by
    rw [h.handled_eq, List.append_nil]
    exact .exhausted rfl
  notBefore := h.goesOn

/-- Nothing before what comes next ends the loop, nor does that. -/
theorem goesOn_concat {arrival : Arrival σ}
    (h : IsUnderway limit seen (arrival :: rest) handled failures)
    (hnext : ∀ answer, ¬EndsAt limit (seen ++ arrival :: rest) seen.length answer) :
    ∀ j < (seen ++ [arrival]).length, ∀ answer,
      ¬EndsAt limit (seen ++ [arrival] ++ rest) j answer := by
  rw [List.append_assoc, List.length_append]
  intro j hj
  rcases Nat.lt_succ_iff_lt_or_eq.1 hj with hj | rfl
  · exact h.goesOn j hj
  · exact hnext

/-- A fault ends the loop if it is fatal or the last of too many. -/
theorem isFirstEnd_error (h : IsUnderway limit seen (.error fault :: rest) handled failures)
    (hends : fault.isFatal = true ∨ 32 ≤ failures + 1) :
    IsFirstEnd limit (seen ++ .error fault :: rest) seen.length (.error fault) where
  endsAt := by
    cases hfatal : fault.isFatal with
    | true => exact .fatal (getElem?_length _) (AcceptFault.isFatal_iff.1 hfatal)
    | false =>
      refine .broken (getElem?_length _) ?_
      have hle := hends.resolve_left (Bool.eq_false_iff.1 hfatal)
      have hlt := h.failures_lt
      rw [take_length_succ, faultsInARow_error hfatal, ← h.failures_eq]
      omega
  notBefore := h.goesOn

/-- After any other fault it goes on. -/
theorem error (h : IsUnderway limit seen (.error fault :: rest) handled failures)
    (hfatal : fault.isFatal = false) (hlt : failures + 1 < 32) :
    IsUnderway limit (seen ++ [.error fault]) rest handled (failures + 1) where
  goesOn := by
    refine h.goesOn_concat fun answer hends ↦ ?_
    rcases hends.of_error with htrue | hrow
    · cases hfatal.symm.trans htrue
    · rw [faultsInARow_error hfatal, ← h.failures_eq] at hrow
      exact Nat.ne_of_lt hlt hrow
  handled_eq := by rw [length_connections_error, h.handled_eq]
  handled_lt := h.handled_lt
  failures_eq := by rw [faultsInARow_error hfatal, h.failures_eq]
  failures_lt := hlt

/-- A connection ends the loop if it is the last one asked for. -/
theorem isFirstEnd_ok (h : IsUnderway limit seen (.ok connection :: rest) handled failures)
    {n : Nat} (hlimit : limit = some n) (hle : n ≤ handled + 1) :
    IsFirstEnd limit (seen ++ .ok connection :: rest) seen.length (.ok (handled + 1)) where
  endsAt := by
    have hlt := h.handled_lt n hlimit
    obtain rfl : n = handled + 1 := by omega
    refine .reached (getElem?_length _) hlimit ?_
    rw [take_length_succ, length_connections_ok, h.handled_eq]
  notBefore := h.goesOn

/-- After any other connection it goes on, and counts its faults from the beginning. -/
theorem ok (h : IsUnderway limit seen (.ok connection :: rest) handled failures)
    (hlt : ∀ n, limit = some n → handled + 1 < n) :
    IsUnderway limit (seen ++ [.ok connection]) rest (handled + 1) 0 where
  goesOn := by
    refine h.goesOn_concat fun answer hends ↦ ?_
    have hne := hlt _ hends.of_ok
    rw [h.handled_eq] at hne
    exact Nat.lt_irrefl _ hne
  handled_eq := by rw [length_connections_ok, h.handled_eq]
  handled_lt := hlt
  failures_eq := faultsInARow_ok.symm
  failures_lt := by decide

/-- From any of its states the loop runs up to the first end behind it, whatever its handler and its
log do. -/
theorem exists_driveFrom_eq (h : IsUnderway limit seen rest handled failures) :
    ∃ k answer, IsFirstEnd limit (seen ++ rest) (seen.length + k) answer ∧
      ∀ {m : Type → Type} [Monad m] (warn : String → m Unit) (handle : σ → m Unit),
        driveFrom limit warn handle handled failures rest =
          attendAll warn handle (rest.take k) (conclude handle answer rest[k]?) := by
  induction rest generalizing seen handled failures with
  | nil => exact ⟨0, _, h.isFirstEnd_nil, fun _ _ ↦ rfl⟩
  | cons arrival rest ih =>
    -- what the rest of the loop does is the same with one more arrival in front of it
    have hlater {next : Nat} {failed : Nat}
        (hnext : IsUnderway limit (seen ++ [arrival]) rest next failed) :
        ∃ k answer, IsFirstEnd limit (seen ++ arrival :: rest) (seen.length + (k + 1)) answer ∧
          ∀ {m : Type → Type} [Monad m] (warn : String → m Unit) (handle : σ → m Unit),
            (do attend warn handle arrival; driveFrom limit warn handle next failed rest) =
              attendAll warn handle ((arrival :: rest).take (k + 1))
                (conclude handle answer (arrival :: rest)[k + 1]?) := by
      obtain ⟨k, answer, hfirst, hrun⟩ := ih hnext
      rw [List.append_assoc, List.length_append, Nat.add_assoc, Nat.add_comm _ k] at hfirst
      refine ⟨k, answer, hfirst, fun warn handle ↦ ?_⟩
      rw [hrun]
      rfl
    cases arrival with
    | error fault =>
      by_cases hends : fault.isFatal = true ∨ 32 ≤ failures + 1
      · refine ⟨0, _, h.isFirstEnd_error hends, fun warn handle ↦ ?_⟩
        rw [driveFrom, if_pos (by simpa [maxAcceptFailures] using hends)]
        rfl
      · obtain ⟨hfatal, hlt⟩ := not_or.1 hends
        obtain ⟨k, answer, hfirst, hrun⟩ :=
          hlater (h.error (Bool.eq_false_iff.2 hfatal) (Nat.lt_of_not_le hlt))
        refine ⟨k + 1, answer, hfirst, fun warn handle ↦ ?_⟩
        rw [driveFrom, if_neg (by simpa [maxAcceptFailures] using hends)]
        exact hrun warn handle
    | ok connection =>
      by_cases hends : ∃ n, limit = some n ∧ n ≤ handled + 1
      · obtain ⟨n, hlimit, hle⟩ := hends
        refine ⟨0, _, h.isFirstEnd_ok hlimit hle, fun warn handle ↦ ?_⟩
        rw [driveFrom, hlimit, Option.any_some, decide_eq_true hle]
        rfl
      · have hlt : ∀ n, limit = some n → handled + 1 < n := fun n hn ↦
          Nat.lt_of_not_le fun hle ↦ hends ⟨n, hn, hle⟩
        have hany : limit.any (· ≤ handled + 1) = false := by
          cases limit with
          | none => rfl
          | some n => exact decide_eq_false (Nat.not_le_of_lt (hlt n rfl))
        obtain ⟨k, answer, hfirst, hrun⟩ := hlater (h.ok hlt)
        refine ⟨k + 1, answer, hfirst, fun warn handle ↦ ?_⟩
        rw [driveFrom, hany]
        exact hrun warn handle

end IsUnderway

/-! ### What the handler gets -/

/-- A handler that notes down the connections it gets. -/
def note (connection : σ) : StateM (List σ) Unit := modify (· ++ [connection])

theorem run_attendAll_note (seen : List (Arrival σ)) (last : StateM (List σ) α) (noted : List σ) :
    (attendAll (fun _ ↦ pure ()) note seen last).run noted =
      last.run (noted ++ connections seen) := by
  induction seen generalizing noted with
  | nil => exact congrArg last.run (List.append_nil noted).symm
  | cons arrival seen ih =>
    cases arrival with
    | error fault => exact ih noted
    | ok connection =>
      refine (ih (noted ++ [connection])).trans (congrArg last.run ?_)
      exact List.append_assoc noted [connection] (connections seen)

theorem run_conclude_note (answer : α) (last : Option (Arrival σ)) (noted : List σ) :
    (conclude note answer last).run noted = (answer, noted ++ connections last.toList) := by
  rcases last with - | fault | connection
  · exact congrArg (Prod.mk answer) (List.append_nil noted).symm
  · exact congrArg (Prod.mk answer) (List.append_nil noted).symm
  · rfl

/-- A server with settings that it can get has the limit that was asked for, if that is positive,
and else none.  Whatever arrives, its loop ends at the first arrival that ends it, with the answer
that belongs to it: it gives every connection up to there to the handler, in the order of their
arrival and each of them once, and every fault before it to the log.  Answered is how many
connections these are, or the fault that ended it. -/
theorem exists_isFirstEnd_drive {s : Settings} {asked : Option Nat} (hs : s.IsOffered asked)
    (arrivals : List (Arrival σ)) :
    (∀ n, s.maxRequests = some n → 0 < n) ∧ s.maxRequests = asked.filter (0 < ·) ∧
      ∃ k answer, IsFirstEnd s.maxRequests arrivals k answer ∧
        (∀ {m : Type → Type} [Monad m] (warn : String → m Unit) (handle : σ → m Unit),
          drive s.maxRequests warn handle arrivals =
            attendAll warn handle (arrivals.take k) (conclude handle answer arrivals[k]?)) ∧
        (drive s.maxRequests (fun _ ↦ pure ()) note arrivals).run [] =
          (answer, connections (arrivals.take (k + 1))) := by
  have hunderway : IsUnderway s.maxRequests [] arrivals 0 0 :=
    ⟨fun j hj ↦ absurd hj (Nat.not_lt_zero j), rfl, hs.maxRequests_pos, rfl, by decide⟩
  obtain ⟨k, answer, hfirst, hrun⟩ := hunderway.exists_driveFrom_eq
  rw [List.nil_append, List.length_nil, Nat.zero_add] at hfirst
  refine ⟨hs.maxRequests_pos, hs.maxRequests_eq, k, answer, hfirst, hrun, ?_⟩
  rw [drive, hrun, run_attendAll_note, run_conclude_note, List.nil_append, connections,
    connections, ← List.filterMap_append, ← List.take_add_one]
  rfl

/-- A connection comes after as many faults as the loop can bear, and then one more fault than
that. -/
theorem exists_isFirstEnd_drive_faults :
    let s := Settings.ofEnvironment fun _ ↦ none
    let aborted : AcceptFault :=
      ⟨.connectionAborted, "Software caused connection abort (os error 103)"⟩
    let arrivals : List (Arrival Nat) :=
      List.replicate 31 (.error aborted) ++ .ok 1 :: (List.replicate 32 (.error aborted) ++ [.ok 2])
    s.IsOffered none ∧ ∃ k, IsFirstEnd s.maxRequests arrivals k (.error aborted) ∧
      connections (arrivals.take (k + 1)) = [1] := by
  intro s aborted arrivals
  have hs : s.IsOffered none := .ofEnvironment _
  obtain ⟨-, -, k, answer, hfirst, -, hnoted⟩ := exists_isFirstEnd_drive hs arrivals
  have hrun : Id.run ((drive s.maxRequests (fun _ ↦ pure ()) note arrivals).run []) =
      (.error aborted, [1]) := by decide +kernel
  obtain ⟨rfl, hconnections⟩ := Prod.mk.inj (hnoted.symm.trans hrun)
  exact ⟨hs, k, hfirst, hconnections⟩

end ScriptHost.Http
