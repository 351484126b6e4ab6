import Mathlib.Data.List.Induction
import ScriptHost.Proofs.Callback.Operations

/-!
# What the callbacks have come to

After any operations on the callbacks of a host, the function that is bound to a name is the one of
the last registration of the name that was answered with success and after which the name was not
unregistered.  All that is observed later follows from that: what is found and called, what may be
registered, and which symbols are listed.

## Main definitions

* `Callbacks.performAll` : operations one after another, with their answers.
* `Callbacks.BoundBy` : what is bound to a name, told from what was asked and answered.
* `Callbacks.AnswersFrom` : a host answers as what was asked and answered tells.

## Main results

* `Callbacks.get?_performAll` : the table holds what is bound.
* `Callbacks.performAll_answersFrom` : so every later answer is told by the earlier ones.
-/

namespace ScriptHost

namespace Callbacks

/-- An operation with its answer. -/
abbrev Exchange := Operation × Answer

/-- A registration that was answered with success. -/
def Exchange.Binds (e : Exchange) (name : String) (cb : Callback) : Prop :=
  e = (.register name cb, .registered (.ok ()))

/-- Something is bound to a name, or the name is unregistered. -/
def Exchange.Rebinds (e : Exchange) (name : String) : Prop :=
  (∃ cb, e.Binds name cb) ∨ e.1 = .unregister name

/-- Operations one after another: what was asked and answered, and the host in the end. -/
def performAll : List Operation → Host → List Exchange × Host
  | [], host => ([], host)
  | op :: ops, host =>
    let rest := performAll ops (op.perform host).2
    ((op, (op.perform host).1) :: rest.1, rest.2)

/-- The last thing that happened to a name is that the function was bound to it. -/
def BoundBy (record : List Exchange) (name : String) (cb : Callback) : Prop :=
  ∃ before e after, record = before ++ e :: after ∧ e.Binds name cb ∧
    ∀ later ∈ after, ¬later.Rebinds name

variable {record : List Exchange} {name k : String} {cb : Callback} {host : Host}
  {op : Operation} {ops : List Operation}

theorem performAll_append (ops later : List Operation) (host : Host) :
    performAll (ops ++ later) host =
      ((performAll ops host).1 ++ (performAll later (performAll ops host).2).1,
        (performAll later (performAll ops host).2).2) := by
  induction ops generalizing host with
  | nil => rfl
  | cons op ops ih =>
    rw [List.cons_append, performAll, ih]
    rfl

/-- One operation more. -/
theorem performAll_append_singleton (ops : List Operation) (op : Operation) (host : Host) :
    performAll (ops ++ [op]) host =
      ((performAll ops host).1 ++ [(op, (op.perform (performAll ops host).2).1)],
        (op.perform (performAll ops host).2).2) :=
  performAll_append ops [op] host

/-- The last thing that happened is the binding, or it happened before and has not been undone. -/
theorem boundBy_append_singleton {e : Exchange} :
    BoundBy (record ++ [e]) name cb ↔
      e.Binds name cb ∨ BoundBy record name cb ∧ ¬e.Rebinds name := by
  constructor
  · rintro ⟨before, bound, after, hrecord, hbinds, hafter⟩
    rcases List.eq_nil_or_concat after with rfl | ⟨after, last, rfl⟩
    · obtain ⟨-, hlast⟩ := List.append_inj' hrecord rfl
      exact .inl (List.singleton_inj.1 hlast ▸ hbinds)
    · have hsplit : record ++ [e] = (before ++ bound :: after) ++ [last] := by simpa using hrecord
      obtain ⟨hrecord, hlast⟩ := List.append_inj' hsplit rfl
      rw [List.singleton_inj.1 hlast]
      exact .inr ⟨⟨before, bound, after, hrecord, hbinds, fun later hlater ↦
        hafter later (by simp [hlater])⟩, hafter last (by simp)⟩
  · rintro (hbinds | ⟨⟨before, bound, after, rfl, hbinds, hafter⟩, hlast⟩)
    · exact ⟨record, e, [], rfl, hbinds, by simp⟩
    · refine ⟨before, bound, after ++ [e], by simp, hbinds, fun later hlater ↦ ?_⟩
      rcases List.mem_append.1 hlater with hlater | hlater
      · exact hafter later hlater
      · exact List.mem_singleton.1 hlater ▸ hlast

/-- What is bound after an operation is what it has bound, or what was bound before and what it has
not unbound. -/
theorem get?_perform_eq_some_iff :
    (op.perform host).2.callbacks.get? k = some cb ↔
      Exchange.Binds (op, (op.perform host).1) k cb ∨
        host.callbacks.get? k = some cb ∧ ¬Exchange.Rebinds (op, (op.perform host).1) k := by
  cases op with
  | register name new =>
    cases hregister : host.callbacks.register name new with
    | ok cs =>
      obtain ⟨entry, hperform⟩ := perform_register_of_ok hregister
      rw [hperform, get?_register hregister]
      by_cases hk : k = name
      · simp [Exchange.Binds, Exchange.Rebinds, hk]
      · simp [Exchange.Binds, Exchange.Rebinds, hk, Ne.symm hk]
    | error fault =>
      rw [perform_register_of_error hregister]
      simp [Exchange.Binds, Exchange.Rebinds]
  | unregister name =>
    rw [perform_unregister, get?_erase]
    by_cases hk : k = name
    · simp [Exchange.Binds, Exchange.Rebinds, hk]
    · simp [Exchange.Binds, Exchange.Rebinds, hk, Ne.symm hk]
  | find name kind =>
    rw [callbacks_perform_find]
    simp [Exchange.Binds, Exchange.Rebinds]
  | call name kind args =>
    rw [callbacks_perform_call]
    simp [Exchange.Binds, Exchange.Rebinds]

/-- The table holds what is bound. -/
theorem get?_performAll (hempty : host.callbacks = .empty) (ops : List Operation) :
    (performAll ops host).2.callbacks.get? name = some cb ↔
      BoundBy (performAll ops host).1 name cb := by
  induction ops using List.reverseRecOn generalizing name cb with
  | nil =>
    rw [performAll, hempty]
    simp [get?, Callbacks.empty, BoundBy]
  | append_singleton ops op ih =>
    rw [performAll_append_singleton, boundBy_append_singleton, ← ih]
    exact get?_perform_eq_some_iff

theorem Reached.performAll (h : host.callbacks.Reached) (ops : List Operation) :
    (performAll ops host).2.callbacks.Reached := by
  induction ops generalizing host with
  | nil => exact h
  | cons op ops ih => exact ih (h.perform op)

/-! ### What is answered later -/

/-- A host answers as the earlier exchanges tell. -/
structure AnswersFrom (record : List Exchange) (host : Host) : Prop where
  /-- What is bound is found by its own convention. -/
  found {name : String} {cb : Callback} : BoundBy record name cb →
    (Operation.find name cb.kind).perform host = (.found (some cb), host)
  /-- What is bound is called by its own convention. -/
  called {name : String} {cb : Callback} : BoundBy record name cb → ∀ args,
    (Operation.call name cb.kind args).perform host = answerOf cb args host
  /-- Where nothing of a convention is bound, nothing is found or run, and a record is logged. -/
  unanswered {name : String} {kind : Callback.Kind} :
    (∀ cb, BoundBy record name cb → cb.kind ≠ kind) →
      ∃ entry, (Operation.find name kind).perform host = (.found none, logging host entry) ∧
        ∀ args, (Operation.call name kind args).perform host =
          (.returned .nil, logging host entry)
  /-- A function of a valid name is bound unless something of another convention is. -/
  registered {name : String} {cb : Callback} :
    name ≠ "" ∧ (∀ c ∈ name.toList, Text.isBlank c = false ∧ c ≠ '\x00') →
      (∀ bound, BoundBy record name bound → bound.kind = cb.kind) →
        ((Operation.register name cb).perform host).1 = .registered (.ok ())
  /-- Nothing is bound to an empty name or to one with white space or a zero character. -/
  invalid {name : String} {cb : Callback} :
    (name = "" ∨ ∃ c ∈ name.toList, Text.isBlank c = true ∨ c = '\x00') →
      (Operation.register name cb).perform host = (.registered (.error (.invalidName name)), host)
  /-- What is bound does not give way to a function of another convention. -/
  conflicting {name : String} {cb bound : Callback} : BoundBy record name bound →
    bound.kind ≠ cb.kind → (Operation.register name cb).perform host =
      (.registered (.error (.arityConflict (symbol name) bound.kind cb.kind)), host)
  /-- A name that is unregistered is told to have been bound if it was. -/
  unregistered (name : String) : ∃ wasBound,
    ((Operation.unregister name).perform host).1 = .unregistered wasBound ∧
      (wasBound = true ↔ ∃ cb, BoundBy record name cb)
  /-- The symbols are those of the bound names. -/
  mem_symbols {s : String} :
    s ∈ host.callbacks.symbols ↔ ∃ name cb, BoundBy record name cb ∧ s = symbol name
  /-- They are listed in order, each once. -/
  symbols_pairwise : host.callbacks.symbols.Pairwise (· < ·)
  /-- Bound names are not empty and hold neither white space nor zero characters. -/
  valid {name : String} {cb : Callback} : BoundBy record name cb →
    name ≠ "" ∧ ∀ c ∈ name.toList, Text.isBlank c = false ∧ c ≠ '\x00'

theorem isValidName_iff : isValidName name = true ↔
    name ≠ "" ∧ ∀ c ∈ name.toList, Text.isBlank c = false ∧ c ≠ '\x00' := by
  simp [isValidName]

theorem isValidName_eq_false_iff : isValidName name = false ↔
    name = "" ∨ ∃ c ∈ name.toList, Text.isBlank c = true ∨ c = '\x00' := by
  rw [← Bool.not_eq_true, isValidName_iff]
  push Not
  simp only [ne_eq, Bool.not_eq_true, or_iff_not_imp_left]

/-- The table of a host is all that its answers depend on. -/
theorem answersFrom_of_get? (hreached : host.callbacks.Reached)
    (hget : ∀ name cb, host.callbacks.get? name = some cb ↔ BoundBy record name cb) :
    AnswersFrom record host where
  found hbound := perform_find_of_kind ((hget _ _).2 hbound) rfl
  called hbound args := perform_call_of_kind ((hget _ _).2 hbound) rfl args
  unanswered h := exists_perform_eq_logging fun cb hcb ↦ h cb ((hget _ _).1 hcb)
  registered hname hkind := by
    obtain ⟨cs, hcs⟩ := exists_register_iff.2
      ⟨isValidName_iff.2 hname, fun bound h ↦ hkind bound ((hget _ _).1 h)⟩
    obtain ⟨entry, hperform⟩ := perform_register_of_ok hcs
    rw [hperform]
  invalid hname := perform_register_of_error (by
    rw [register, isValidName_eq_false_iff.2 hname]
    rfl)
  conflicting hbound hkind := perform_register_of_error (by
    have hname := hreached.isValidName _ _ ((hget _ _).2 hbound)
    rw [register, if_pos hname, (hget _ _).2 hbound]
    exact if_neg hkind)
  unregistered name := by
    refine ⟨host.callbacks.contains name, rfl, ?_⟩
    rw [contains, kind?, Option.isSome_map, Option.isSome_iff_exists]
    simp only [hget]
  mem_symbols := by
    intro s
    rw [mem_symbols_iff]
    simp only [hget]
  symbols_pairwise := hreached.symbols_pairwise
  valid hbound := isValidName_iff.1 (hreached.isValidName _ _ ((hget _ _).2 hbound))

/-! ### Failing registrations -/

/-- A registration that does not succeed is answered with a fault and leaves the host as it is. -/
theorem exists_perform_register_eq_fault
    (h : ((Operation.register name cb).perform host).1 ≠ .registered (.ok ())) :
    ∃ fault, (Operation.register name cb).perform host =
      (.registered (.error fault), host) := by
  cases hregister : host.callbacks.register name cb with
  | ok cs =>
    obtain ⟨entry, hperform⟩ := perform_register_of_ok hregister
    exact absurd (congrArg Prod.fst hperform) h
  | error fault => exact ⟨fault, perform_register_of_error hregister⟩

/-! ### One name and the others -/

/-- An operation on another name leaves what is bound to a name. -/
theorem get?_perform_of_ne (h : op.name ≠ k) :
    (op.perform host).2.callbacks.get? k = host.callbacks.get? k := by
  cases op with
  | register name cb =>
    cases hregister : host.callbacks.register name cb with
    | ok cs =>
      obtain ⟨entry, hperform⟩ := perform_register_of_ok hregister
      rw [hperform]
      exact (get?_register hregister).trans (if_neg (Ne.symm h))
    | error fault => rw [perform_register_of_error hregister]
  | unregister name => exact get?_erase.trans (if_neg (Ne.symm h))
  | find name kind => rw [callbacks_perform_find]
  | call name kind args => rw [callbacks_perform_call]

/-- What an operation binds to its name depends on what was bound to that name. -/
theorem get?_perform_congr {host' : Host} (op : Operation)
    (h : host.callbacks.get? op.name = host'.callbacks.get? op.name) :
    (op.perform host).2.callbacks.get? op.name = (op.perform host').2.callbacks.get? op.name := by
  cases op with
  | register name cb =>
    have hget : host.callbacks.get? name = host'.callbacks.get? name := h
    have hiff : (∃ cs, host.callbacks.register name cb = .ok cs) ↔
        ∃ cs, host'.callbacks.register name cb = .ok cs := by
      rw [exists_register_iff, exists_register_iff, hget]
    cases hregister : host.callbacks.register name cb with
    | ok cs =>
      obtain ⟨cs', hregister'⟩ := hiff.1 ⟨cs, hregister⟩
      obtain ⟨entry, hperform⟩ := perform_register_of_ok hregister
      obtain ⟨entry', hperform'⟩ := perform_register_of_ok hregister'
      rw [hperform, hperform']
      exact ((get?_register hregister).trans (if_pos rfl)).trans
        ((get?_register hregister').trans (if_pos rfl)).symm
    | error fault =>
      cases hregister' : host'.callbacks.register name cb with
      | ok cs' => simp [hregister, hregister'] at hiff
      | error fault' =>
        rw [perform_register_of_error hregister, perform_register_of_error hregister']
        exact h
  | unregister name =>
    exact (get?_erase.trans (if_pos rfl)).trans (get?_erase.trans (if_pos rfl)).symm
  | find name kind => rwa [callbacks_perform_find, callbacks_perform_find]
  | call name kind args => rwa [callbacks_perform_call, callbacks_perform_call]

/-- What operations bind to a name is what those of them bind to it that are about the name. -/
theorem get?_performAll_filter {host' : Host}
    (h : host.callbacks.get? k = host'.callbacks.get? k) (ops : List Operation) :
    (performAll ops host).2.callbacks.get? k =
      (performAll (ops.filter (·.name = k)) host').2.callbacks.get? k := by
  induction ops generalizing host host' with
  | nil => exact h
  | cons op ops ih =>
    by_cases hop : op.name = k
    · rw [List.filter_cons, if_pos (decide_eq_true hop)]
      subst hop
      exact ih (get?_perform_congr op h)
    · rw [List.filter_cons, if_neg (by simpa using hop)]
      exact ih ((get?_perform_of_ne hop).trans h)

/-- Only unregistering a name changes the convention of what is bound to it. -/
theorem kind?_perform {kind : Callback.Kind} (hop : op ≠ .unregister name)
    (h : host.callbacks.kind? name = some kind) :
    (op.perform host).2.callbacks.kind? name = some kind := by
  by_cases hname : op.name = name
  · cases op with
    | register opName cb =>
      obtain rfl : opName = name := hname
      cases hregister : host.callbacks.register opName cb with
      | ok cs =>
        obtain ⟨bound, hbound, rfl⟩ := Option.map_eq_some_iff.1 h
        have hkind := (exists_register_iff.1 ⟨cs, hregister⟩).2 bound hbound
        obtain ⟨entry, hperform⟩ := perform_register_of_ok hregister
        rw [hperform, kind?]
        have hget := (get?_register hregister).trans (if_pos rfl)
        exact Option.map_eq_some_iff.2 ⟨cb, hget, hkind.symm⟩
      | error fault => rwa [perform_register_of_error hregister]
    | unregister _ => exact absurd (congrArg Operation.unregister hname) hop
    | find _ _ => rwa [callbacks_perform_find]
    | call _ _ _ => rwa [callbacks_perform_call]
  · rwa [kind?, get?_perform_of_ne hname]

/-- Unless a name is unregistered, the convention of what is bound to it stays. -/
theorem kind?_performAll {kind : Callback.Kind} (hops : .unregister name ∉ ops)
    (h : host.callbacks.kind? name = some kind) :
    (performAll ops host).2.callbacks.kind? name = some kind := by
  induction ops generalizing host with
  | nil => exact h
  | cons op ops ih =>
    rw [List.mem_cons, not_or] at hops
    exact ih hops.2 (kind?_perform (Ne.symm hops.1) h)

/-- The callbacks of a host refine what was asked and answered: later answers are told by it, a
registration that fails changes none of them, the convention of a name changes only by
unregistering it, and operations on other names do not matter to a name. -/
theorem performAll_answersFrom (hempty : host.callbacks = .empty) (ops : List Operation) :
    AnswersFrom (performAll ops host).1 (performAll ops host).2 ∧
      (∀ name cb later,
        ((Operation.register name cb).perform (performAll ops host).2).1 ≠ .registered (.ok ()) →
          ∃ fault, performAll (.register name cb :: later) (performAll ops host).2 =
            ((.register name cb, .registered (.error fault)) ::
              (performAll later (performAll ops host).2).1,
              (performAll later (performAll ops host).2).2)) ∧
      (∀ later name bound cb, BoundBy (performAll ops host).1 name bound →
        BoundBy (performAll (ops ++ later) host).1 name cb → cb.kind ≠ bound.kind →
          .unregister name ∈ later) ∧
      ∀ name cb, BoundBy (performAll ops host).1 name cb ↔
        BoundBy (performAll (ops.filter (·.name = name)) host).1 name cb := by
  have hget := fun name cb ↦ @get?_performAll name cb host hempty
  have hreached : host.callbacks.Reached := hempty ▸ .empty
  refine ⟨answersFrom_of_get? (hreached.performAll ops) fun name cb ↦ hget name cb ops,
    fun name cb later hfailed ↦ ?_, fun later name bound cb hbound hcb ↦ ?_, fun name cb ↦ ?_⟩
  · obtain ⟨fault, hperform⟩ := exists_perform_register_eq_fault hfailed
    exact ⟨fault, by rw [performAll, hperform]⟩
  · rw [← hget, performAll_append] at hcb
    rw [← hget] at hbound
    refine not_imp_comm.1 fun hlater ↦ ?_
    have hkind := kind?_performAll hlater (congrArg (Option.map Callback.kind) hbound)
    exact Option.some.inj ((congrArg (Option.map Callback.kind) hcb).symm.trans hkind)
  · rw [← hget, ← hget, get?_performAll_filter rfl]

/-- A name that was bound, unbound and bound by another convention is found by the new one, and a
third registration, by the old convention, fails and changes nothing. -/
theorem performAll_answersFrom_rebound :
    let single : Callback := ⟨.single, fun _ ↦ pure .nil⟩
    let web : Callback := ⟨.web, fun _ ↦ pure .nil⟩
    let start := Host.inWorld .initial
    let ops := [.register "tick" single, .register "tick" web, .unregister "tick",
      .register "tick" web, .register "two words" single]
    let now := performAll ops start
    start.callbacks = .empty ∧ BoundBy now.1 "tick" web ∧
      (Operation.find "tick" .web).perform now.2 = (.found (some web), now.2) ∧
      (∃ entry, (Operation.find "tick" .single).perform now.2 =
        (.found none, logging now.2 entry)) ∧
      (Operation.register "tick" single).perform now.2 =
        (.registered (.error (.arityConflict (symbol "tick") .web .single)), now.2) := by
  intro single web start ops now
  have hget : now.2.callbacks.get? "tick" = some web := by rfl
  have hbound : BoundBy now.1 "tick" web := (get?_performAll rfl ops).1 hget
  have hnow : AnswersFrom now.1 now.2 := (performAll_answersFrom rfl ops).1
  have hne : ∀ cb, BoundBy now.1 "tick" cb → cb.kind ≠ .single := fun cb hcb ↦ by
    obtain rfl := Option.some.inj (hget.symm.trans ((get?_performAll rfl ops).2 hcb))
    decide
  obtain ⟨entry, hfind, -⟩ := hnow.unanswered hne
  exact ⟨rfl, hbound, hnow.found hbound, ⟨entry, hfind⟩, hnow.conflicting hbound (by decide)⟩

end Callbacks

end ScriptHost
