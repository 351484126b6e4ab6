import Mathlib.Data.List.Nodup
import Mathlib.Data.String.Basic
import Mathlib.Tactic.Common
import ScriptHost.Proofs.Builtin.Registration
import ScriptHost.Proofs.Callback.Calls

/-!
# Operations on the callbacks of a host

The program registers and unregisters functions, and native code finds and calls them, one after
another and in any order.  Each operation is answered; what it does to the table is told by what is
found in it afterwards.

## Main definitions

* `Callbacks.Operation`, `Callbacks.Answer` : what is asked and what is answered.
* `Callbacks.Operation.perform` : carrying out an operation on a host.

## Main results

* `Callbacks.exists_register_iff` : which functions are registered.
* `Callbacks.Reached.symbols_pairwise` : the symbols are listed in order, each once.
* `Callbacks.perform_call_of_kind`, `Callbacks.exists_perform_eq_logging` : what a call runs.
-/

namespace ScriptHost

namespace Callbacks

/-! ### The table -/

section Table

variable {cs cs' : Callbacks} {name k : String} {cb : Callback}

/-- A name that is not bound is not there to be taken out. -/
theorem erase_of_get?_eq_none (h : cs.get? name = none) : cs.erase name = cs := by
  have hne : ∀ e ∈ cs.entries, (e.1 != name) = true := fun e he ↦
    bne_iff_ne.2 (bne_iff_ne.1 (List.lookup_eq_none_iff.1 h e he)).symm
  exact congrArg Callbacks.mk (List.filter_eq_self.2 hne)

/-- A function that is registered takes the place of what was bound to its name. -/
theorem entries_register (h : cs.register name cb = .ok cs') :
    cs'.entries = (name, cb) :: (cs.erase name).entries := by
  rw [register] at h
  split_ifs at h
  split at h
  · split_ifs at h
    exact congrArg entries (Except.ok.inj h).symm
  · rename_i hnone
    rw [erase_of_get?_eq_none hnone]
    exact congrArg entries (Except.ok.inj h).symm

/-- Binding a name changes what is found under it and under no other. -/
theorem get?_register (h : cs.register name cb = .ok cs') :
    cs'.get? k = if k = name then some cb else cs.get? k := by
  rw [get?, entries_register h, List.lookup_cons]
  by_cases hk : k = name
  · simp [hk]
  · rw [beq_eq_false_iff_ne.2 hk, if_neg hk]
    exact get?_erase.trans (if_neg hk)

/-- Functions of valid names are registered where none of another convention is bound. -/
theorem exists_register_iff :
    (∃ cs', cs.register name cb = .ok cs') ↔
      isValidName name = true ∧ ∀ bound, cs.get? name = some bound → bound.kind = cb.kind := by
  rw [register]
  by_cases hname : isValidName name = true
  · rw [if_pos hname, and_iff_right hname]
    cases hbound : cs.get? name with
    | none => simp
    | some bound =>
      by_cases hkind : bound.kind = cb.kind
      · simp [hkind]
      · simp [hkind]
  · simp [hname]

/-! ### The symbols -/

/-- No name is bound twice. -/
def HasDistinctNames (cs : Callbacks) : Prop := (cs.entries.map Prod.fst).Nodup

theorem mem_names_iff : name ∈ cs.entries.map Prod.fst ↔ ∃ cb, cs.get? name = some cb := by
  rw [get?, ← Option.isSome_iff_exists, List.lookup_isSome_iff, List.mem_map]
  simp only [beq_iff_eq, @eq_comm _ name]

theorem HasDistinctNames.erase (h : cs.HasDistinctNames) (name : String) :
    (cs.erase name).HasDistinctNames :=
  h.sublist (List.filter_sublist.map Prod.fst)

theorem HasDistinctNames.register (h : cs.HasDistinctNames)
    (hregister : cs.register name cb = .ok cs') : cs'.HasDistinctNames := by
  rw [HasDistinctNames, entries_register hregister]
  refine List.nodup_cons.2 ⟨fun hmem ↦ ?_, h.erase name⟩
  obtain ⟨bound, hbound⟩ := mem_names_iff.1 hmem
  rw [get?_erase, if_pos rfl] at hbound
  cases hbound

/-- No name is bound twice, whatever was bound and unbound. -/
theorem Reached.hasDistinctNames (h : cs.Reached) : cs.HasDistinctNames := by
  induction h with
  | empty => exact List.nodup_nil
  | register _ hregister ih => exact ih.register hregister
  | unregister name _ ih => exact ih.erase name

theorem symbol_injective : Function.Injective symbol := fun _ _ h ↦ (String.append_right_inj _).1 h

theorem mem_symbols_iff {s : String} :
    s ∈ cs.symbols ↔ ∃ name cb, cs.get? name = some cb ∧ s = symbol name := by
  have hmap : cs.entries.map (fun e ↦ symbol e.1) = (cs.entries.map Prod.fst).map symbol :=
    (List.map_map ..).symm
  rw [symbols, List.mem_mergeSort, hmap, List.mem_map]
  simp only [mem_names_iff]
  exact ⟨fun ⟨name, ⟨cb, hcb⟩, hs⟩ ↦ ⟨name, cb, hcb, hs.symm⟩,
    fun ⟨name, cb, hcb, hs⟩ ↦ ⟨name, ⟨cb, hcb⟩, hs.symm⟩⟩

/-- The symbols are listed in order, each once. -/
theorem Reached.symbols_pairwise (h : cs.Reached) : cs.symbols.Pairwise (· < ·) := by
  have hmap : cs.entries.map (fun e ↦ symbol e.1) = (cs.entries.map Prod.fst).map symbol :=
    (List.map_map ..).symm
  have hdistinct : cs.symbols.Nodup := by
    rw [symbols, (List.mergeSort_perm _ _).nodup_iff, hmap]
    exact h.hasDistinctNames.map symbol_injective
  have hle : ∀ a b : String, (!decide (b < a)) = true ↔ a ≤ b := fun a b ↦ by simp [← not_lt]
  have hsorted := @List.pairwise_mergeSort String (fun a b ↦ !decide (b < a))
    (fun a b c hab hbc ↦ (hle a c).2 (((hle a b).1 hab).trans ((hle b c).1 hbc)))
    (fun a b ↦ by rw [Bool.or_eq_true, hle, hle]; exact le_total a b)
    (cs.entries.map fun e ↦ symbol e.1)
  exact hsorted.imp₂ (fun a b hab hne ↦ lt_of_le_of_ne ((hle a b).1 hab) hne) hdistinct

end Table

/-! ### Operations -/

/-- An operation on the callbacks of a host. -/
inductive Operation where
  | register (name : String) (cb : Callback)
  | unregister (name : String)
  | find (name : String) (kind : Callback.Kind)
  | call (name : String) (kind : Callback.Kind) (args : List Value)

/-- What an operation is answered. -/
inductive Answer where
  | registered (outcome : Except Fault Unit)
  | unregistered (found : Bool)
  | found (cb? : Option Callback)
  | returned (v : Value)
  /-- The function that was called has failed or panicked. -/
  | aborted (e : Abort)

namespace Operation

/-- The name that an operation is about. -/
def name : Operation → String
  | register name _ => name
  | unregister name => name
  | find name _ => name
  | call name _ _ => name

/-- An operation as an action on the host. -/
def run : Operation → Native Answer
  | register name cb => return .registered (← Native.register name cb)
  | unregister name => return .unregistered (← Native.unregister name)
  | find name kind => return .found (← (← get).callbacks.find name kind)
  | call name kind args => return .returned (← (← get).callbacks.call name kind args)

/-- What an operation is answered, and the host after it. -/
def perform (op : Operation) (host : Host) : Answer × Host :=
  match op.run host with
  | .ok answer host => (answer, host)
  | .error e host => (.aborted e, host)

end Operation

/-- A host on which a record was logged, and nothing else happened. -/
def logging (host : Host) (entry : Log.Entry) : Host :=
  { host with world := { host.world with log := host.world.log.push entry } }

/-- What comes of a function that is called on a host. -/
def answerOf (cb : Callback) (args : List Value) (host : Host) : Answer × Host :=
  match cb.run args host.world with
  | .ok v world => (.returned v, { host with world })
  | .error e world => (.aborted e, { host with world })

variable {cs : Callbacks} {name : String} {cb : Callback} {kind : Callback.Kind}
  {args : List Value} {host : Host}

/-- A function that is registered is bound, and a record is logged. -/
theorem perform_register_of_ok (h : host.callbacks.register name cb = .ok cs) :
    ∃ entry, (Operation.register name cb).perform host =
      (.registered (.ok ()), { logging host entry with callbacks := cs }) := by
  refine ⟨⟨.debug, .callbacks, "registered " ++ symbol name ++ " (" ++ cb.kind.name ++ ")"⟩, ?_⟩
  have hrun : Native.register name cb host = _ := Native.get_bind _ host
  rw [h] at hrun
  rw [Operation.perform, Operation.run, Native.bind_of_ok hrun]
  rfl

/-- A function that is not registered leaves the host as it is. -/
theorem perform_register_of_error {fault : Fault}
    (h : host.callbacks.register name cb = .error fault) :
    (Operation.register name cb).perform host = (.registered (.error fault), host) := by
  have hrun : Native.register name cb host = _ := Native.get_bind _ host
  rw [h] at hrun
  rw [Operation.perform, Operation.run, Native.bind_of_ok hrun]
  rfl

theorem perform_unregister : (Operation.unregister name).perform host =
    (.unregistered (host.callbacks.contains name),
      { host with callbacks := host.callbacks.erase name }) := rfl

/-- A function that is bound with the convention asked for is found. -/
theorem perform_find_of_kind (hget : host.callbacks.get? name = some cb) (hkind : cb.kind = kind) :
    (Operation.find name kind).perform host = (.found (some cb), host) := by
  have hrun : (Operation.find name kind).run host = _ := Native.get_bind _ host
  rw [Native.bind_of_ok (Native.liftM_of_ok (find_of_get? hget hkind host.world))] at hrun
  rw [Operation.perform, hrun]
  rfl

/-- A function that is bound with the convention asked for is called. -/
theorem perform_call_of_kind (hget : host.callbacks.get? name = some cb) (hkind : cb.kind = kind)
    (args : List Value) :
    (Operation.call name kind args).perform host = answerOf cb args host := by
  have hcall := host.callbacks.call_of_get? hget hkind args host.world
  have hrun : (Operation.call name kind args).run host = _ := Native.get_bind _ host
  rw [Operation.perform, hrun, answerOf]
  cases hresult : cb.run args host.world with
  | ok v world =>
    rw [Native.bind_of_ok (Native.liftM_of_ok (hcall.trans hresult))]
    rfl
  | error e world =>
    rw [Native.bind_of_error (Native.liftM_of_error (hcall.trans hresult))]

/-- Without a function of the convention asked for nothing is found and nothing is called. -/
theorem exists_perform_eq_logging
    (h : ∀ cb, host.callbacks.get? name = some cb → cb.kind ≠ kind) :
    ∃ entry, (Operation.find name kind).perform host = (.found none, logging host entry) ∧
      ∀ args, (Operation.call name kind args).perform host =
        (.returned .nil, logging host entry) := by
  obtain ⟨entry, hfind, hcall⟩ := exists_call_eq_nil h host.world
  refine ⟨entry, ?_, fun args ↦ ?_⟩
  · have hrun : (Operation.find name kind).run host = _ := Native.get_bind _ host
    rw [Native.bind_of_ok (Native.liftM_of_ok hfind)] at hrun
    rw [Operation.perform, hrun]
    rfl
  · have hrun : (Operation.call name kind args).run host = _ := Native.get_bind _ host
    rw [Native.bind_of_ok (Native.liftM_of_ok (hcall args))] at hrun
    rw [Operation.perform, hrun]
    rfl

/-! ### What an operation does to the table -/

/-- Finding leaves the table as it is. -/
theorem callbacks_perform_find (name : String) (kind : Callback.Kind) (host : Host) :
    ((Operation.find name kind).perform host).2.callbacks = host.callbacks := by
  by_cases h : ∃ cb, host.callbacks.get? name = some cb ∧ cb.kind = kind
  · obtain ⟨cb, hget, hkind⟩ := h
    rw [perform_find_of_kind hget hkind]
  · push Not at h
    obtain ⟨entry, hfind, -⟩ := exists_perform_eq_logging h
    rw [hfind]
    rfl

/-- Calling leaves the table as it is. -/
theorem callbacks_perform_call (name : String) (kind : Callback.Kind) (args : List Value)
    (host : Host) :
    ((Operation.call name kind args).perform host).2.callbacks = host.callbacks := by
  by_cases h : ∃ cb, host.callbacks.get? name = some cb ∧ cb.kind = kind
  · obtain ⟨cb, hget, hkind⟩ := h
    rw [perform_call_of_kind hget hkind, answerOf]
    split <;> rfl
  · push Not at h
    obtain ⟨entry, -, hcall⟩ := exists_perform_eq_logging h
    rw [hcall]
    rfl

/-- The table after an operation is one that binding and unbinding lead to. -/
theorem Reached.perform (h : host.callbacks.Reached) (op : Operation) :
    (op.perform host).2.callbacks.Reached := by
  cases op with
  | register name cb =>
    cases hregister : host.callbacks.register name cb with
    | ok cs =>
      obtain ⟨entry, hperform⟩ := perform_register_of_ok hregister
      rw [hperform]
      exact h.register hregister
    | error fault =>
      rw [perform_register_of_error hregister]
      exact h
  | unregister name => exact h.unregister name
  | find name kind => rwa [callbacks_perform_find]
  | call name kind args => rwa [callbacks_perform_call]

end Callbacks

end ScriptHost
