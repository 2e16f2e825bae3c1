/-
# Deferral.Proofs.Store.Calls -- calls on a service, and what they write

A `Call` is one of the operations of a service that concern its items, or the passing of
time between them. A call writes at most one item, and it writes it by `save`: this is the
only thing it does to the store, and if the call fails then the saving did. Runs are
sequences of calls, each in the state that the one before it left, and `Service.Along` is
the induction over them.
-/

import Deferral.Proofs.Store.Files
import Deferral.Service

namespace Deferral

/-! ## Actions -/

section

-- What an action works on does not matter here: these hold of the parts of a command, too.
variable {σ α β γ δ : Type} {x : ExceptT Failure (StateM σ) α}
  {f : α → ExceptT Failure (StateM σ) β} {g : α → ExceptT Failure (StateM σ) γ}
  {k : γ → ExceptT Failure (StateM σ) δ} {handler : Failure → ExceptT Failure (StateM σ) γ}
  {service service' service'' : σ}

theorem Action.bind_ok {a : α} (h : x service = (.ok a, service')) :
    (x >>= f) service = f a service' := by
  show (ExceptT.bind x f) service = _
  simp only [ExceptT.bind, ExceptT.mk, bind, StateT.bind, h, ExceptT.bindCont]

theorem Action.bind_error {failure : Failure} (h : x service = (.error failure, service')) :
    (x >>= f) service = (.error failure, service') := by
  show (ExceptT.bind x f) service = _
  simp only [ExceptT.bind, ExceptT.mk, bind, StateT.bind, h, ExceptT.bindCont]
  rfl

/-- Steps that succeed together succeed one after the other. -/
theorem Action.bind_eq_ok {b : β} (h : (x >>= f) service = (.ok b, service'')) :
    ∃ a middle, x service = (.ok a, middle) ∧ f a middle = (.ok b, service'') := by
  rcases hx : x service with ⟨failure | a, middle⟩
  · cases (Action.bind_error hx).symm.trans h
  · exact ⟨a, middle, rfl, (Action.bind_ok hx).symm.trans h⟩

/-- What follows a step depends on what the step does in this state alone. -/
theorem Action.bind_congr {y : ExceptT Failure (StateM σ) α} (h : x service = y service) :
    (x >>= f) service = (y >>= f) service := by
  rcases hy : y service with ⟨failure | a, after⟩
  · rw [Action.bind_error (h.trans hy), Action.bind_error hy]
  · rw [Action.bind_ok (h.trans hy), Action.bind_ok hy]

/-- What each of two steps does to the state, if it adds up, is what they do together. -/
theorem Action.bind_rel {r : σ → σ → Prop}
    (htrans : ∀ {before middle after}, r before middle → r middle after → r before after)
    (hx : ∀ service, r service (x service).2) (hf : ∀ a service, r service (f a service).2)
    (service : σ) : r service ((x >>= f) service).2 := by
  have hfirst := hx service
  rcases hstep : x service with ⟨failure | a, after⟩
  · rw [hstep] at hfirst
    rw [Action.bind_error hstep]
    exact hfirst
  · rw [hstep] at hfirst
    rw [Action.bind_ok hstep]
    exact htrans hfirst (hf a after)

theorem Action.ofExcept_run (x : Except Failure α) (service : σ) :
    (ofExcept x : ExceptT Failure (StateM σ) α) service = (x, service) := by
  cases x <;> rfl

theorem Action.tryCatch_ok {a : α} {handler : Failure → ExceptT Failure (StateM σ) α}
    (h : x service = (.ok a, service')) : tryCatch x handler service = (.ok a, service') := by
  show (ExceptT.tryCatch x handler) service = _
  simp only [ExceptT.tryCatch, ExceptT.mk, bind, StateT.bind, h]
  rfl

theorem Action.tryCatch_error {failure : Failure} {handler : Failure → ExceptT Failure (StateM σ) α}
    (h : x service = (.error failure, service')) :
    tryCatch x handler service = handler failure service' := by
  show (ExceptT.tryCatch x handler) service = _
  simp only [ExceptT.tryCatch, ExceptT.mk, bind, StateT.bind, h]

/-- A step that is tried succeeds, and so does what follows it. -/
theorem Action.try_ok {a : α} {c : γ} (h : x service = (.ok a, service'))
    (hg : g a service' = (.ok c, service')) :
    (tryCatch (x >>= g) handler >>= k) service = k c service' := by
  have htry : (x >>= g) service = (.ok c, service') := (Action.bind_ok h).trans hg
  rw [Action.bind_ok (Action.tryCatch_ok htry)]

/-- A step that is tried fails, and what handles the failure succeeds. -/
theorem Action.try_handled {failure : Failure} {c : γ} (h : x service = (.error failure, service'))
    (hhandler : handler failure service' = (.ok c, service'')) :
    (tryCatch (x >>= g) handler >>= k) service = k c service'' := by
  have htry : (x >>= g) service = (.error failure, service') := Action.bind_error h
  rw [Action.bind_ok ((Action.tryCatch_error htry).trans hhandler)]

/-- A step that is tried fails, and so does what handles the failure. -/
theorem Action.try_error {failure failure' : Failure} (h : x service = (.error failure, service'))
    (hhandler : handler failure service' = (.error failure', service'')) :
    (tryCatch (x >>= g) handler >>= k) service = (.error failure', service'') := by
  have htry : (x >>= g) service = (.error failure, service') := Action.bind_error h
  rw [Action.bind_error ((Action.tryCatch_error htry).trans hhandler)]

end

/-! ## Items to save -/

/-- An id that names a file has a text. -/
theorem plainString_of_fileName {id : Value} {name : String} (h : Store.fileName id = .ok name) :
    ∃ text, id.plainString = .ok text := by
  obtain ⟨n, hn, h⟩ := bind_eq_ok h
  obtain ⟨digits, hdigits, -⟩ := bind_eq_ok h
  cases id with
  | bool b => exact ⟨_, rfl⟩
  | int m =>
      cases hn
      refine ⟨String.ofList digits, ?_⟩
      rw [Value.plainString, Value.plain, Value.literal, hdigits]
      · rfl
      all_goals simp
  | float x => exact ⟨_, rfl⟩
  | text s => exact ⟨_, rfl⟩
  | _ => cases hn

namespace Store

/-- Saves an item and gives it back. -/
def saveItem (store : Store) (item : Item) : Except Failure Item × Store :=
  ((store.save item).1.map fun _ => item, (store.save item).2)

/-- The item that an update goes on to save. -/
def updated? (store : Store) (id : Value) (changes : List (String × Value)) : Option Item :=
  if (unknownNames changes).isEmpty then (store.changed id (knownChanges changes)).toOption
  else none

/-- The item that a redaction goes on to save. -/
def redacted? (store : Store) (id : Value) (item : Option Item) (now : DateTime) : Option Item :=
  match store.redactionOf id item now with
  | .ok (id, changes) => (store.changed (.int id) changes).toOption
  | .error _ => none

theorem update_cases (store : Store) (id : Value) (changes : List (Field × Value)) :
    (∃ failure, store.changed id changes = .error failure ∧
      store.update id changes = (.error failure, store)) ∨
    ∃ item, store.changed id changes = .ok item ∧
      store.update id changes = store.saveItem item := by
  rw [update]
  cases hchanged : store.changed id changes with
  | error failure => exact Or.inl ⟨failure, rfl, rfl⟩
  | ok item =>
      refine Or.inr ⟨item, rfl, ?_⟩
      dsimp only
      rw [saveItem]
      generalize store.save item = outcome
      obtain ⟨_ | _, saved⟩ := outcome <;> rfl

/-- An update fails and leaves the store alone, or it saves an item. -/
theorem updateNamed_cases (store : Store) (id : Value) (changes : List (String × Value)) :
    (store.updated? id changes = none ∧
      ∃ failure, store.updateNamed id changes = (.error failure, store)) ∨
    ∃ item, store.updated? id changes = some item ∧
      store.updateNamed id changes = store.saveItem item := by
  rw [updated?, updateNamed]
  split
  · rcases store.update_cases id (knownChanges changes) with
      ⟨failure, hchanged, hupdate⟩ | ⟨item, hchanged, hupdate⟩
    · exact Or.inl ⟨by rw [hchanged]; rfl, failure, hupdate⟩
    · exact Or.inr ⟨item, by rw [hchanged]; rfl, hupdate⟩
  · exact Or.inl ⟨rfl, _, rfl⟩

/-- A redaction fails and leaves the store alone, or it saves an item. -/
theorem redact_cases (store : Store) (id : Value) (item : Option Item) (now : DateTime) :
    (store.redacted? id item now = none ∧
      ∃ failure, store.redact id item now = (.error failure, store)) ∨
    ∃ result, store.redacted? id item now = some result ∧
      store.redact id item now = store.saveItem result := by
  rw [redacted?, redact]
  cases hredaction : store.redactionOf id item now with
  | error failure => exact Or.inl ⟨rfl, failure, rfl⟩
  | ok changes =>
      obtain ⟨n, changes⟩ := changes
      rcases store.update_cases (.int n) changes with
        ⟨failure, hchanged, hupdate⟩ | ⟨result, hchanged, hupdate⟩
      · exact Or.inl ⟨by dsimp only; rw [hchanged]; rfl, failure, hupdate⟩
      · exact Or.inr ⟨result, by dsimp only; rw [hchanged]; rfl, hupdate⟩

/-- What an update saves is a stored item after the changes, all of which are of known
fields. -/
theorem updated?_eq_some {store : Store} {id : Value} {changes : List (String × Value)}
    {item : Item} (h : store.updated? id changes = some item) :
    (unknownNames changes).isEmpty = true ∧
      store.changed id (knownChanges changes) = .ok item := by
  rw [updated?] at h
  split at h
  · next hknown =>
      refine ⟨hknown, ?_⟩
      cases hchanged : store.changed id (knownChanges changes) with
      | error failure =>
          rw [hchanged] at h
          cases h
      | ok item' =>
          rw [hchanged] at h
          cases h
          rfl
  · cases h

/-- What a redaction saves is a stored item after changes that redact the item that was
given, or else the stored one. -/
theorem redacted?_eq_some {store : Store} {id : Value} {given : Option Item} {now : DateTime}
    {item : Item} (h : store.redacted? id given now = some item) :
    ∃ n base changes, id.toInteger = .ok n ∧ base.redaction now = .ok changes ∧
      store.changed (.int n) changes = .ok item ∧
      (given = some base ∨ given = none ∧ store.find (.int n) = .ok (some base)) := by
  rw [redacted?] at h
  cases hredaction : store.redactionOf id given now with
  | error failure =>
      rw [hredaction] at h
      cases h
  | ok pair =>
      rw [hredaction] at h
      obtain ⟨base, hbase, hpair⟩ := bind_eq_ok hredaction
      obtain ⟨changes, hchanges, hpair⟩ := bind_eq_ok hpair
      obtain ⟨n, hn, hpair⟩ := bind_eq_ok hpair
      cases hpair
      have hchanged : store.changed (.int n) changes = .ok item := by
        dsimp only at h
        cases hc : store.changed (.int n) changes with
        | error failure =>
            rw [hc] at h
            cases h
        | ok item' =>
            rw [hc] at h
            cases h
            rfl
      refine ⟨n, base, changes, hn, hchanges, hchanged, ?_⟩
      cases given with
      | some given =>
          cases hbase
          exact Or.inl rfl
      | none =>
          obtain ⟨n', hn', hget⟩ := bind_eq_ok hbase
          obtain rfl : n' = n := Except.ok.inj (hn'.symm.trans hn)
          exact Or.inr ⟨rfl, find_of_get hget⟩

end Store

/-! ## Operations of the service -/

namespace Service

/-- What an operation leaves of the store when it goes on to save an item, or none. If the
operation fails, then the saving did. -/
structure Writes {α : Type} (service : Service) (item? : Option Item)
    (outcome : Except Failure α × Service) : Prop where
  store : outcome.2.store = item?.elim service.store fun item => (service.store.save item).2
  fails : ∀ item, item? = some item → (∃ failure, outcome.1 = .error failure) →
    ∃ failure, (service.store.save item).1 = .error failure

/-- Recording does not fail. -/
theorem noteSaved_run (service : Service) (item : Item) :
    ∃ log, noteSaved item service = (.ok (), { service with log }) := ⟨_, rfl⟩

/-- What ends in the same store, and fails only together, writes the same. -/
theorem Writes.of_outcome {α β : Type} {service service' : Service} {item? : Option Item}
    {outcome : Except Failure α × Service} {outcome' : Except Failure β × Service}
    (h : Writes service item? outcome) (hstart : service'.store = service.store)
    (hend : outcome'.2.store = outcome.2.store)
    (hfail : (∃ failure, outcome'.1 = .error failure) → ∃ failure, outcome.1 = .error failure) :
    Writes service' item? outcome' where
  store := by rw [hend, hstart, h.store]
  fails := by
    intro item hitem hf
    rw [hstart]
    exact h.fails item hitem (hfail hf)

/-- An operation that saves nothing. -/
theorem writes_none {α : Type} {service : Service} {outcome : Except Failure α × Service}
    (h : outcome.2.store = service.store) : Writes service none outcome where
  store := h
  fails := by
    intro item hitem
    cases hitem

theorem writes_of_save_error {α : Type} {service : Service} {item : Item} {failure : Failure}
    {outcome : Except Failure α × Service} (hsave : (service.store.save item).1 = .error failure)
    (h : outcome.2.store = (service.store.save item).2) : Writes service (some item) outcome where
  store := h
  fails := by
    intro item' hitem _
    cases hitem
    exact ⟨failure, hsave⟩

theorem writes_of_ok {α : Type} {service : Service} {item : Item} {a : α}
    {outcome : Except Failure α × Service} (hok : outcome.1 = .ok a)
    (h : outcome.2.store = (service.store.save item).2) : Writes service (some item) outcome where
  store := h
  fails := by
    rintro _ _ ⟨failure, hfails⟩
    rw [hok] at hfails
    cases hfails

theorem save_writes (service : Service) (item : Item) :
    Writes service (some item) (save item service) := by
  have hstore : onStore (·.save item) service =
      ((service.store.save item).1, { service with store := (service.store.save item).2 }) := rfl
  cases hsave : (service.store.save item).1 with
  | error failure =>
      rw [hsave] at hstore
      rw [save, Action.bind_error hstore]
      exact writes_of_save_error hsave rfl
  | ok =>
      rw [hsave] at hstore
      obtain ⟨log, hnote⟩ :=
        noteSaved_run { service with store := (service.store.save item).2 } item
      rw [save, Action.bind_ok hstore, hnote]
      exact writes_of_ok rfl rfl

/-- An operation on the store that saves an item at most, and its record. Either it fails with
nothing saved, or the saving decides. -/
theorem onStore_cases (service : Service) (act : Store → Except Failure Item × Store)
    {item? : Option Item}
    (h : (item? = none ∧ ∃ failure, act service.store = (.error failure, service.store)) ∨
      ∃ item, item? = some item ∧ act service.store = service.store.saveItem item)
    {outcome : Except Failure Item × Service}
    (hrun : (do let item ← onStore act; noteSaved item; return item : Action Item) service =
      outcome) :
    (item? = none ∧ ∃ failure, act service.store = (.error failure, service.store) ∧
      outcome = (.error failure, service)) ∨
    ∃ item, item? = some item ∧
      ((∃ failure, (service.store.save item).1 = .error failure ∧
        outcome = (.error failure, { service with store := (service.store.save item).2 })) ∨
      (service.store.save item).1 = .ok () ∧ ∃ log,
        outcome = (.ok item, { service with store := (service.store.save item).2, log })) := by
  have hstore : onStore act service =
      ((act service.store).1, { service with store := (act service.store).2 }) := rfl
  rcases h with ⟨rfl, failure, hact⟩ | ⟨item, rfl, hact⟩
  · rw [hact] at hstore
    rw [Action.bind_error hstore] at hrun
    exact Or.inl ⟨rfl, failure, hact, hrun.symm⟩
  · refine Or.inr ⟨item, rfl, ?_⟩
    rw [hact] at hstore
    cases hsave : (service.store.save item).1 with
    | error failure =>
        have hresult : (service.store.saveItem item).1 = .error failure := by
          rw [Store.saveItem, hsave]
          rfl
        rw [hresult] at hstore
        rw [Action.bind_error hstore] at hrun
        exact Or.inl ⟨failure, rfl, hrun.symm⟩
    | ok =>
        have hresult : (service.store.saveItem item).1 = .ok item := by
          rw [Store.saveItem, hsave]
          rfl
        have hend : (service.store.saveItem item).2 = (service.store.save item).2 := rfl
        rw [hresult, hend] at hstore
        obtain ⟨log, hnote⟩ :=
          noteSaved_run { service with store := (service.store.save item).2 } item
        rw [Action.bind_ok hstore, Action.bind_ok hnote] at hrun
        exact Or.inr ⟨rfl, log, hrun.symm⟩

theorem onStore_writes {service : Service} {act : Store → Except Failure Item × Store}
    {item? : Option Item}
    (h : (item? = none ∧ ∃ failure, act service.store = (.error failure, service.store)) ∨
      ∃ item, item? = some item ∧ act service.store = service.store.saveItem item) :
    Writes service item?
      ((do let item ← onStore act; noteSaved item; return item : Action Item) service) := by
  rcases onStore_cases service act h rfl with
    ⟨rfl, failure, -, hrun⟩ | ⟨item, rfl, ⟨failure, hsave, hrun⟩ | ⟨hsave, log, hrun⟩⟩
  · rw [hrun]
    exact writes_none rfl
  · rw [hrun]
    exact writes_of_save_error hsave rfl
  · rw [hrun]
    exact writes_of_ok rfl rfl

theorem update_writes (service : Service) (id : Value) (changes : List (String × Value)) :
    Writes service (service.store.updated? id changes) (update id changes service) :=
  onStore_writes (service.store.updateNamed_cases id changes)

theorem redact_writes (service : Service) (id : Value) (item : Option Item)
    (now : Option DateTime) :
    Writes service (service.store.redacted? id item (now.getD service.clock))
      (redact id item now service) := by
  have htime : timeOr now service = (.ok (now.getD service.clock), service) := rfl
  rw [redact, Action.bind_ok htime]
  exact onStore_writes (service.store.redact_cases id item (now.getD service.clock))

/-- A redaction ends as the saving of what it goes on to save does, if it does so. -/
theorem redact_outcome (service : Service) (id : Value) (item : Option Item)
    (now : Option DateTime) :
    (service.store.redacted? id item (now.getD service.clock) = none ∧ ∃ failure,
      service.store.redact id item (now.getD service.clock) = (.error failure, service.store) ∧
      redact id item now service = (.error failure, service)) ∨
    ∃ result, service.store.redacted? id item (now.getD service.clock) = some result ∧
      ((∃ failure, (service.store.save result).1 = .error failure ∧ redact id item now service =
        (.error failure, { service with store := (service.store.save result).2 })) ∨
      (service.store.save result).1 = .ok () ∧ ∃ log, redact id item now service =
        (.ok result, { service with store := (service.store.save result).2, log })) := by
  have htime : timeOr now service = (.ok (now.getD service.clock), service) := rfl
  rw [redact, Action.bind_ok htime]
  exact service.onStore_cases (·.redact id item (now.getD service.clock))
    (service.store.redact_cases id item (now.getD service.clock)) rfl

/-- The state in which a deletion that is due is begun. -/
def notedDeletion (service : Service) (id : Int) : Service :=
  { service with log := service.log ++ recordsOf .info (messageOn "Deleting item" id) }

theorem deleteDue_of_ok {service after : Service} {id : Int} {item : Item}
    (h : redact (.int id) none none (service.notedDeletion id) = (.ok item, after)) :
    deleteDue id service = (.ok (some item), after) := by
  have hnote : note .info (messageOn "Deleting item" id) service =
      (.ok (), service.notedDeletion id) := rfl
  rw [deleteDue, Action.bind_ok hnote]
  exact Action.try_ok h (c := Except.error (some item)) rfl

theorem deleteDue_of_notFound {service after : Service} {id n : Int}
    (h : redact (.int id) none none (service.notedDeletion id) =
      (.error (.itemNotFound n), after)) :
    ∃ log, deleteDue id service = (.ok none, { after with log }) := by
  have hnote : note .info (messageOn "Deleting item" id) service =
      (.ok (), service.notedDeletion id) := rfl
  refine ⟨after.log ++ recordsOf .warning
    (messageOn "Attempted to delete an item that does not exist:" id), ?_⟩
  rw [deleteDue, Action.bind_ok hnote]
  exact Action.try_handled h (c := Except.error none) rfl

theorem deleteDue_of_error {service after : Service} {id : Int} {failure : Failure}
    (hfailure : ∀ n, failure ≠ .itemNotFound n)
    (h : redact (.int id) none none (service.notedDeletion id) = (.error failure, after)) :
    deleteDue id service = (.error failure, after) := by
  have hnote : note .info (messageOn "Deleting item" id) service =
      (.ok (), service.notedDeletion id) := rfl
  rw [deleteDue, Action.bind_ok hnote]
  refine Action.try_error h ?_
  split
  · next n => exact absurd rfl (hfailure n)
  · rfl

/-- A deletion that is due redacts the stored item. That there is none is no failure. -/
theorem deleteDue_writes (service : Service) (id : Int) :
    Writes service (service.store.redacted? (.int id) none service.clock)
      (deleteDue id service) := by
  have hredact := redact_writes (service.notedDeletion id) (.int id) none none
  rcases hr : redact (.int id) none none (service.notedDeletion id) with ⟨failure | item, after⟩
  · rw [hr] at hredact
    by_cases hfailure : ∃ n, failure = .itemNotFound n
    · obtain ⟨n, rfl⟩ := hfailure
      obtain ⟨log, hrun⟩ := deleteDue_of_notFound hr
      rw [hrun]
      exact hredact.of_outcome rfl rfl fun _ => ⟨_, rfl⟩
    · rw [deleteDue_of_error (fun n hn => hfailure ⟨n, hn⟩) hr]
      exact hredact.of_outcome rfl rfl fun _ => ⟨failure, rfl⟩
  · rw [hr] at hredact
    rw [deleteDue_of_ok hr]
    refine hredact.of_outcome rfl rfl ?_
    rintro ⟨failure, hfails⟩
    cases hfails

/-- A publication that is due leaves the store alone. -/
theorem publishDue_writes (service : Service) (id : Int) :
    Writes service none (publishDue id service) := by
  let noted : Service :=
    { service with log := service.log ++ recordsOf .info (messageOn "Posting scheduled item" id) }
  have hnote : note .info (messageOn "Posting scheduled item" id) service = (.ok (), noted) := rfl
  have hget : (get : Action Service) noted = (.ok noted, noted) := rfl
  refine writes_none ?_
  rw [publishDue, Action.bind_ok hnote, Action.bind_ok hget]
  cases noted.published <;> rfl

/-- The id of the item that a job deletes, if it is for a deletion. -/
def dueDeletion? (name payload : Value) : Option Int :=
  match JobKind.ofValue name, (payload.select "id").bind Value.toInteger with
  | .ok .delete, .ok id => some id
  | _, _ => none

theorem handle_writes (service : Service) (name payload : Value) :
    Writes service
      ((dueDeletion? name payload).bind fun id =>
        service.store.redacted? (.int id) none service.clock)
      (handle name payload service) := by
  cases hkind : JobKind.ofValue name with
  | error failure =>
      have hdue : dueDeletion? name payload = none := by rw [dueDeletion?, hkind]
      rw [hdue, handle, hkind, Action.bind_error (Action.ofExcept_run _ _)]
      exact writes_none rfl
  | ok kind =>
      rw [handle, hkind, Action.bind_ok (Action.ofExcept_run _ _)]
      cases hid : (payload.select "id").bind Value.toInteger with
      | error failure =>
          have hdue : dueDeletion? name payload = none := by
            rw [dueDeletion?, hkind, hid]
            cases kind <;> rfl
          rw [hdue, Action.bind_error (Action.ofExcept_run _ _)]
          exact writes_none rfl
      | ok id =>
          rw [Action.bind_ok (Action.ofExcept_run _ _)]
          cases kind with
          | delete =>
              have hdue : dueDeletion? name payload = some id := by rw [dueDeletion?, hkind, hid]
              rw [hdue, Option.bind_some]
              exact deleteDue_writes service id
          | publish =>
              have hdue : dueDeletion? name payload = none := by rw [dueDeletion?, hkind, hid]
              rw [hdue, Option.bind_none]
              exact publishDue_writes service id

end Service

/-! ## Calls -/

/-- A call on a service, or the passing of time. -/
inductive Call where
  /-- Time passes until the clock shows this. -/
  | wait (clock : DateTime)
  | save (item : Item)
  | find (id : Value)
  | update (id : Value) (changes : List (String × Value))
  | redact (id : Value) (item : Option Item) (now : Option DateTime)
  | handle (name payload : Value)

namespace Call

/-- What a call does. -/
def act : Call → Action (Option Item)
  | wait clock => do
    modify fun service => { service with clock }
    return none
  | save item => do
    Service.save item
    return none
  | find id => Service.find id
  | update id changes => do return some (← Service.update id changes)
  | redact id item now => do return some (← Service.redact id item now)
  | handle name payload => Service.handle name payload

/-- The result of a call, and the service after it. -/
def run (call : Call) (service : Service) : Except Failure (Option Item) × Service :=
  call.act service

/-- The item that a call goes on to save. -/
def written? (service : Service) : Call → Option Item
  | wait _ | find _ => none
  | save item => some item
  | update id changes => service.store.updated? id changes
  | redact id item now => service.store.redacted? id item (now.getD service.clock)
  | handle name payload => (Service.dueDeletion? name payload).bind fun id =>
    service.store.redacted? (.int id) none service.clock

/-- What comes after an action without failing leaves its writing as it is. -/
theorem writes_bind {α : Type} {service : Service} {item? : Option Item} {x : Action α}
    (h : Service.Writes service item? (x service)) (f : α → Option Item) :
    Service.Writes service item? ((do return f (← x) : Action (Option Item)) service) := by
  rcases hx : x service with ⟨failure | a, after⟩
  · rw [hx] at h
    rw [Action.bind_error hx]
    exact h.of_outcome rfl rfl fun _ => ⟨failure, rfl⟩
  · rw [hx] at h
    rw [Action.bind_ok hx]
    refine h.of_outcome rfl rfl ?_
    rintro ⟨failure, hfails⟩
    cases hfails

/-- All that a call does to the store is to save one item, or nothing, and if it fails
although it goes on to save an item then the saving fails. -/
theorem run_writes (call : Call) (service : Service) :
    Service.Writes service (call.written? service) (call.run service) := by
  cases call with
  | wait clock => exact Service.writes_none rfl
  | save item => exact writes_bind (service.save_writes item) fun _ => none
  | find id =>
      refine Service.writes_none ?_
      show (Service.find id service).2.store = service.store
      have hget : (get : Action Service) service = (.ok service, service) := rfl
      rw [Service.find, Action.bind_ok hget]
      cases service.store.find id <;> rfl
  | update id changes => exact writes_bind (service.update_writes id changes) some
  | redact id item now => exact writes_bind (service.redact_writes id item now) some
  | handle name payload => exact service.handle_writes name payload

/-- An update that goes on to save an item ends as the saving does, and gives the item. -/
theorem run_update {service : Service} {id : Value} {changes : List (String × Value)}
    {item : Item} (h : service.store.updated? id changes = some item) :
    (∃ failure, (service.store.save item).1 = .error failure ∧
      (update id changes).run service =
        (.error failure, { service with store := (service.store.save item).2 })) ∨
    (service.store.save item).1 = .ok () ∧ ∃ log, (update id changes).run service =
      (.ok (some item), { service with store := (service.store.save item).2, log }) := by
  rcases service.onStore_cases (·.updateNamed id changes)
      (service.store.updateNamed_cases id changes) rfl with
    ⟨hnone, -⟩ | ⟨item', hitem', hcases⟩
  · rw [hnone] at h
    cases h
  · rw [hitem'] at h
    cases h
    rcases hcases with ⟨failure, hsave, hrun⟩ | ⟨hsave, log, hrun⟩
    · exact Or.inl ⟨failure, hsave, Action.bind_error hrun⟩
    · exact Or.inr ⟨hsave, log, Action.bind_ok hrun⟩

/-- An update fails where the saving does. -/
theorem update_error {service : Service} {id : Value} {changes : List (String × Value)}
    {item : Item} {failure : Failure} (hitem : service.store.updated? id changes = some item)
    (hsave : (service.store.save item).1 = .error failure) :
    ((update id changes).run service).1 = .error failure := by
  rcases run_update hitem with ⟨failure', hsave', hrun⟩ | ⟨hsave', _⟩
  · rw [hrun]
    cases hsave'.symm.trans hsave
    rfl
  · rw [hsave] at hsave'
    cases hsave'

/-- An update that gives an item has saved it. -/
theorem update_ok {service after : Service} {id : Value} {changes : List (String × Value)}
    {item : Item} (h : (update id changes).run service = (.ok (some item), after)) :
    service.store.updated? id changes = some item ∧ (service.store.save item).1 = .ok () ∧
      after.store = (service.store.save item).2 := by
  rcases service.onStore_cases (·.updateNamed id changes)
      (service.store.updateNamed_cases id changes) rfl with
    ⟨-, failure, -, hrun⟩ | ⟨item', hitem', ⟨failure, -, hrun⟩ | ⟨hsave, log, hrun⟩⟩
  · cases (Action.bind_error hrun).symm.trans h
  · cases (Action.bind_error hrun).symm.trans h
  · cases (Action.bind_ok hrun).symm.trans h
    exact ⟨hitem', hsave, rfl⟩

end Call

/-! ## Runs -/

namespace Service

/-- The service after some calls. -/
def after (service : Service) (calls : List Call) : Service :=
  calls.foldl (fun service call => (call.run service).2) service

@[simp]
theorem after_nil (service : Service) : service.after [] = service := rfl

@[simp]
theorem after_cons (service : Service) (call : Call) (calls : List Call) :
    service.after (call :: calls) = (call.run service).2.after calls := rfl

theorem after_append (service : Service) (first second : List Call) :
    service.after (first ++ second) = (service.after first).after second :=
  List.foldl_append ..

/-- Each call of a run satisfies `p` in the state in which it is made. -/
def Along (p : Service → Call → Prop) (service : Service) : List Call → Prop
  | [] => True
  | call :: calls => p service call ∧ Along p (call.run service).2 calls

/-- What holds at first and is kept by every call holds after a run. -/
theorem after_induction {p : Service → Call → Prop} {inv : Service → Prop}
    (hstep : ∀ service call, inv service → p service call → inv (call.run service).2)
    {service : Service} {calls : List Call} (hinv : inv service) (hcalls : service.Along p calls) :
    inv (service.after calls) := by
  induction calls generalizing service with
  | nil => exact hinv
  | cons call calls ih => exact ih (hstep service call hinv hcalls.1) hcalls.2

theorem Along.of_append {p : Service → Call → Prop} {service : Service} {first second : List Call}
    (h : service.Along p (first ++ second)) :
    service.Along p first ∧ (service.after first).Along p second := by
  induction first generalizing service with
  | nil => exact ⟨trivial, h⟩
  | cons call first ih =>
      obtain ⟨hfirst, hsecond⟩ := ih h.2
      exact ⟨⟨h.1, hfirst⟩, hsecond⟩

theorem Along.append {p : Service → Call → Prop} {service : Service} {first second : List Call}
    (hfirst : service.Along p first) (hsecond : (service.after first).Along p second) :
    service.Along p (first ++ second) := by
  induction first generalizing service with
  | nil => exact hsecond
  | cons call first ih => exact ⟨hfirst.1, ih hfirst.2 hsecond⟩

theorem Along.and {p q : Service → Call → Prop} {service : Service} {calls : List Call}
    (hp : service.Along p calls) (hq : service.Along q calls) :
    service.Along (fun s call => p s call ∧ q s call) calls := by
  induction calls generalizing service with
  | nil => trivial
  | cons call calls ih => exact ⟨⟨hp.1, hq.1⟩, ih hp.2 hq.2⟩

theorem Along.mono {p q : Service → Call → Prop} {service : Service} {calls : List Call}
    (h : service.Along p calls) (hpq : ∀ s call, p s call → q s call) : service.Along q calls := by
  induction calls generalizing service with
  | nil => trivial
  | cons call calls ih => exact ⟨hpq service call h.1, ih h.2⟩

/-- What calls satisfy in every state they satisfy along a run. -/
theorem along_of_forall {p : Service → Call → Prop} {service : Service} {calls : List Call}
    (h : ∀ call ∈ calls, ∀ s, p s call) : service.Along p calls := by
  induction calls generalizing service with
  | nil => trivial
  | cons call calls ih =>
      obtain ⟨hcall, hcalls⟩ := List.forall_mem_cons.mp h
      exact ⟨hcall service, ih hcalls⟩

/-- Every item that the calls of a run go on to save is read back as it was written. -/
def Faithful (service : Service) (calls : List Call) : Prop :=
  service.Along (fun s call => ∀ item, call.written? s = some item → item.ReadsBack) calls

end Service

end Deferral
