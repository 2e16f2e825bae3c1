/-
# Deferral.Proofs.Store.Delivery -- jobs that fire more than once

A queue hands a job back at least once, and it may do so again or late. Of the jobs that
fire for a stored item only the first deletion has an effect: it leaves `Item.redactedAt` in
the file of the item, with the instant at which it fired. `Delivered` says so of all files at
once. Every firing keeps it up, and the answer to each firing follows from it.

Nothing happens where there is no file, but whether this passes for an item that is gone is up
to the system: it refuses to look for a file whose name is too long.
-/

import Deferral.Proofs.Item.Redacted
import Deferral.Proofs.Store.Locality

namespace Deferral

/-! ## Due jobs -/

/-- The service once the clock shows this. -/
def Service.atClock (service : Service) (clock : DateTime) : Service := { service with clock }

@[simp]
theorem Service.store_atClock (service : Service) (clock : DateTime) :
    (service.atClock clock).store = service.store := rfl

@[simp]
theorem Service.clock_atClock (service : Service) (clock : DateTime) :
    (service.atClock clock).clock = clock := rfl

/-- A job that fires, while the clock shows an instant. -/
structure Firing where
  kind : JobKind
  /-- The id of the item. -/
  id : Int
  clock : DateTime
  instant : Instant
  toInstant : clock.toInstant = .ok instant

namespace Firing

/-- What is made of a job when it is handed back. -/
def job (firing : Firing) : Call :=
  .handle (.text firing.kind.name) (.map [(.text "id", .int firing.id)])

/-- The time passes until a job fires. -/
def calls (firing : Firing) : List Call := [.wait firing.clock, firing.job]

/-- The answer to a job that fires, and the service after it. -/
def fire (firing : Firing) (service : Service) : Except Failure (Option Item) × Service :=
  firing.job.run (service.atClock firing.clock)

/-- The instant of the first deletion of an item. -/
def firstDeletion (n : Int) (fired : List Firing) : Option Instant :=
  (fired.find? fun firing => firing.kind == .delete && firing.id == n).map instant

theorem firstDeletion_append_singleton (n : Int) (fired : List Firing) (firing : Firing) :
    firstDeletion n (fired ++ [firing]) = (firstDeletion n fired).or
      (if firing.kind = .delete ∧ firing.id = n then some firing.instant else none) := by
  rw [firstDeletion, List.find?_append, Option.map_or, List.find?_singleton]
  congr 1
  by_cases h : firing.kind = .delete ∧ firing.id = n
  · rw [if_pos h, if_pos (by simp [h])]
    rfl
  · rw [if_neg h, if_neg (by simpa using h)]
    rfl

/-- A job that is not for the deletion of an item does not count among its deletions. -/
theorem firstDeletion_append_of_not {n : Int} {fired : List Firing} {firing : Firing}
    (h : ¬ (firing.kind = .delete ∧ firing.id = n)) :
    firstDeletion n (fired ++ [firing]) = firstDeletion n fired := by
  rw [firstDeletion_append_singleton, if_neg h, Option.or_none]

/-- A job for the deletion of an item leaves the first one the first. -/
theorem firstDeletion_append_delete {fired : List Firing} {firing : Firing}
    (h : firing.kind = .delete) : firstDeletion firing.id (fired ++ [firing]) =
      some ((firstDeletion firing.id fired).getD firing.instant) := by
  rw [firstDeletion_append_singleton, if_pos ⟨h, rfl⟩]
  cases firstDeletion firing.id fired <;> rfl

end Firing

namespace Service

/-- The service after some jobs have fired. -/
def afterFirings (service : Service) (fired : List Firing) : Service :=
  service.after (fired.flatMap Firing.calls)

theorem afterFirings_append_singleton (service : Service) (fired : List Firing)
    (firing : Firing) :
    service.afterFirings (fired ++ [firing]) = (firing.fire (service.afterFirings fired)).2 := by
  rw [afterFirings, List.flatMap_append, after_append]
  rfl

/-- What is done for a job that fires. -/
theorem handle_due (service : Service) (kind : JobKind) (n : Int) :
    handle (.text kind.name) (.map [(.text "id", .int n)]) service =
      match kind with
      | .delete => deleteDue n service
      | .publish => publishDue n service := by
  have hkind : (ofExcept (JobKind.ofValue (.text kind.name)) : Action JobKind) service =
      (.ok kind, service) := by
    cases kind <;> rfl
  have hid : (ofExcept ((Value.select "id" (.map [(.text "id", .int n)])).bind Value.toInteger) :
      Action Int) service = (.ok n, service) := rfl
  rw [handle, Action.bind_ok hkind, Action.bind_ok hid]
  cases kind <;> rfl

/-- A deletion answers with the item that it saves. -/
theorem deleteDue_of_save {service : Service} {n : Int} {item : Item}
    (h : service.store.redacted? (.int n) none service.clock = some item)
    (hsave : (service.store.save item).1 = .ok ()) :
    ∃ log, deleteDue n service =
      (.ok (some item), { service with store := (service.store.save item).2, log }) := by
  rcases (service.notedDeletion n).redact_outcome (.int n) none none with
    ⟨hnone, -⟩ | ⟨result, hresult, hcases⟩
  · cases hnone.symm.trans h
  · cases hresult.symm.trans h
    rcases hcases with ⟨failure, hfails, -⟩ | ⟨-, log, hrun⟩
    · cases hfails.symm.trans hsave
    · exact ⟨log, deleteDue_of_ok hrun⟩

/-- A deletion of an item that cannot be read answers as looking for it does, except that it
takes no notice of an item that is not stored. -/
theorem deleteDue_of_find {service : Service} {n : Int} :
    (service.store.find (.int n) = .ok none →
      ∃ log, deleteDue n service = (.ok none, { service with log })) ∧
    ∀ failure, (∀ m, failure ≠ .itemNotFound m) →
      service.store.find (.int n) = .error failure →
      ∃ log, deleteDue n service = (.error failure, { service with log }) := by
  have hid : Value.toInteger (.int n) = .ok n := rfl
  have hredact : ∀ failure, service.store.get (.int n) = .error failure →
      redact (.int n) none none (service.notedDeletion n) =
        (.error failure, service.notedDeletion n) := by
    intro failure hget
    have hchanges : service.store.redactionOf (.int n) none service.clock = .error failure := by
      rw [Store.redactionOf, Store.redactable, hid, ok_bind, hget]
      rfl
    have hfails : service.store.redact (.int n) none service.clock =
        (.error failure, service.store) := by
      rw [Store.redact, hchanges]
    have hnone : service.store.redacted? (.int n) none service.clock = none := by
      rw [Store.redacted?, hchanges]
    rcases (service.notedDeletion n).redact_outcome (.int n) none none with
      ⟨-, failure', hfails', hrun⟩ | ⟨result, hresult, -⟩
    · cases (hfails'.symm.trans hfails)
      exact hrun
    · cases hresult.symm.trans hnone
  constructor
  · intro hfind
    have hget : service.store.get (.int n) = .error (.itemNotFound n) := by
      rw [Store.get, hfind]
      rfl
    obtain ⟨log, hrun⟩ := deleteDue_of_notFound (hredact _ hget)
    exact ⟨log, hrun⟩
  · intro failure hfailure hfind
    have hget : service.store.get (.int n) = .error failure := by
      rw [Store.get, hfind]
      rfl
    exact ⟨_, deleteDue_of_error hfailure (hredact _ hget)⟩

end Service

/-! ## Items that are gone -/

namespace Store

/-- The system takes the path and the name of the file of an id. -/
def Takes (store : Store) (id : Value) : Prop :=
  ∃ name, fileName id = .ok name ∧ (store.path.child name).check = .ok () ∧
    Folder.checkName name = .ok ()

/-- Where nothing is found there is nothing to redact. -/
theorem redacted?_of_not_found {store : Store} {n : Int} {now : DateTime}
    (h : ∀ x, store.find (.int n) ≠ .ok (some x)) :
    store.redacted? (.int n) none now = none := by
  cases hredacted : store.redacted? (.int n) none now with
  | none => rfl
  | some item =>
      obtain ⟨m, base, _, hm, -, -, hgiven | ⟨-, hfind⟩⟩ := redacted?_eq_some hredacted
      · cases hgiven
      · cases hm
        exact absurd hfind (h base)

/-- Where there is no file nothing is found, unless the system refuses to look for it. -/
theorem find_of_no_file {store : Store} {n : Int}
    (h : ∀ name, fileName (.int n) = .ok name → store.folder.get? name = none) :
    (store.Takes (.int n) ∧ store.find (.int n) = .ok none) ∨
    ¬ store.Takes (.int n) ∧ ∃ failure, (∀ m, failure ≠ .itemNotFound m) ∧
      store.find (.int n) = .error failure := by
  cases hname : fileName (.int n) with
  | error failure =>
      refine Or.inr ⟨?_, failure, ?_, by rw [find, hname]; rfl⟩
      · rintro ⟨name, htaken, -⟩
        cases htaken.symm.trans hname
      · rintro m rfl
        cases fileName_eq_error hname
  | ok name =>
      -- The system refuses the path, or the name, or there is no file.
      have hrefused : ∀ fault, (store.reach name >>= (·.has name)) = .error fault →
          store.find (.int n) = .error (.fileRefused fault) := by
        intro fault hhas
        rw [find, hname, ok_bind, hhas]
        rfl
      cases hpath : (store.path.child name).check with
      | error fault =>
          refine Or.inr ⟨?_, .fileRefused fault, fun _ => Failure.noConfusion, hrefused fault ?_⟩
          · rintro ⟨other, hother, htaken, -⟩
            cases hother.symm.trans hname
            cases htaken.symm.trans hpath
          · rw [reach, hpath]
            rfl
      | ok =>
          have hreach : store.reach name = .ok store.folder := by
            rw [reach, hpath]
            rfl
          cases hcheck : Folder.checkName name with
          | error fault =>
              refine Or.inr ⟨?_, .fileRefused fault, fun _ => Failure.noConfusion,
                hrefused fault ?_⟩
              · rintro ⟨other, hother, -, htaken⟩
                cases hother.symm.trans hname
                cases htaken.symm.trans hcheck
              · rw [hreach, ok_bind, Folder.has, hcheck]
                rfl
          | ok =>
              refine Or.inl ⟨⟨name, hname, hpath, hcheck⟩, ?_⟩
              have hhas : (store.reach name >>= (·.has name)) = .ok false := by
                rw [hreach, ok_bind, Folder.has, hcheck, h name hname]
                rfl
              rw [find, hname, ok_bind, hhas]
              rfl

end Store

/-! ## The files after some firings -/

/-- The items of a store are live, and typed. -/
def Store.Live (store : Store) : Prop :=
  store.Every fun _ item => item.WellTyped ∧ item.deletedAt = .null

namespace Store.Live

variable {store : Store} {id : Value} {x : Item}

theorem settled (h : store.Live) (hfind : store.find id = .ok (some x)) : x.Settled := by
  obtain ⟨_, _, -, -, ⟨htyped, -⟩, hreload⟩ := h.find hfind
  exact Item.settled_of_reload htyped hreload

theorem deletedAt (h : store.Live) (hfind : store.find id = .ok (some x)) :
    x.deletedAt = .null := by
  obtain ⟨_, stored, -, -, ⟨-, hlive⟩, hreload⟩ := h.find hfind
  have hback := Item.reload_eq_ok hreload (show Field.deletedAt ≠ .path by decide)
  have hnull : stored.get .deletedAt = .null := hlive
  rw [hnull, Field.reload_null] at hback
  exact (Except.ok.inj hback).symm

/-- What a deletion leaves of an item goes where the item was. -/
theorem fileName_redactedAt (h : store.Live) (hfind : store.find id = .ok (some x))
    (i : Instant) : Store.fileName (x.redactedAt i).id = Store.fileName id := by
  obtain ⟨name, stored, hname, hstored, -, hreload⟩ := h.find hfind
  have hid : x.get .id = stored.get .id := Item.get_reload hreload rfl (by decide)
  show Store.fileName (x.get .id) = _
  rw [hid, hname]
  exact hstored

/-- What a deletion leaves of an item can be put into words, since the item was. -/
theorem fileText_redactedAt (h : store.Live) (hfind : store.find id = .ok (some x))
    (i : Instant) : ∃ text, Store.fileText (x.redactedAt i) = .ok text := by
  obtain ⟨_, stored, -, -, ⟨⟨htyped, -⟩, htext⟩, hreload⟩ := h.and_fileText.find hfind
  have hstored := htyped.fileText_iff.mp htext
  have hx := Item.hasNumeral_of_reload htyped hstored hreload
  exact ((h.settled hfind).redactedAt i).typed.fileText_iff.mpr
    (Item.hasNumeral_redactedAt hx i)

end Store.Live

/-- After jobs have fired, the file of an item that one of them deleted holds what the first
deletion has left, and all other files are as they were. -/
structure Delivered (filled : Store) (fired : List Firing) (store : Store) : Prop where
  path : store.path = filled.path
  named : ∀ n x i name, filled.find (.int n) = .ok (some x) →
    Firing.firstDeletion n fired = some i → Store.fileName (.int n) = .ok name →
    ∃ text, Store.fileText (x.redactedAt i) = .ok text ∧ (x.redactedAt i).ReadsBack ∧
      store.folder.get? name = some (.file text)
  others : ∀ name, (∀ n x i, filled.find (.int n) = .ok (some x) →
    Firing.firstDeletion n fired = some i → Store.fileName (.int n) ≠ .ok name) →
    store.folder.get? name = filled.folder.get? name

/-- Two integers are the ids of one file only if they are one. -/
theorem Store.eq_of_fileName {m n : Int} {name : String} (hm : fileName (.int m) = .ok name)
    (hn : fileName (.int n) = .ok name) : m = n :=
  Except.ok.inj (toInteger_eq_of_fileName hm hn)

/-- An item takes the place of one that was found, if it can be put into words. -/
theorem Store.save_of_find {store : Store} {id : Value} {found item : Item} {name : String}
    {text : List Char} (hfind : store.find id = .ok (some found))
    (hid : fileName item.id = fileName id) (hname : fileName id = .ok name)
    (htext : fileText item = .ok text) : store.save item = (.ok (), store.write name text) := by
  obtain ⟨other, hwritable⟩ := writableName_of_find hfind hid
  have hother := fileName_of_writableName hwritable
  rw [hid, hname] at hother
  cases hother
  rw [save, hwritable]
  dsimp only
  rw [htext]

namespace Delivered

variable {filled store : Store} {fired : List Firing}

theorem refl (filled : Store) : Delivered filled [] filled where
  path := rfl
  named := by
    intro n x i name _ hnone
    cases hnone
  others := fun _ _ => rfl

/-- What is found under an id of which no item was deleted is what was found there before. -/
theorem find_of_not_deleted (h : Delivered filled fired store) {id : Value}
    (hid : ∀ n x, id.toInteger = .ok n → filled.find (.int n) = .ok (some x) →
      Firing.firstDeletion n fired = none) : store.find id = filled.find id := by
  refine Store.find_congr_at h.path fun name hname => h.others name fun n x i hx hi hn => ?_
  have hinteger : id.toInteger = .ok n := Store.toInteger_eq_of_fileName hname hn
  cases (hid n x hinteger hx).symm.trans hi

/-- Under an id the item is found that was found there before, as the first deletion has left
it. -/
theorem find_eq (h : Delivered filled fired store) (hlive : filled.Live) {n : Int} {x : Item}
    (hx : filled.find (.int n) = .ok (some x)) :
    store.find (.int n) = .ok (some ((Firing.firstDeletion n fired).elim x x.redactedAt)) := by
  cases hfirst : Firing.firstDeletion n fired with
  | none =>
      rw [h.find_of_not_deleted, hx]
      · rfl
      · intro m _ hm _
        cases hm
        exact hfirst
  | some i =>
      obtain ⟨name, -, -, hname, -⟩ := Store.find_eq_ok_some hx
      obtain ⟨text, htext, hback, hfile⟩ := h.named n x i name hx hfirst hname
      have hid := hlive.fileName_redactedAt hx i
      -- The file is as if the item had been saved there at once.
      have hsave := Store.save_of_find hx hid hname htext
      have hsame : store.find (.int n) = (filled.write name text).find (.int n) := by
        have hpath : store.path = (filled.write name text).path := h.path
        refine Store.find_congr_at hpath fun other hother => ?_
        cases hother.symm.trans hname
        rw [hfile, Store.get?_write_self]
      have hfound := Store.find_save_at hid.symm (congrArg Prod.fst hsave) hback
      rw [congrArg Prod.snd hsave, ((hlive.settled hx).redactedAt i).reload] at hfound
      rw [hsame, hfound]
      rfl

/-- A job that deletes no stored item counts for nothing. -/
theorem append_of_not_deleted (h : Delivered filled fired store) {firing : Firing}
    (hnot : firing.kind = .delete → ∀ x, filled.find (.int firing.id) ≠ .ok (some x)) :
    Delivered filled (fired ++ [firing]) store := by
  have hsame : ∀ n x, filled.find (.int n) = .ok (some x) →
      Firing.firstDeletion n (fired ++ [firing]) = Firing.firstDeletion n fired := by
    rintro n x hx
    refine Firing.firstDeletion_append_of_not ?_
    rintro ⟨hkind, rfl⟩
    exact hnot hkind x hx
  constructor
  · exact h.path
  · intro n x i name hx hi hname
    exact h.named n x i name hx ((hsame n x hx).symm.trans hi) hname
  · intro name hname
    exact h.others name fun n x i hx hi => hname n x i hx ((hsame n x hx).trans hi)

/-- A deletion of a stored item leaves what the first one has left. -/
theorem redacted?_eq (h : Delivered filled fired store) (hlive : filled.Live) {firing : Firing}
    {x : Item} (hx : filled.find (.int firing.id) = .ok (some x)) :
    store.redacted? (.int firing.id) none firing.clock =
      some (x.redactedAt ((Firing.firstDeletion firing.id fired).getD firing.instant)) := by
  have hfind := h.find_eq hlive hx
  cases hfirst : Firing.firstDeletion firing.id fired with
  | none =>
      rw [hfirst] at hfind
      obtain ⟨changes, hredaction, hresult⟩ :=
        Item.setAll_redaction_of_live (hlive.deletedAt hx) firing.toInstant
      have hfree : (x.deletedAt.isNull || (Store.frozenChanges x changes).isEmpty) = true := by
        rw [hlive.deletedAt hx]
        rfl
      rw [Store.redacted?_of_find hfind hredaction hfree]
      exact congrArg some hresult
  | some i =>
      rw [hfirst] at hfind
      have hdeleted := ((hlive.settled hx).redactedAt i).typed
      obtain ⟨changes, hredaction, hresult⟩ :=
        Item.setAll_redaction_of_redacted rfl (x.isRedacted_redactedAt i) firing.clock
      have hfree : ((x.redactedAt i).deletedAt.isNull ||
          (Store.frozenChanges (x.redactedAt i) changes).isEmpty) = true := by
        rw [hdeleted.frozenChanges_eq_nil hresult]
        rfl
      rw [Store.redacted?_of_find hfind hredaction hfree]
      exact congrArg some hresult

/-- The item is written in its file, where this keeps up what is known of all files. -/
theorem save_eq (h : Delivered filled fired store) (hlive : filled.Live) {firing : Firing}
    {x : Item} (hkind : firing.kind = .delete)
    (hx : filled.find (.int firing.id) = .ok (some x)) {i : Instant}
    (hi : i = (Firing.firstDeletion firing.id fired).getD firing.instant)
    (hback : (x.redactedAt i).ReadsBack) :
    (store.save (x.redactedAt i)).1 = .ok () ∧
      Delivered filled (fired ++ [firing]) (store.save (x.redactedAt i)).2 ∧
      ((Firing.firstDeletion firing.id fired).isSome = true → ∀ name,
        (store.save (x.redactedAt i)).2.folder.get? name = store.folder.get? name) := by
  obtain ⟨name, -, -, hname, -⟩ := Store.find_eq_ok_some hx
  obtain ⟨text, htext⟩ := hlive.fileText_redactedAt hx i
  have hid := hlive.fileName_redactedAt hx i
  have hsave := Store.save_of_find (h.find_eq hlive hx) hid hname htext
  have hfirst : Firing.firstDeletion firing.id (fired ++ [firing]) = some i := by
    rw [Firing.firstDeletion_append_delete hkind, hi]
  rw [hsave]
  refine ⟨rfl, ⟨h.path, ?_, ?_⟩, ?_⟩
  · intro n y j other hy hj hother
    by_cases hn : firing.id = n
    · subst hn
      cases hy.symm.trans hx
      cases hj.symm.trans hfirst
      cases hother.symm.trans hname
      exact ⟨text, htext, hback, Store.get?_write_self ..⟩
    · rw [Firing.firstDeletion_append_of_not fun hboth => hn hboth.2] at hj
      obtain ⟨content, hcontent, hreads, hfile⟩ := h.named n y j other hy hj hother
      refine ⟨content, hcontent, hreads, ?_⟩
      rw [Store.get?_write_of_ne, hfile]
      rintro rfl
      exact hn (Store.eq_of_fileName hname hother)
  · intro other hother
    rw [Store.get?_write_of_ne, h.others other]
    · intro n y j hy hj
      by_cases hn : firing.id = n
      · subst hn
        exact hother _ y i hy hfirst
      · refine hother n y j hy ?_
        rw [Firing.firstDeletion_append_of_not fun hboth => hn hboth.2, hj]
    · rintro rfl
      exact hother firing.id x i hx hfirst hname
  · intro hsome other
    obtain ⟨j, hj⟩ := Option.isSome_iff_exists.mp hsome
    rw [hj, Option.getD_some] at hi
    subst hi
    obtain ⟨content, hcontent, -, hfile⟩ := h.named firing.id x i name hx hj hname
    cases hcontent.symm.trans htext
    by_cases hother : other = name
    · rw [hother, Store.get?_write_self, hfile]
    · rw [Store.get?_write_of_ne _ _ hother]

/-- The files are determined by the first deletions. -/
theorem files_eq {again : List Firing} {store' : Store} (h : Delivered filled fired store)
    (h' : Delivered filled again store')
    (hsame : ∀ n, Firing.firstDeletion n again = Firing.firstDeletion n fired) (name : String) :
    store'.folder.get? name = store.folder.get? name := by
  by_cases hdeleted : ∃ n x i, filled.find (.int n) = .ok (some x) ∧
      Firing.firstDeletion n fired = some i ∧ Store.fileName (.int n) = .ok name
  · obtain ⟨n, x, i, hx, hi, hname⟩ := hdeleted
    obtain ⟨text, htext, -, hfile⟩ := h.named n x i name hx hi hname
    obtain ⟨text', htext', -, hfile'⟩ := h'.named n x i name hx ((hsame n).trans hi) hname
    cases htext'.symm.trans htext
    rw [hfile', hfile]
  · have hnone : ∀ n x i, filled.find (.int n) = .ok (some x) →
        Firing.firstDeletion n fired = some i → Store.fileName (.int n) ≠ .ok name :=
      fun n x i hx hi hname => hdeleted ⟨n, x, i, hx, hi, hname⟩
    rw [h.others name hnone, h'.others name fun n x i hx hi =>
      hnone n x i hx ((hsame n).symm.trans hi)]

end Delivered

/-! ## Firings -/

namespace Firing

variable {firing : Firing} {service : Service}

theorem fire_eq (firing : Firing) (service : Service) :
    firing.fire service =
      match firing.kind with
      | .delete => Service.deleteDue firing.id (service.atClock firing.clock)
      | .publish => Service.publishDue firing.id (service.atClock firing.clock) :=
  Service.handle_due _ firing.kind firing.id

/-- A publication leaves the store as it is, whether it fails or not. -/
theorem store_fire_of_publish (hkind : firing.kind = .publish) :
    (firing.fire service).2.store = service.store := by
  have hwrites := (service.atClock firing.clock).publishDue_writes firing.id
  rw [fire_eq, hkind]
  dsimp only
  rw [hwrites.store]
  rfl

/-- A deletion that has nothing to save leaves the store as it is. -/
theorem store_fire_of_not_redacted (hkind : firing.kind = .delete)
    (h : service.store.redacted? (.int firing.id) none firing.clock = none) :
    (firing.fire service).2.store = service.store := by
  have hwrites := (service.atClock firing.clock).deleteDue_writes firing.id
  rw [Service.store_atClock, Service.clock_atClock, h] at hwrites
  rw [fire_eq, hkind]
  dsimp only
  rw [hwrites.store]
  rfl

/-- A deletion answers with the item that it saves. -/
theorem fire_of_save {item : Item} (hkind : firing.kind = .delete)
    (h : service.store.redacted? (.int firing.id) none firing.clock = some item)
    (hsave : (service.store.save item).1 = .ok ()) :
    (firing.fire service).1 = .ok (some item) ∧
      (firing.fire service).2.store = (service.store.save item).2 := by
  rw [← Service.store_atClock service firing.clock] at h hsave
  obtain ⟨log, hrun⟩ := Service.deleteDue_of_save h hsave
  rw [fire_eq, hkind]
  dsimp only
  rw [hrun]
  exact ⟨rfl, rfl⟩

theorem written?_job (hkind : firing.kind = .delete) :
    firing.job.written? (service.atClock firing.clock) =
      service.store.redacted? (.int firing.id) none firing.clock := by
  have hdue : Service.dueDeletion? (.text JobKind.delete.name)
      (.map [(.text "id", .int firing.id)]) = some firing.id := rfl
  rw [job, hkind, Call.written?, hdue, Option.bind_some, Service.store_atClock,
    Service.clock_atClock]

/-- A deletion fails as looking for the item does. -/
theorem fire_of_find_error {failure : Failure} (hkind : firing.kind = .delete)
    (hfailure : ∀ n, failure ≠ .itemNotFound n)
    (h : service.store.find (.int firing.id) = .error failure) :
    (firing.fire service).1 = .error failure := by
  rw [← Service.store_atClock service firing.clock] at h
  obtain ⟨log, hrun⟩ := Service.deleteDue_of_find.2 failure hfailure h
  rw [fire_eq, hkind]
  dsimp only
  rw [hrun]

/-- The deletion of an item of which there is no file passes if the system takes the name of
the file. -/
theorem fire_of_no_file (hkind : firing.kind = .delete)
    (h : ∀ name, Store.fileName (.int firing.id) = .ok name →
      service.store.folder.get? name = none) :
    (firing.fire service).1 = .ok none ↔ service.store.Takes (.int firing.id) := by
  rcases Store.find_of_no_file h with ⟨htakes, hfind⟩ | ⟨hnot, failure, hfailure, hfind⟩
  · rw [← Service.store_atClock service firing.clock] at hfind
    obtain ⟨log, hrun⟩ := Service.deleteDue_of_find.1 hfind
    rw [fire_eq, hkind]
    dsimp only
    rw [hrun]
    exact iff_of_true rfl htakes
  · rw [fire_of_find_error hkind hfailure hfind]
    refine iff_of_false (fun hanswered => ?_) hnot
    cases hanswered

/-- A job that fires after others did no harm. A publication does not touch the store. The
deletion of a stored item answers with the item as the first deletion leaves it, and unless it
is itself the first it changes no file. The deletion of an item that is not stored leaves the
store alone, and where there never was a file it passes if the system takes the name of it. -/
structure Harmless (filled : Store) (before : List Firing) (firing : Firing)
    (service : Service) : Prop where
  publish : firing.kind = .publish → (firing.fire service).2.store = service.store
  stored : firing.kind = .delete → ∀ x, filled.find (.int firing.id) = .ok (some x) →
    ∃ i, firstDeletion firing.id (before ++ [firing]) = some i ∧
      (firing.fire service).1 = .ok (some (x.redactedAt i)) ∧
      ((firstDeletion firing.id before).isSome = true → ∀ name,
        (firing.fire service).2.store.folder.get? name = service.store.folder.get? name)
  notStored : firing.kind = .delete → (∀ x, filled.find (.int firing.id) ≠ .ok (some x)) →
    (firing.fire service).2.store = service.store
  absent : firing.kind = .delete →
    (∀ name, Store.fileName (.int firing.id) = .ok name → filled.folder.get? name = none) →
    (firing.fire service).2.store = service.store ∧
      ((firing.fire service).1 = .ok none ↔ filled.Takes (.int firing.id))

end Firing

namespace Delivered

variable {filled : Store} {fired : List Firing} {service : Service}

theorem fire_publish (h : Delivered filled fired service.store) {firing : Firing}
    (hkind : firing.kind = .publish) :
    Delivered filled (fired ++ [firing]) (firing.fire service).2.store ∧
      firing.Harmless filled fired service := by
  have hnot : firing.kind ≠ .delete := by
    rw [hkind]
    decide
  have hstore : (firing.fire service).2.store = service.store :=
    Firing.store_fire_of_publish hkind
  rw [hstore]
  exact ⟨h.append_of_not_deleted fun hdelete => absurd hdelete hnot, fun _ => hstore,
    fun hdelete => absurd hdelete hnot, fun hdelete => absurd hdelete hnot,
    fun hdelete => absurd hdelete hnot⟩

theorem fire_stored (h : Delivered filled fired service.store) (hlive : filled.Live)
    {firing : Firing} (hkind : firing.kind = .delete) {x : Item}
    (hx : filled.find (.int firing.id) = .ok (some x))
    (hback : ∀ item, firing.job.written? (service.atClock firing.clock) = some item →
      item.ReadsBack) :
    Delivered filled (fired ++ [firing]) (firing.fire service).2.store ∧
      firing.Harmless filled fired service := by
  have hredacted := h.redacted?_eq hlive hx
  have hreads := hback _ ((Firing.written?_job hkind).trans hredacted)
  obtain ⟨hsave, hdelivered, hsame⟩ := h.save_eq hlive hkind hx rfl hreads
  obtain ⟨hanswer, hstore⟩ := Firing.fire_of_save hkind hredacted hsave
  rw [← hstore] at hdelivered hsame
  refine ⟨hdelivered, fun hpublish => ?_, fun _ y hy => ?_, fun _ hnot => absurd hx (hnot x),
    fun _ hnone => ?_⟩
  · cases hkind.symm.trans hpublish
  · cases hy.symm.trans hx
    exact ⟨_, Firing.firstDeletion_append_delete hkind, hanswer, hsame⟩
  · obtain ⟨name, text, -, hname, hfile, -⟩ := Store.find_eq_ok_some hx
    cases hfile.symm.trans (hnone name hname)

theorem fire_not_stored (h : Delivered filled fired service.store) {firing : Firing}
    (hkind : firing.kind = .delete)
    (hx : ∀ x, filled.find (.int firing.id) ≠ .ok (some x)) :
    Delivered filled (fired ++ [firing]) (firing.fire service).2.store ∧
      firing.Harmless filled fired service := by
  have hid : ∀ n x, Value.toInteger (.int firing.id) = .ok n →
      filled.find (.int n) = .ok (some x) → Firing.firstDeletion n fired = none := by
    intro n x hn hfind
    cases hn
    exact absurd hfind (hx x)
  have hfind := h.find_of_not_deleted hid
  have hstore : (firing.fire service).2.store = service.store :=
    Firing.store_fire_of_not_redacted hkind
      (Store.redacted?_of_not_found (by rw [hfind]; exact hx))
  refine ⟨?_, fun _ => hstore, fun _ x hstored => absurd hstored (hx x), fun _ _ => hstore,
    fun _ hnone => ?_⟩
  · rw [hstore]
    exact h.append_of_not_deleted fun _ => hx
  · have hgone : ∀ name, Store.fileName (.int firing.id) = .ok name →
        service.store.folder.get? name = none := by
      intro name hname
      rw [h.others name, hnone name hname]
      intro n x i hn _ hother
      cases Store.eq_of_fileName hother hname
      exact hx x hn
    have hanswer := Firing.fire_of_no_file hkind hgone
    rw [Store.Takes, h.path] at hanswer
    exact ⟨hstore, hanswer⟩

/-- A job that fires keeps up what is known of all files, and does no harm. -/
theorem fire (h : Delivered filled fired service.store) (hlive : filled.Live) (firing : Firing)
    (hback : ∀ item, firing.job.written? (service.atClock firing.clock) = some item →
      item.ReadsBack) :
    Delivered filled (fired ++ [firing]) (firing.fire service).2.store ∧
      firing.Harmless filled fired service := by
  cases hkind : firing.kind with
  | publish => exact h.fire_publish hkind
  | delete =>
      by_cases hx : ∃ x, filled.find (.int firing.id) = .ok (some x)
      · obtain ⟨x, hx⟩ := hx
        exact h.fire_stored hlive hkind hx hback
      · exact h.fire_not_stored hkind fun x hstored => hx ⟨x, hstored⟩

end Delivered

/-! ## Runs -/

namespace Service

variable {filled : Service} {fired : List Firing}

theorem faithful_firings_cons {service : Service} {firing : Firing}
    (hback : ∀ item, firing.job.written? (service.atClock firing.clock) = some item →
      item.ReadsBack) (hrest : (firing.fire service).2.Faithful (fired.flatMap Firing.calls)) :
    service.Faithful ((firing :: fired).flatMap Firing.calls) := by
  refine ⟨?_, hback, hrest⟩
  intro item hnone
  cases hnone

/-- What is known of all files is known after any firings. -/
theorem delivered_afterFirings (hlive : filled.store.Live)
    (hfaithful : filled.Faithful (fired.flatMap Firing.calls)) :
    Delivered filled.store fired (filled.afterFirings fired).store := by
  induction fired using List.reverseRecOn with
  | nil => exact Delivered.refl filled.store
  | append_singleton before firing ih =>
      rw [List.flatMap_append] at hfaithful
      obtain ⟨hbefore, hfiring⟩ := Along.of_append hfaithful
      rw [afterFirings_append_singleton]
      exact ((ih hbefore).fire hlive firing hfiring.2.1).1

/-- Each of the jobs that fire does no harm. -/
theorem harmless_afterFirings (hlive : filled.store.Live)
    (hfaithful : filled.Faithful (fired.flatMap Firing.calls)) {before later : List Firing}
    {firing : Firing} (hsplit : fired = before ++ firing :: later) :
    firing.Harmless filled.store before (filled.afterFirings before) := by
  subst hsplit
  rw [List.flatMap_append] at hfaithful
  obtain ⟨hbefore, hfiring⟩ := Along.of_append hfaithful
  exact ((delivered_afterFirings hlive hbefore).fire hlive firing hfiring.2.1).2

open Firing in
/-- **Deliveries that are repeated do no harm.** Live items are saved in an empty folder, and
then jobs fire for any ids in any order, each any number of times. A stored item that was
deleted is found as the first of its deletions has left it, and any other one as before. All
files but those of the former are what they were. None of the jobs did harm when it fired. The
files are the same after any other jobs of which the first deletions are the same. -/
theorem delivery_is_harmless {start : Service} (hempty : start.store.folder = Folder.empty)
    {items : List Item} (hitems : ∀ item ∈ items, item.WellTyped ∧ item.deletedAt = .null)
    (hfaithful : start.Faithful (items.map .save ++ fired.flatMap Firing.calls))
    (hfilled : filled = start.after (items.map .save)) :
    (∀ n x, filled.store.find (.int n) = .ok (some x) →
      (filled.afterFirings fired).store.find (.int n) =
        .ok (some ((firstDeletion n fired).elim x x.redactedAt))) ∧
    (∀ name, (∀ n x, filled.store.find (.int n) = .ok (some x) →
        Store.fileName (.int n) = .ok name → firstDeletion n fired = none) →
      (filled.afterFirings fired).store.folder.get? name = filled.store.folder.get? name) ∧
    (∀ before firing later, fired = before ++ firing :: later →
      firing.Harmless filled.store before (filled.afterFirings before)) ∧
    ∀ again, start.Faithful (items.map .save ++ again.flatMap Firing.calls) →
      (∀ n, firstDeletion n again = firstDeletion n fired) →
      ∀ name, (filled.afterFirings again).store.folder.get? name =
        (filled.afterFirings fired).store.folder.get? name := by
  obtain ⟨hsaves, hfirings⟩ := hfaithful.of_append
  have hlive : filled.store.Live := by
    rw [hfilled]
    exact every_after_saves hempty hitems hsaves
  rw [← hfilled] at hfirings
  have hdelivered := delivered_afterFirings hlive hfirings
  refine ⟨fun n x hx => hdelivered.find_eq hlive hx, fun name hname => ?_,
    fun before firing later hsplit => harmless_afterFirings hlive hfirings hsplit,
    fun again hagain hsame => ?_⟩
  · refine hdelivered.others name fun n x i hx hi hother => ?_
    cases (hname n x hx hother).symm.trans hi
  · obtain ⟨-, hagainFirings⟩ := hagain.of_append
    rw [← hfilled] at hagainFirings
    exact hdelivered.files_eq (delivered_afterFirings hlive hagainFirings) hsame

end Service

/-! ## A deletion that fires twice -/

/-- The deletion of the first item, when it is due. -/
def noonFiring : Firing := ⟨.delete, 1, noon, noon.wall, rfl⟩

/-- An hour after noon. -/
def hour : DateTime := .utc ⟨63843858000000000, by decide⟩

/-- The same deletion when it is handed back an hour later. -/
def hourFiring : Firing := ⟨.delete, 1, hour, hour.wall, rfl⟩

theorem live_helloService : helloService.store.Live := by
  have hfilled : helloService = (Service.fresh noon).after ([helloItem].map .save) := rfl
  rw [hfilled]
  exact Service.every_after_saves rfl
    (List.forall_mem_singleton.mpr ⟨wellTyped_helloItem, rfl⟩)
    ⟨Call.readsBack_of_written? rfl helloItem_check, trivial⟩

theorem written?_noonFiring :
    noonFiring.job.written? (helloService.atClock noonFiring.clock) = some redactedHello :=
  (Firing.written?_job rfl).trans
    ((Delivered.refl helloService.store).redacted?_eq live_helloService find_helloService)

theorem written?_hourFiring :
    hourFiring.job.written? ((noonFiring.fire helloService).2.atClock hourFiring.clock) =
      some redactedHello := by
  obtain ⟨hdelivered, -⟩ := (Delivered.refl helloService.store).fire live_helloService noonFiring
    (Call.readsBack_of_written? written?_noonFiring redactedHello_check)
  exact (Firing.written?_job rfl).trans
    (hdelivered.redacted?_eq live_helloService find_helloService)

/-- The second firing answers as the first one has, and the item stays deleted at noon. -/
theorem delivery_is_harmless_twice :
    helloService.store.find (.int 1) = .ok (some helloItem) ∧
    (helloService.afterFirings [noonFiring, hourFiring]).store.find (.int 1) =
      .ok (some redactedHello) ∧
    (hourFiring.fire (helloService.afterFirings [noonFiring])).1 = .ok (some redactedHello) := by
  have hitems : ∀ item ∈ [helloItem], item.WellTyped ∧ item.deletedAt = .null :=
    List.forall_mem_singleton.mpr ⟨wellTyped_helloItem, rfl⟩
  have hfilled : helloService = (Service.fresh noon).after ([helloItem].map .save) := rfl
  have hsaves : (Service.fresh noon).Faithful ([helloItem].map .save) :=
    ⟨Call.readsBack_of_written? rfl helloItem_check, trivial⟩
  have hfirings : helloService.Faithful ([noonFiring, hourFiring].flatMap Firing.calls) :=
    Service.faithful_firings_cons
      (Call.readsBack_of_written? written?_noonFiring redactedHello_check)
      (Service.faithful_firings_cons
        (Call.readsBack_of_written? written?_hourFiring redactedHello_check) trivial)
  rw [hfilled] at hfirings
  have hfaithful := Service.Along.append hsaves hfirings
  obtain ⟨hends, -, hharmless, -⟩ := Service.delivery_is_harmless rfl hitems hfaithful hfilled
  refine ⟨find_helloService, hends 1 helloItem find_helloService, ?_⟩
  obtain ⟨i, hi, hanswer, -⟩ :=
    (hharmless [noonFiring] hourFiring [] rfl).stored rfl helloItem find_helloService
  cases hi
  exact hanswer

/-! ## A deletion of an item with a huge id -/

/-- The deletion of an item of which the name of the file would have 256 bytes. -/
def hugeFiring : Firing := ⟨.delete, 10 ^ 250, noon, noon.wall, rfl⟩

/-- The digits of this id. -/
def hugeDigits : List Char := '1' :: List.replicate 250 '0'

/-- The name of this file. -/
def hugeName : String := String.ofList (hugeDigits ++ ".yaml".toList)

theorem fileName_hugeFiring : Store.fileName (.int hugeFiring.id) = .ok hugeName := by
  have hid : Value.toInteger (.int hugeFiring.id) = .ok (10 ^ 250) := rfl
  have hdigits : numeral (10 ^ 250) = .ok hugeDigits := by decide +kernel
  rw [Store.fileName, hid, ok_bind, hdigits]
  rfl

/-- The path of a file in the working folder is its name. -/
theorem text_child_fresh (name : String) :
    (Store.fresh.path.child name).text = name.toList := by
  have hnames : (Store.fresh.path.child name).names = [name] := rfl
  have hanchor : (Store.fresh.path.child name).anchor = .here := rfl
  have hnot : ¬ ((Store.fresh.path.child name).anchor = .here ∧
      (Store.fresh.path.child name).names = []) := by
    rw [hnames]
    exact fun h => List.cons_ne_nil _ _ h.2
  rw [Pathname.text, if_neg hnot, hnames, hanchor, Anchor.text, joinWith, List.map_singleton,
    List.intercalate_singleton, List.nil_append]

theorem find_hugeFiring :
    Store.fresh.find (.int hugeFiring.id) = .error (.fileRefused .nameTooLong) := by
  have hpath : (Store.fresh.path.child hugeName).check = .ok () := by
    rw [Pathname.check, text_child_fresh, hugeName, String.toList_ofList]
    decide +kernel
  have hname : Folder.checkName hugeName = .error .nameTooLong := by decide +kernel
  have hhas : (Store.fresh.reach hugeName >>= (·.has hugeName)) = .error .nameTooLong := by
    rw [Store.reach, hpath, ok_bind, pure_bind, Folder.has, hname]
    rfl
  rw [Store.find, fileName_hugeFiring, ok_bind, hhas]
  rfl

/-- The deletion fails although nothing was ever stored. -/
theorem delivery_of_huge_id_fails :
    (Service.fresh noon).Faithful
      (([] : List Item).map .save ++ [hugeFiring].flatMap Firing.calls) ∧
    (∀ name, (Service.fresh noon).store.folder.get? name = none) ∧
    (hugeFiring.fire (Service.fresh noon)).1 = .error (.fileRefused .nameTooLong) := by
  have hnothing : ∀ x, Store.fresh.find (.int hugeFiring.id) ≠ .ok (some x) := by
    intro x hx
    cases find_hugeFiring.symm.trans hx
  have hwritten : hugeFiring.job.written? ((Service.fresh noon).atClock hugeFiring.clock) =
      none :=
    (Firing.written?_job rfl).trans (Store.redacted?_of_not_found hnothing)
  have hback : ∀ item, hugeFiring.job.written?
      ((Service.fresh noon).atClock hugeFiring.clock) = some item → item.ReadsBack := by
    intro item hsome
    cases hwritten.symm.trans hsome
  exact ⟨Service.faithful_firings_cons hback trivial, fun _ => rfl,
    Firing.fire_of_find_error rfl (fun _ => Failure.noConfusion) find_hugeFiring⟩

end Deferral
