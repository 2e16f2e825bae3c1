/-
# Deferral.Proofs.Store.Atomicity -- what a call that fails leaves behind

A call that fails leaves every file as it was, with one exception. A file is opened before
the item for it is put into words. Where the item has no words, since one of its instants
is no instant or since a value has no text, the file stays empty: what was stored there is
gone, and nothing can be found in it. This is the only way in which a call that fails
changes files, and it never changes a second one.
-/

import Deferral.Proofs.Store.RoundTrip

namespace Deferral

/-! ## Items without words -/

theorem Field.toRecord_eq_error_iff {field : Field} {value : Value} :
    (∃ failure, field.toRecord value = .error failure) ↔
      field.holdsInstant = true ∧ value.isNull = false ∧ value.iso? = none := by
  rw [toRecord]
  constructor
  · rintro ⟨failure, h⟩
    split at h
    · next hinstant =>
        rw [Bool.and_eq_true, Bool.not_eq_true'] at hinstant
        split at h
        · cases h
        · next hiso => exact ⟨hinstant.1, hinstant.2, hiso⟩
    · cases h
  · rintro ⟨hinstant, hnull, hiso⟩
    rw [hinstant, hnull, hiso]
    exact ⟨_, rfl⟩

/-- A table cannot be filled when some step fails. -/
theorem mapM_table_error_iff {α κ : Type} {keys : List α} {key : α → κ}
    {value : α → Except Failure Value} :
    (∃ failure, (keys.mapM fun x => do return (key x, ← value x)) =
      (.error failure : Except Failure (List (κ × Value)))) ↔
      ∃ x ∈ keys, ∃ failure, value x = .error failure := by
  constructor
  · rintro ⟨failure, h⟩
    by_contra hnone
    have hall : ∀ x ∈ keys, value x = .ok (okValue (value x)) := by
      intro x hx
      cases hvalue : value x with
      | error failure => exact absurd ⟨x, hx, failure, hvalue⟩ hnone
      | ok v => rfl
    rw [mapM_table_ok hall] at h
    cases h
  · rintro ⟨x, hx, failure, hvalue⟩
    cases h : (keys.mapM fun x => do return (key x, ← value x) :
        Except Failure (List (κ × Value))) with
    | error failure => exact ⟨failure, rfl⟩
    | ok table =>
        have hok := (mapM_table_eq_ok h).1 x hx
        rw [hvalue] at hok
        cases hok

/-- An item has no words when a field for instants holds something else, or when its record
cannot be written. -/
theorem Store.fileText_eq_error_iff {item : Item} :
    (∃ failure, fileText item = .error failure) ↔
      (∃ field : Field, field.holdsInstant = true ∧ (item.get field).isNull = false ∧
        (item.get field).iso? = none) ∨
      ∃ record failure, item.toRecord = .ok record ∧ Yaml.write record = .error failure := by
  have hrecord : (∃ failure, item.toRecord = .error failure) ↔
      ∃ field : Field, field.holdsInstant = true ∧ (item.get field).isNull = false ∧
        (item.get field).iso? = none := by
    rw [Item.toRecord, mapM_table_error_iff]
    constructor
    · rintro ⟨field, -, hfails⟩
      exact ⟨field, Field.toRecord_eq_error_iff.mp hfails⟩
    · rintro ⟨field, hfield⟩
      exact ⟨field, field.mem_all, Field.toRecord_eq_error_iff.mpr hfield⟩
  rw [← hrecord]
  constructor
  · rintro ⟨failure, h⟩
    rcases bind_eq_error h with h | ⟨record, hok, h⟩
    · exact Or.inl ⟨failure, h⟩
    · exact Or.inr ⟨record, failure, hok, h⟩
  · rintro (⟨failure, h⟩ | ⟨record, failure, hok, h⟩)
    · exact ⟨failure, by rw [fileText, h]; rfl⟩
    · exact ⟨failure, by rw [fileText, hok, ok_bind, h]⟩

/-! ## Calls that fail -/

/-- The call opens a file for an item that has no words. -/
def Call.Empties (call : Call) (service : Service) (name : String) : Prop :=
  ∃ item failure, call.written? service = some item ∧
    service.store.writableName item = .ok name ∧ Store.fileText item = .error failure

namespace Call

variable {call : Call} {service : Service}

/-- A call that opens a file for an item without words leaves this file empty. -/
theorem Empties.store {name : String} (h : call.Empties service name) :
    (call.run service).2.store = service.store.write name [] := by
  obtain ⟨item, failure, hwritten, hname, htext⟩ := h
  rw [store_run hwritten, Store.save, hname]
  dsimp only
  rw [htext]

/-- Any other call that fails leaves the store alone. -/
theorem store_of_not_empties {failure : Failure} (h : (call.run service).1 = .error failure)
    (hnot : ∀ name, ¬ call.Empties service name) :
    (call.run service).2.store = service.store := by
  have hwrites := call.run_writes service
  cases hwritten : call.written? service with
  | none =>
      have hstore := hwrites.store
      rw [hwritten] at hstore
      exact hstore
  | some item =>
      obtain ⟨failure', hfails⟩ := hwrites.fails item hwritten ⟨failure, h⟩
      rw [store_run hwritten]
      rcases service.store.save_cases item with
        ⟨_, _, hsave⟩ | ⟨name, hname, ⟨failure, htext, _⟩ | ⟨_, _, hsave⟩⟩
      · rw [hsave]
      · exact absurd ⟨item, failure, hwritten, hname, htext⟩ (hnot name)
      · rw [hsave] at hfails
        cases hfails

/-- **A call that fails changes files exactly if it opens one, not empty before, for an item
without words.** It then leaves this file empty and all others alone; otherwise every file
is what it was, and so is everything that can be found. -/
theorem failed_run_files {failure : Failure} (h : (call.run service).1 = .error failure) :
    ((∀ name, (call.run service).2.store.folder.get? name = service.store.folder.get? name) ↔
      ∀ name, call.Empties service name →
        service.store.folder.get? name = some (.file [])) ∧
    (∀ name, call.Empties service name →
      (call.run service).2.store.folder.get? name = some (.file []) ∧
      ∀ other, other ≠ name →
        (call.run service).2.store.folder.get? other = service.store.folder.get? other) ∧
    ((∀ name, call.Empties service name → service.store.folder.get? name = some (.file [])) →
      ∀ id, (call.run service).2.store.find id = service.store.find id) := by
  have hemptied : ∀ name, call.Empties service name →
      (call.run service).2.store.folder.get? name = some (.file []) := by
    intro name hname
    rw [hname.store, Store.get?_write_self]
  have hothers : ∀ name, call.Empties service name → ∀ other, other ≠ name →
      (call.run service).2.store.folder.get? other = service.store.folder.get? other := by
    intro name hname other hne
    rw [hname.store, Store.get?_write_of_ne _ _ hne]
  have hkept : (∀ name, call.Empties service name →
      service.store.folder.get? name = some (.file [])) →
      ∀ name, (call.run service).2.store.folder.get? name = service.store.folder.get? name := by
    intro hempty name
    by_cases hsome : ∃ opened, call.Empties service opened
    · obtain ⟨opened, hopened⟩ := hsome
      by_cases hname : name = opened
      · rw [hname, hemptied opened hopened, hempty opened hopened]
      · exact hothers opened hopened name hname
    · rw [store_of_not_empties h fun name hname => hsome ⟨name, hname⟩]
  refine ⟨⟨?_, hkept⟩, fun name hname => ⟨hemptied name hname, hothers name hname⟩, ?_⟩
  · intro hsame name hname
    rw [← hsame name, hemptied name hname]
  · intro hempty id
    have hpath : (call.run service).2.store.path = service.store.path := by
      by_cases hsome : ∃ opened, call.Empties service opened
      · obtain ⟨opened, hopened⟩ := hsome
        rw [hopened.store]
        rfl
      · rw [store_of_not_empties h fun name hname => hsome ⟨name, hname⟩]
    exact Store.find_congr hpath (hkept hempty) id

end Call

/-! ## An update that empties a file -/

/-- An update that gives an item a number for the instant of its creation. -/
def numberUpdate : Call := .update (.int 1) [("created_at", .int 5)]

theorem updated?_numberUpdate :
    helloService.store.updated? (.int 1) [("created_at", .int 5)] =
      some { helloItem with createdAt := .int 5 } := by
  rw [Store.updated?_of_find find_helloService rfl rfl]
  rfl

theorem writableName_numberUpdate :
    helloService.store.writableName { helloItem with createdAt := .int 5 } = .ok "1.yaml" :=
  writableName_helloService rfl

theorem numberUpdate_empties : numberUpdate.Empties helloService "1.yaml" :=
  ⟨_, .missingOperation, updated?_numberUpdate, writableName_numberUpdate, rfl⟩

theorem numberUpdate_fails : (numberUpdate.run helloService).1 = .error .missingOperation := by
  have hsave : (helloService.store.save { helloItem with createdAt := .int 5 }).1 =
      .error .missingOperation := by
    rw [Store.save, writableName_numberUpdate]
    rfl
  exact Call.update_error updated?_numberUpdate hsave

theorem find_numberUpdate :
    (numberUpdate.run helloService).2.store.find (.int 1) = .error .wrongType := by
  obtain ⟨hname, hreach, hcheck⟩ := Store.writableName_eq_ok writableName_numberUpdate
  have hname' : Store.fileName (.int 1) = .ok "1.yaml" := hname
  have hread : Yaml.read [] = .ok .null := rfl
  rw [numberUpdate_empties.store, Store.find_of_document hname'
    (Store.reach_write hreach "1.yaml" []) hcheck (Store.get?_write_self ..) hread]
  rfl

/-- The update fails, and it changes a file: had it left all files alone, the item would
still be found. -/
theorem failed_run_files_numberUpdate :
    (numberUpdate.run helloService).1 = .error .missingOperation ∧
    ¬ ∀ name, (numberUpdate.run helloService).2.store.folder.get? name =
      helloService.store.folder.get? name := by
  refine ⟨numberUpdate_fails, fun hsame => ?_⟩
  obtain ⟨hiff, -, hfind⟩ := Call.failed_run_files numberUpdate_fails
  have hfound := hfind (hiff.mp hsame) (.int 1)
  rw [find_numberUpdate, find_helloService] at hfound
  cases hfound

/-- A stored item is lost in an update that fails: its file is empty after it, and what was
found before is not found any more. -/
theorem update_empties_file :
    (numberUpdate.run ((Service.fresh noon).after [.save helloItem])).1 = .error .missingOperation ∧
    ((Service.fresh noon).after [.save helloItem]).store.find (.int 1) = .ok (some helloItem) ∧
    (numberUpdate.run ((Service.fresh noon).after [.save helloItem])).2.store.folder.get? "1.yaml" =
      some (.file []) ∧
    (numberUpdate.run ((Service.fresh noon).after [.save helloItem])).2.store.find (.int 1) =
      .error .wrongType := by
  have hstart : (Service.fresh noon).after [.save helloItem] = helloService := rfl
  rw [hstart]
  refine ⟨numberUpdate_fails, find_helloService, ?_, find_numberUpdate⟩
  rw [numberUpdate_empties.store, Store.get?_write_self]

end Deferral
