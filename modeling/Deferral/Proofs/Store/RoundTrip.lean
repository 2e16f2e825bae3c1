/-
# Deferral.Proofs.Store.RoundTrip -- a saved item is found

What was saved under an id is found under it, as the record of the item gives it back, if
the document is read back as it was written. This condition can be checked for any item by
writing and reading it. An item with a path whose instants timestamps can carry is found
exactly as it was saved.
-/

import Deferral.Proofs.Store.Calls
import Deferral.Proofs.Store.Names
import Deferral.Proofs.Value.Equality

namespace Deferral

/-! ## Checking items -/

namespace Item

/-- The item has a text, and the document in it is the record of the item. -/
def readsBackCheck (item : Item) : Bool :=
  match item.toRecord with
  | .error _ => false
  | .ok record =>
    match Yaml.write record with
    | .error _ => false
    | .ok text =>
      match Yaml.read text with
      | .ok (.map entries) => Value.identicalEntries entries record
      | _ => false

theorem readsBack_of_check {item : Item} (h : item.readsBackCheck = true) : item.ReadsBack := by
  intro record text hrecord hwrite
  rw [readsBackCheck, hrecord] at h
  dsimp only at h
  rw [hwrite] at h
  dsimp only at h
  split at h
  · next hread =>
      rw [hread, Value.eq_of_identicalEntries h]
  · cases h

theorem fileText_of_check {item : Item} (h : item.readsBackCheck = true) :
    ∃ text, Store.fileText item = .ok text := by
  rw [readsBackCheck] at h
  split at h
  · cases h
  · next hrecord =>
      split at h
      · cases h
      · next text hwrite => exact ⟨text, by rw [Store.fileText, hrecord, ok_bind, hwrite]⟩

end Item

/-! ## Saved items -/

namespace Store

/-- After a save the item is found under any id of its file, as its record gives it back. -/
theorem find_save_at {store : Store} {item : Item} {id : Value}
    (hid : fileName id = fileName item.id) (h : (store.save item).1 = .ok ())
    (hback : item.ReadsBack) : (store.save item).2.find id = some <$> item.reload := by
  rcases store.save_cases item with
    ⟨_, _, hsave⟩ | ⟨name, hname, ⟨_, _, hsave⟩ | ⟨text, htext, hsave⟩⟩
  · rw [hsave] at h
    cases h
  · rw [hsave] at h
    cases h
  · obtain ⟨hfileName, hreach, hcheck⟩ := writableName_eq_ok hname
    obtain ⟨record, hrecord, hwrite⟩ := bind_eq_ok htext
    rw [hsave, find_of_document (hid.trans hfileName) (reach_write hreach name text) hcheck
      (get?_write_self ..) (hback record text hrecord hwrite), Item.reload, hrecord, ok_bind]
    obtain ⟨-, rfl⟩ := Item.toRecord_eq_ok hrecord
    rfl

theorem find_save {store : Store} {item : Item} (h : (store.save item).1 = .ok ())
    (hback : item.ReadsBack) : (store.save item).2.find item.id = some <$> item.reload :=
  find_save_at rfl h hback

/-- An id of another integer is not affected by a save. -/
theorem find_save_of_ne {store : Store} {item : Item} {id : Value}
    (h : id.toInteger ≠ item.id.toInteger) : (store.save item).2.find id = store.find id := by
  obtain ⟨hpath, hfiles⟩ := store.save_frame item
  exact find_congr_at hpath fun name hname => hfiles name fun hitem =>
    h (toInteger_eq_of_fileName hname hitem)

/-- An item that can be put into words is saved where its file may be written. -/
theorem save_eq_ok {store : Store} {item : Item} {name : String}
    (hname : store.writableName item = .ok name) (hcheck : item.readsBackCheck = true) :
    (store.save item).1 = .ok () := by
  obtain ⟨text, htext⟩ := Item.fileText_of_check hcheck
  rw [save, hname]
  dsimp only
  rw [htext]

/-- Saving an item makes no file unwritable. -/
theorem writableName_save {store : Store} {item : Item} {name : String}
    (h : store.writableName item = .ok name) (other : Item) :
    (store.save other).2.writableName item = .ok name := by
  have hwrite : ∀ name' text, (store.write name' text).writableName item = .ok name := by
    intro name' text
    obtain ⟨hfileName, hreach, hcheck⟩ := writableName_eq_ok h
    obtain ⟨name₀, hname₀, hwritable⟩ := bind_eq_ok h
    obtain rfl : name₀ = name := Except.ok.inj (hname₀.symm.trans hfileName)
    have hnot : ((store.write name' text).folder.checkWritable name₀) = .ok () := by
      rw [Folder.checkWritable, hcheck, ok_bind]
      by_cases hname : name₀ = name'
      · rw [hname, get?_write_self]
        rfl
      · rw [get?_write_of_ne _ _ hname]
        -- A folder of this name would have been in the way before.
        rw [hreach, ok_bind, Folder.checkWritable, hcheck, ok_bind] at hwritable
        cases hentry : store.folder.get? name₀ with
        | none => rfl
        | some entry =>
            cases entry with
            | file content => rfl
            | folder =>
                rw [hentry] at hwritable
                obtain ⟨_, _, hwritable⟩ := bind_eq_ok hwritable
                cases hwritable
    rw [writableName, hfileName, ok_bind, reach_write hreach name' text, ok_bind, hnot]
    rfl
  rcases store.save_cases other with ⟨_, _, hsave⟩ | ⟨_, _, ⟨_, _, hsave⟩ | ⟨_, _, hsave⟩⟩
  · rw [hsave]
    exact h
  · rw [hsave]
    exact hwrite _ _
  · rw [hsave]
    exact hwrite _ _

/-- Where nothing is frozen, changes change the item that is found. -/
theorem changed_of_find {store : Store} {id : Value} {item : Item} {changes : List (Field × Value)}
    (hfind : store.find id = .ok (some item))
    (hfree : (item.deletedAt.isNull || (frozenChanges item changes).isEmpty) = true) :
    store.changed id changes = .ok (item.setAll changes) := by
  have hget : store.get id = .ok item := by
    rw [get, hfind]
    rfl
  rw [changed, hget, ok_bind, checkFrozen, if_pos hfree]
  rfl

/-- What an update of an item that is found goes on to save. -/
theorem updated?_of_find {store : Store} {id : Value} {item : Item}
    {changes : List (String × Value)} (hfind : store.find id = .ok (some item))
    (hknown : (unknownNames changes).isEmpty = true)
    (hfree : (item.deletedAt.isNull ||
      (frozenChanges item (knownChanges changes)).isEmpty) = true) :
    store.updated? id changes = some (item.setAll (knownChanges changes)) := by
  rw [updated?, if_pos hknown, changed_of_find hfind hfree]
  rfl

/-- What a redaction by means of some item goes on to save. -/
theorem redacted?_of_redactable {store : Store} {id : Value} {n : Int} {given : Option Item}
    {base item : Item} {now : DateTime} {changes : List (Field × Value)}
    (hid : id.toInteger = .ok n) (hbase : store.redactable id given = .ok base)
    (hredaction : base.redaction now = .ok changes)
    (hfind : store.find (.int n) = .ok (some item))
    (hfree : (item.deletedAt.isNull || (frozenChanges item changes).isEmpty) = true) :
    store.redacted? id given now = some (item.setAll changes) := by
  have hchanges : store.redactionOf id given now = .ok (n, changes) := by
    rw [redactionOf, hbase, ok_bind, hredaction, ok_bind, hid]
    rfl
  rw [redacted?, hchanges]
  dsimp only
  rw [changed_of_find hfind hfree]
  rfl

/-- What a redaction of an item that is found goes on to save. -/
theorem redacted?_of_find {store : Store} {n : Int} {item : Item} {now : DateTime}
    {changes : List (Field × Value)} (hfind : store.find (.int n) = .ok (some item))
    (hredaction : item.redaction now = .ok changes)
    (hfree : (item.deletedAt.isNull || (frozenChanges item changes).isEmpty) = true) :
    store.redacted? (.int n) none now = some (item.setAll changes) := by
  have hid : Value.toInteger (.int n) = .ok n := rfl
  have hbase : store.redactable (.int n) none = .ok item := by
    rw [redactable, hid, ok_bind, get, hfind]
    rfl
  exact redacted?_of_redactable hid hbase hredaction hfind hfree

end Store

namespace Call

variable {call : Call} {service : Service}

/-- A call that goes on to save an item leaves the store as the saving does. -/
theorem store_run {item : Item} (h : call.written? service = some item) :
    (call.run service).2.store = (service.store.save item).2 := by
  have hstore := (call.run_writes service).store
  rw [h] at hstore
  exact hstore

/-- What is known of all files stays known if it is known of the item that a call saves. -/
theorem every_run {p : String → Item → Prop} (h : service.store.Every p)
    (hback : ∀ item, call.written? service = some item → item.ReadsBack)
    (hp : ∀ item, call.written? service = some item →
      ∀ name, Store.fileName item.id = .ok name → p name item) :
    (call.run service).2.store.Every p := by
  cases hwritten : call.written? service with
  | none =>
      have hstore := (call.run_writes service).store
      rw [hwritten] at hstore
      rw [hstore]
      exact h
  | some item =>
      rw [store_run hwritten]
      exact h.save (hback item hwritten) (hp item hwritten)

/-- What a call goes on to save is found under its id, as its record gives it back. -/
theorem find_run {item : Item} {name : String} (h : call.written? service = some item)
    (hname : service.store.writableName item = .ok name) (hcheck : item.readsBackCheck = true) :
    (call.run service).2.store.find item.id = some <$> item.reload := by
  rw [store_run h]
  exact Store.find_save (Store.save_eq_ok hname hcheck) (Item.readsBack_of_check hcheck)

/-- A call is faithful if it goes on to save an item that can be put into words and back. -/
theorem readsBack_of_written? {item : Item} (h : call.written? service = some item)
    (hcheck : item.readsBackCheck = true) :
    ∀ written, call.written? service = some written → written.ReadsBack := by
  intro written hwritten
  rw [h] at hwritten
  cases hwritten
  exact Item.readsBack_of_check hcheck

end Call

/-! ## An item, from the first save on -/

/-- The working folder before anything is saved. -/
def Store.fresh : Store := ⟨⟨.here, []⟩, .empty⟩

/-- A service on this folder. -/
def Service.fresh (clock : DateTime) : Service where
  store := Store.fresh
  queue := .memory []
  published := none
  clock := clock
  log := []

/-- Noon of 18 February 2024. -/
def noon : DateTime := .utc ⟨63843854400000000, by decide⟩

/-- An item with a text and nothing else. -/
def helloItem : Item where
  id := .int 1
  createdAt := .dateTime noon
  text := .text "hello"
  title := .null
  url := .null
  pollCost := .null
  deletedAt := .null
  scheduledAt := .null
  pinned := .bool false
  bio := .bool false
  path := .text "1"
  maxBid := .null

theorem noon_portable : noon.Portable := DateTime.portable_utc _

theorem helloItem_check : helloItem.readsBackCheck = true := by decide +kernel

/-- Only the id decides where an item is written. -/
theorem writableName_fresh {item : Item} (h : item.id = .int 1) :
    Store.fresh.writableName item = .ok "1.yaml" := by
  have hname : Store.fileName (.int 1) = .ok "1.yaml" := by decide +kernel
  rw [Store.writableName, h, hname, ok_bind]
  decide +kernel

theorem reload_helloItem : helloItem.reload = .ok helloItem := by
  refine Item.reload_of_fields (by decide) fun field => ?_
  cases field <;> first | exact Field.reload_dateTime _ noon_portable | rfl

/-- The item is found after it was saved. -/
theorem find_helloItem : (Store.fresh.save helloItem).2.find (.int 1) = .ok (some helloItem) := by
  have hid : helloItem.id = .int 1 := rfl
  have hsave := Store.save_eq_ok (writableName_fresh hid) helloItem_check
  have hfind := Store.find_save hsave (Item.readsBack_of_check helloItem_check)
  rw [reload_helloItem] at hfind
  exact hfind

/-- A service that has saved the item. -/
def helloService : Service := (Service.fresh noon).after [.save helloItem]

theorem store_helloService : helloService.store = (Store.fresh.save helloItem).2 := by
  have hwritten : (Call.save helloItem).written? (Service.fresh noon) = some helloItem := rfl
  rw [helloService, Service.after_cons, Service.after_nil, Call.store_run hwritten]
  rfl

theorem writableName_helloService {item : Item} (h : item.id = .int 1) :
    helloService.store.writableName item = .ok "1.yaml" := by
  rw [store_helloService]
  exact Store.writableName_save (writableName_fresh h) helloItem

theorem find_helloService : helloService.store.find (.int 1) = .ok (some helloItem) := by
  rw [store_helloService, find_helloItem]

/-! ## The item, deleted -/

/-- The item after its deletion at noon. -/
def redactedHello : Item :=
  { helloItem with text := .text Item.deletedText, deletedAt := .dateTime noon }

theorem redactedHello_check : redactedHello.readsBackCheck = true := by decide +kernel

theorem reload_redactedHello : redactedHello.reload = .ok redactedHello := by
  refine Item.reload_of_fields (by decide) fun field => ?_
  cases field <;> first | exact Field.reload_dateTime _ noon_portable | rfl

/-- The deletion of the stored item, at noon. -/
def deleteHello : Call := .redact (.int 1) none (some noon)

theorem written?_deleteHello : deleteHello.written? helloService = some redactedHello := by
  have hredaction : helloItem.redaction noon =
      .ok [(.deletedAt, .dateTime noon), (.text, .text Item.deletedText)] := rfl
  have hnow : (some noon).getD helloService.clock = noon := rfl
  rw [deleteHello, Call.written?, hnow, Store.redacted?_of_find find_helloService hredaction rfl]
  rfl

/-- A service that has saved the item and then deleted it. -/
def deletedService : Service := (deleteHello.run helloService).2

theorem writableName_deletedService {item : Item} (h : item.id = .int 1) :
    deletedService.store.writableName item = .ok "1.yaml" := by
  rw [deletedService, Call.store_run written?_deleteHello]
  exact Store.writableName_save (writableName_helloService h) redactedHello

theorem find_deletedService :
    deletedService.store.find (.int 1) = .ok (some redactedHello) := by
  have hid : redactedHello.id = .int 1 := rfl
  rw [deletedService, ← hid, Call.find_run written?_deleteHello (writableName_helloService hid)
    redactedHello_check, reload_redactedHello]
  rfl

theorem faithful_deleteHello :
    (Service.fresh noon).Faithful ([helloItem].map .save ++ [deleteHello]) :=
  ⟨Call.readsBack_of_written? rfl helloItem_check,
    Call.readsBack_of_written? written?_deleteHello redactedHello_check, trivial⟩

end Deferral
