/-
# Deferral.Proofs.Store.Locality -- what an update touches

An update reads the file of the id that it is given, and it writes the file of the id that
the item has after the changes. Where the changes keep the id this is one file, and what is
found under any other id stays. Under the id itself the changed item is found, as its record
gives it back. This is the item that the update gave, unless the changes took away its path,
which it gets again when it is read, or set it to an instant that timestamps do not carry.
-/

import Deferral.Proofs.Item.Typed
import Deferral.Proofs.Store.RoundTrip

namespace Deferral

namespace Service

/-- Where items are saved in an empty folder, what is known of all of them is known of every
file. -/
theorem every_after_saves {start : Service} (hempty : start.store.folder = Folder.empty)
    {p : Item → Prop} {items : List Item} (hitems : ∀ item ∈ items, p item)
    (hfaithful : start.Faithful (items.map .save)) :
    (start.after (items.map .save)).store.Every fun _ item => p item := by
  have hstep : ∀ (service : Service) (call : Call), (service.store.Every fun _ item => p item) →
      (∀ item, call.written? service = some item → item.ReadsBack) ∧
        (∃ item, call = .save item ∧ p item) →
      (call.run service).2.store.Every fun _ item => p item := by
    rintro service call hinv ⟨hback, item, rfl, hitem⟩
    refine Call.every_run hinv hback fun written hwritten _ _ => ?_
    cases hwritten
    exact hitem
  have hkinds : ∀ call ∈ items.map Call.save, ∀ _ : Service,
      ∃ item, call = .save item ∧ p item := by
    intro call hcall _
    obtain ⟨item, hitem, rfl⟩ := List.mem_map.mp hcall
    exact ⟨item, rfl, hitems item hitem⟩
  exact after_induction hstep (Store.every_of_empty hempty)
    (hfaithful.and (along_of_forall hkinds))

/-- **An update is local, and what it gives is found.** Well-typed items are saved in an empty
folder, and then one is updated by typed changes that keep its id. What is found under any
other id is what was found there before. Under the id itself an item is found, and it is the
same as the one that the update gave exactly if the changes do not take its path away and
timestamps can carry the instants that they bring. -/
theorem update_is_local {start : Service} (hempty : start.store.folder = Folder.empty)
    {items : List Item} (hitems : ∀ item ∈ items, item.WellTyped) {id : Value}
    {changes : List (String × Value)}
    (htyped : ∀ field value, Item.lastChange? (Store.knownChanges changes) field = some value →
      field.admits value = true)
    (hkeeps : ∀ value, Item.lastChange? (Store.knownChanges changes) .id = some value →
      value.toInteger = id.toInteger)
    (hfaithful : start.Faithful (items.map .save ++ [.update id changes]))
    {reached after : Service} (hreached : reached = start.after (items.map .save))
    {given : Item} (hrun : (Call.update id changes).run reached = (.ok (some given), after)) :
    (∀ other, other.toInteger ≠ id.toInteger →
      after.store.find other = reached.store.find other) ∧
    ∃ found, after.store.find id = .ok (some found) ∧ (found.Same given ↔
      Item.lastChange? (Store.knownChanges changes) .path ≠ some (.text "") ∧
      ∀ field t, Item.lastChange? (Store.knownChanges changes) field = some (.dateTime t) →
        t.Portable) := by
  subst hreached
  obtain ⟨hsaves, hback, -⟩ := hfaithful.of_append
  have hevery := every_after_saves hempty hitems hsaves
  obtain ⟨hwritten, hsave, hstore⟩ := Call.update_ok hrun
  obtain ⟨-, hchanged⟩ := Store.updated?_eq_some hwritten
  obtain ⟨source, hfind, rfl, -⟩ := Store.changed_eq_ok hchanged
  obtain ⟨name, stored, hname, hstored, hstoredTyped, hreload⟩ := hevery.find hfind
  have hsource := Item.settled_of_reload hstoredTyped hreload
  have hgiven := hsource.typed.setAll htyped
  -- The item is written where it was read.
  have hid : (source.setAll (Store.knownChanges changes)).id.toInteger = id.toInteger := by
    show ((source.setAll (Store.knownChanges changes)).get .id).toInteger = _
    rw [Item.get_setAll]
    cases hchange : Item.lastChange? (Store.knownChanges changes) .id with
    | some value => exact hkeeps value hchange
    | none =>
        rw [Option.getD_none, Item.get_reload hreload rfl (by decide)]
        exact Store.toInteger_eq_of_fileName hstored hname
  refine ⟨fun other hother => ?_, ?_⟩
  · rw [hstore]
    exact Store.find_save_of_ne (by rw [hid]; exact hother)
  · have hfile := Store.fileName_congr hid.symm
    obtain ⟨text, htext⟩ := plainString_of_fileName (hfile.symm.trans hname)
    obtain ⟨found, hfound⟩ := hgiven.reload htext
    refine ⟨found, ?_, (Item.same_reload_iff hgiven hfound).trans (hsource.setAll_iff htyped)⟩
    rw [hstore, Store.find_save_at hfile hsave (hback _ hwritten), hfound]
    rfl

end Service

/-! ## An update of the text -/

theorem wellTyped_helloItem : helloItem.WellTyped := by
  intro field
  cases field <;> rfl

/-- An update that goes on to save an item gives it, if the item can be put into words. -/
theorem Call.run_update_ok {service : Service} {id : Value} {changes : List (String × Value)}
    {item : Item} {name : String} (h : (update id changes).written? service = some item)
    (hname : service.store.writableName item = .ok name) (hcheck : item.readsBackCheck = true) :
    ∃ after, (update id changes).run service = (.ok (some item), after) := by
  rcases run_update h with ⟨failure, hsave, -⟩ | ⟨-, log, hrun⟩
  · rw [Store.save_eq_ok hname hcheck] at hsave
    cases hsave
  · exact ⟨_, hrun⟩

/-- The item after an update of its text. -/
def byeItem : Item := { helloItem with text := .text "bye" }

theorem byeItem_check : byeItem.readsBackCheck = true := by decide +kernel

theorem written?_byeUpdate : (Call.update (.int 1) [("text", .text "bye")]).written? helloService =
    some byeItem := by
  rw [Call.written?, Store.updated?_of_find find_helloService rfl rfl]
  rfl

/-- After the update the item is found with its new text, and still nothing under another id. -/
theorem update_is_local_bye :
    ∃ after, (Call.update (.int 1) [("text", .text "bye")]).run helloService =
        (.ok (some byeItem), after) ∧
      after.store.find (.int 2) = helloService.store.find (.int 2) ∧
      ∃ found, after.store.find (.int 1) = .ok (some found) ∧ found.Same byeItem := by
  obtain ⟨after, hrun⟩ := Call.run_update_ok written?_byeUpdate (writableName_helloService rfl)
    byeItem_check
  have hitems : ∀ item ∈ [helloItem], item.WellTyped :=
    List.forall_mem_singleton.mpr wellTyped_helloItem
  have hchange : ∀ field, Item.lastChange? (Store.knownChanges [("text", .text "bye")]) field =
      if Field.text = field then some (.text "bye") else none :=
    Item.lastChange?_singleton (.text, .text "bye")
  have htyped : ∀ field value,
      Item.lastChange? (Store.knownChanges [("text", .text "bye")]) field = some value →
      field.admits value = true := by
    intro field value hvalue
    rw [hchange] at hvalue
    split at hvalue
    · next hfield =>
        cases hvalue
        subst hfield
        rfl
    · cases hvalue
  have hfaithful : (Service.fresh noon).Faithful
      ([helloItem].map .save ++ [.update (.int 1) [("text", .text "bye")]]) :=
    ⟨Call.readsBack_of_written? rfl helloItem_check,
      Call.readsBack_of_written? written?_byeUpdate byeItem_check, trivial⟩
  have hreached : helloService = (Service.fresh noon).after ([helloItem].map .save) := rfl
  obtain ⟨hother, found, hfound, hsame⟩ := Service.update_is_local rfl hitems htyped
    (fun value hvalue => by cases (hchange .id).symm.trans hvalue) hfaithful hreached hrun
  refine ⟨after, hrun, hother (.int 2) (by decide), found, hfound, hsame.mpr ⟨?_, ?_⟩⟩
  · intro hempty
    cases (hchange .path).symm.trans hempty
  · intro field t hvalue
    rw [hchange] at hvalue
    split at hvalue <;> cases hvalue

/-! ## An update that takes the path away -/

/-- The item without its path. -/
def pathlessItem : Item := { helloItem with path := .text "" }

theorem pathlessItem_check : pathlessItem.readsBackCheck = true := by decide +kernel

/-- The item has a path again when it is read. -/
theorem reload_pathlessItem : pathlessItem.reload = .ok helloItem := by
  have hid : (Value.int 1).plainString = .ok "1" := by decide +kernel
  have hpath : pathlessItem.withPath = .ok helloItem := by
    have habsent : ¬ pathlessItem.path.isPresent = true := by decide
    have hpathlessId : pathlessItem.id = .int 1 := rfl
    rw [Item.withPath, if_neg habsent, hpathlessId, hid]
    rfl
  refine Item.reload_of_withPath hpath fun field => ?_
  cases field <;> first | exact Field.reload_dateTime _ noon_portable | rfl

def pathUpdate : Call := .update (.int 1) [("path", .text "")]

theorem written?_pathUpdate : pathUpdate.written? helloService = some pathlessItem := by
  rw [pathUpdate, Call.written?, Store.updated?_of_find find_helloService rfl rfl]
  rfl

/-- What is found after an update to no path is not what the update gave, although all that
was written is read back as it was. -/
theorem update_to_no_path :
    helloItem.WellTyped ∧ Field.path.admits (.text "") = true ∧
    (Service.fresh noon).Faithful ([helloItem].map .save ++ [pathUpdate]) ∧
    ∃ after, pathUpdate.run ((Service.fresh noon).after ([helloItem].map .save)) =
        (.ok (some pathlessItem), after) ∧
      after.store.find (.int 1) = .ok (some helloItem) ∧ ¬ helloItem.Same pathlessItem := by
  have hid : pathlessItem.id = .int 1 := rfl
  obtain ⟨after, hrun⟩ := Call.run_update_ok written?_pathUpdate (writableName_helloService hid)
    pathlessItem_check
  refine ⟨wellTyped_helloItem, rfl, ⟨Call.readsBack_of_written? rfl helloItem_check,
    Call.readsBack_of_written? written?_pathUpdate pathlessItem_check, trivial⟩, after, hrun, ?_,
    fun hsame => ?_⟩
  · have hfind := Call.find_run written?_pathUpdate (writableName_helloService hid)
      pathlessItem_check
    have hafter : (pathUpdate.run helloService).2 = after := congrArg Prod.snd hrun
    rw [hafter, hid, reload_pathlessItem] at hfind
    exact hfind
  · have hpath := hsame .path
    revert hpath
    decide

/-! ## An update that gives another id -/

/-- Another item, which is deleted. -/
def otherItem : Item := { redactedHello with id := .int 2, path := .text "2" }

theorem otherItem_check : otherItem.readsBackCheck = true := by decide +kernel

theorem reload_otherItem : otherItem.reload = .ok otherItem := by
  refine Item.reload_of_fields (by decide) fun field => ?_
  cases field <;> first | exact Field.reload_dateTime _ noon_portable | rfl

/-- A service that has saved both items. -/
def pairService : Service := (Service.fresh noon).after ([helloItem, otherItem].map .save)

theorem store_pairService : pairService.store = (helloService.store.save otherItem).2 := by
  have hpair : pairService = helloService.after [.save otherItem] :=
    Service.after_append (Service.fresh noon) [.save helloItem] [.save otherItem]
  have hwritten : (Call.save otherItem).written? helloService = some otherItem := rfl
  rw [hpair, Service.after_cons, Service.after_nil, Call.store_run hwritten]

/-- Only the id decides where the items are written. -/
theorem writableName_second {item : Item} (h : item.id = .int 2) :
    helloService.store.writableName item = .ok "2.yaml" := by
  have hname : Store.fileName (.int 2) = .ok "2.yaml" := by decide +kernel
  rw [Store.writableName, h, hname, ok_bind, store_helloService]
  decide +kernel

theorem find_pairService_first : pairService.store.find (.int 1) = .ok (some helloItem) := by
  rw [store_pairService, Store.find_save_of_ne (by decide), find_helloService]

theorem find_pairService_second : pairService.store.find (.int 2) = .ok (some otherItem) := by
  have hid : otherItem.id = .int 2 := rfl
  have hsave := Store.save_eq_ok (writableName_second hid) otherItem_check
  rw [store_pairService, ← hid, Store.find_save hsave (Item.readsBack_of_check otherItem_check),
    reload_otherItem]
  rfl

/-- The first item with the id of the other one. -/
def movedItem : Item := { helloItem with id := .int 2 }

theorem movedItem_check : movedItem.readsBackCheck = true := by decide +kernel

theorem reload_movedItem : movedItem.reload = .ok movedItem := by
  refine Item.reload_of_fields (by decide) fun field => ?_
  cases field <;> first | exact Field.reload_dateTime _ noon_portable | rfl

def idUpdate : Call := .update (.int 1) [("id", .int 2)]

theorem written?_idUpdate : idUpdate.written? pairService = some movedItem := by
  rw [idUpdate, Call.written?, Store.updated?_of_find find_pairService_first rfl rfl]
  rfl

/-- An update that gives another id has to be left out: it leaves the item where it was, and
writes over the other one, so that its deletion is undone. -/
theorem update_of_id_undeletes :
    pairService.store.find (.int 2) = .ok (some otherItem) ∧
    otherItem.deletedAt.isNull = false ∧
    ∃ after, idUpdate.run pairService = (.ok (some movedItem), after) ∧
      after.store.find (.int 1) = .ok (some helloItem) ∧
      after.store.find (.int 2) = .ok (some movedItem) ∧ movedItem.deletedAt.isNull = true := by
  have hid : movedItem.id = .int 2 := rfl
  have hwritable : pairService.store.writableName movedItem = .ok "2.yaml" := by
    rw [store_pairService]
    exact Store.writableName_save (writableName_second hid) otherItem
  obtain ⟨after, hrun⟩ := Call.run_update_ok written?_idUpdate hwritable movedItem_check
  have hafter : after.store = (pairService.store.save movedItem).2 := (Call.update_ok hrun).2.2
  have hsave := Store.save_eq_ok hwritable movedItem_check
  refine ⟨find_pairService_second, rfl, after, hrun, ?_, ?_, rfl⟩
  · rw [hafter, Store.find_save_of_ne (by decide), find_pairService_first]
  · rw [hafter, ← hid, Store.find_save hsave (Item.readsBack_of_check movedItem_check),
      reload_movedItem]
    rfl

end Deferral
