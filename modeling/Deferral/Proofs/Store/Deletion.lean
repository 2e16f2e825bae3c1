/-
# Deferral.Proofs.Store.Deletion -- a deletion is not undone

Once a deleted item is found under an id, whatever is found there later is deleted too and
shows the same text, title, address and cost: the check of frozen fields compares changes
with the item in the file, and this item was itself let through by the check before. The
instant of the deletion stays as well, with one exception. An offset of less than a second
gets lost when a timestamp is read, so that a clock reading may be the same instant as the
deletion when the check sees it and another one when it is read from the file.
-/

import Deferral.Proofs.Store.RoundTrip

namespace Deferral

/-! ## Values that equal themselves -/

theorem Field.hasNaN_notice (field : Field) : field.notice.hasNaN = false := by
  cases field <;> rfl

namespace Item

/-- No NaN stands in the content of the item. -/
def NaNFree (item : Item) : Prop := ∀ field ∈ Field.content, (item.get field).hasNaN = false

theorem nanFree_reload {item result : Item} (h : item.reload = .ok result)
    (hfree : item.NaNFree) : result.NaNFree := by
  intro field hfield
  rw [get_reload h (Field.holdsInstant_of_mem_content hfield)
    (Field.ne_path_of_mem_content hfield)]
  exact hfree field hfield

/-! ## Changes that calls make -/

/-- Changes that leave the id alone and bring no NaN into the content. If they are
`portable`, then timestamps can carry the deletion that they give. -/
structure Amends (portable : Prop) (changes : List (Field × Value)) : Prop where
  id : lastChange? changes .id = none
  nanFree : ∀ field ∈ Field.content, ∀ value, lastChange? changes field = some value →
    value.hasNaN = false
  deletedAt : portable → ∀ t, lastChange? changes .deletedAt = some (.dateTime t) → t.Portable

/-- The changes that redact an item. -/
theorem amends_redaction {base : Item} {now : DateTime} {changes : List (Field × Value)}
    {portable : Prop} (h : base.redaction now = .ok changes)
    (hbase : portable → ∀ t, base.deletedAt = .dateTime t → t.Portable) :
    Amends portable changes := by
  obtain ⟨deletedAt, hdeleted, hlast⟩ := lastChange?_redaction h
  constructor
  · rw [hlast .id, if_neg (by decide), if_neg (fun hboth => absurd hboth.1 (by decide))]
  · intro field hfield value hvalue
    rw [hlast field, if_neg (Field.ne_deletedAt_of_mem_content hfield)] at hvalue
    split at hvalue
    · cases hvalue
      exact field.hasNaN_notice
    · cases hvalue
  · intro hportable t ht
    rw [hlast .deletedAt, if_pos rfl] at ht
    obtain rfl := Option.some.inj ht
    rcases deletionInstant_cases hdeleted with ⟨i, hi⟩ | ⟨-, hsame⟩
    · cases hi
      exact DateTime.portable_utc i
    · exact hbase hportable t hsame.symm

section

variable {item : Item} {changes : List (Field × Value)}

theorem NaNFree.setAll {portable : Prop} (h : item.NaNFree) (hchanges : Amends portable changes) :
    (item.setAll changes).NaNFree := by
  intro field hfield
  rw [get_setAll]
  cases hchange : lastChange? changes field with
  | none => exact h field hfield
  | some value => exact hchanges.nanFree field hfield value hchange

/-- A field that changes only to the same value remains the same as any other. -/
theorem same_get_setAll {field : Field} {other : Value}
    (hchange : ∀ value, lastChange? changes field = some value →
      value.same (item.get field) = true)
    (hsame : (item.get field).same other = true) :
    ((item.setAll changes).get field).same other = true := by
  rw [get_setAll]
  cases hvalue : lastChange? changes field with
  | none => exact hsame
  | some value => exact Value.same_trans (hchange value hvalue) hsame

end

/-! ## Items that keep a deletion -/

/-- The item `y` is deleted like `x`: what is frozen is the same in both, with the instant
of the deletion if it is `dated`. -/
structure KeepsDeletion (dated : Prop) (x y : Item) : Prop where
  deleted : y.deletedAt.isNull = false
  same : ∀ field ∈ Field.frozen, (field = .deletedAt → dated) →
    (y.get field).same (x.get field) = true

/-- An item that is found deleted keeps its own deletion. -/
theorem keepsDeletion_self {x : Item} {t : DateTime} {dated : Prop} (hfree : x.NaNFree)
    (ht : x.deletedAt = .dateTime t) : KeepsDeletion dated x x := by
  constructor
  · rw [ht]
    rfl
  · intro field hfield _
    refine Value.same_self ?_
    rcases List.mem_cons.mp hfield with rfl | hcontent
    · show x.deletedAt.hasNaN = false
      rw [ht]
      rfl
    · exact hfree field hcontent

/-- Changes that the check lets through keep a deletion, also when the item has gone
through its record. -/
theorem KeepsDeletion.setAll {dated portable : Prop} {x found y : Item} {t : DateTime}
    {changes : List (Field × Value)} (h : KeepsDeletion dated x found)
    (ht : found.deletedAt = .dateTime t) (hportable : t.Portable)
    (hsame : ∀ field ∈ Field.frozen, ∀ value, lastChange? changes field = some value →
      value.same (found.get field) = true)
    (hchanges : Amends portable changes) (hdated : dated → portable)
    (hreload : (found.setAll changes).reload = .ok y) : KeepsDeletion dated x y := by
  have hdeletedAt : ∃ u, (found.setAll changes).deletedAt = .dateTime u ∧
      (dated → u.Portable) := by
    have hget : (found.setAll changes).deletedAt =
        (lastChange? changes .deletedAt).getD found.deletedAt :=
      get_setAll found changes .deletedAt
    rw [hget]
    cases hchange : lastChange? changes .deletedAt with
    | none => exact ⟨t, ht, fun _ => hportable⟩
    | some value =>
        have hvalue := hsame .deletedAt List.mem_cons_self value hchange
        have hfound : found.get .deletedAt = .dateTime t := ht
        rw [hfound] at hvalue
        obtain ⟨u, rfl, -⟩ := Value.eq_dateTime_of_same hvalue
        exact ⟨u, rfl, fun he => hchanges.deletedAt (hdated he) u hchange⟩
  obtain ⟨u, hu, huportable⟩ := hdeletedAt
  constructor
  · rw [isNull_deletedAt_reload hreload, hu]
    rfl
  · intro field hfield hfieldDated
    have hkept : ((found.setAll changes).get field).same (x.get field) = true :=
      same_get_setAll (hsame field hfield) (h.same field hfield hfieldDated)
    have hback : y.get field = (found.setAll changes).get field := by
      rcases List.mem_cons.mp hfield with rfl | hcontent
      · have hfieldReload := reload_eq_ok hreload (show Field.deletedAt ≠ .path by decide)
        have hvalue : (found.setAll changes).get .deletedAt = .dateTime u := hu
        rw [hvalue, Field.reload_dateTime _ (huportable (hfieldDated rfl))] at hfieldReload
        rw [hvalue]
        exact (Except.ok.inj hfieldReload).symm
      · exact get_reload hreload (Field.holdsInstant_of_mem_content hcontent)
          (Field.ne_path_of_mem_content hcontent)
    rw [hback, hkept]

end Item

/-! ## Calls on deleted items -/

namespace Call

/-- The call saves no item of its own, and if it is an update then it gives no id and
brings no NaN. -/
def Amends : Call → Prop
  | save _ => False
  | update _ changes => ∀ change ∈ changes, change.1 ≠ "id" ∧ change.2.hasNaN = false
  | _ => True

/-- Timestamps can carry the deletion that the call is given, if it is given one. -/
def Portable : Call → Prop
  | update _ changes => ∀ t, ("deleted_at", .dateTime t) ∈ changes → t.Portable
  | redact _ (some given) _ => ∀ t, given.deletedAt = .dateTime t → t.Portable
  | _ => True

/-- If the call goes on to save an item in the file of this id, then timestamps can carry the
deletion that the call is given. -/
def PortableAt (id : Value) (service : Service) (call : Call) : Prop :=
  ∀ item, call.written? service = some item → Store.fileName item.id = Store.fileName id →
    call.Portable

theorem amends_update {id : Value} {changes : List (String × Value)}
    (h : (update id changes).Amends) :
    Item.Amends (update id changes).Portable (Store.knownChanges changes) := by
  constructor
  · cases hchange : Item.lastChange? (Store.knownChanges changes) .id with
    | none => rfl
    | some value =>
        have hmem := Store.mem_of_mem_knownChanges (Item.mem_of_lastChange? hchange)
        exact absurd rfl (h _ hmem).1
  · intro field _ value hchange
    exact (h _ (Store.mem_of_mem_knownChanges (Item.mem_of_lastChange? hchange))).2
  · intro hportable t hchange
    exact hportable t (Store.mem_of_mem_knownChanges (Item.mem_of_lastChange? hchange))

/-- What a redaction saves has changes that keep its id. -/
theorem amends_redacted? {store : Store} {p : String → Item → Prop} (h : store.Every p) {id : Value}
    {given : Option Item} {now : DateTime} {item : Item} {portable : Prop}
    (hredacted : store.redacted? id given now = some item)
    (hgiven : ∀ base, given = some base → portable → ∀ t, base.deletedAt = .dateTime t →
      t.Portable) :
    ∃ id changes, store.changed id changes = .ok item ∧ Item.Amends portable changes := by
  obtain ⟨n, base, changes, -, hredaction, hchanged, hbase⟩ := Store.redacted?_eq_some hredacted
  refine ⟨.int n, changes, hchanged, Item.amends_redaction hredaction fun hportable t ht => ?_⟩
  rcases hbase with hbase | ⟨-, hfind⟩
  · exact hgiven base hbase hportable t ht
  · -- The deletion of the stored item was read from a timestamp.
    obtain ⟨_, _, -, -, -, hreload⟩ := h.find hfind
    have hnull : base.deletedAt.isNull = false := by
      rw [ht]
      rfl
    obtain ⟨u, hu, huportable⟩ := Item.deletedAt_reload hreload hnull
    rw [ht] at hu
    cases hu
    exact huportable

/-- Whatever such a call goes on to save is a stored item after changes that keep its id. -/
theorem amends_written? {service : Service} {call : Call} {p : String → Item → Prop} {item : Item}
    (h : service.store.Every p) (hamends : call.Amends)
    (hwritten : call.written? service = some item) :
    ∃ id changes, service.store.changed id changes = .ok item ∧
      Item.Amends call.Portable changes := by
  cases call with
  | wait clock => cases hwritten
  | find id => cases hwritten
  | save saved => exact hamends.elim
  | update id changes =>
      exact ⟨id, _, (Store.updated?_eq_some hwritten).2, amends_update hamends⟩
  | redact id given now =>
      refine amends_redacted? h hwritten fun base hbase => ?_
      subst hbase
      exact fun hportable => hportable
  | handle name payload =>
      obtain ⟨id, -, hredacted⟩ := Option.bind_eq_some_iff.mp hwritten
      refine amends_redacted? h hredacted fun base hbase => ?_
      cases hbase

/-- A call keeps it up that no NaN is stored in any content. -/
theorem every_nanFree {service : Service} {call : Call}
    (h : service.store.Every fun _ item => item.NaNFree)
    (hback : ∀ item, call.written? service = some item → item.ReadsBack)
    (hamends : call.Amends) : (call.run service).2.store.Every fun _ item => item.NaNFree := by
  refine every_run h hback fun item hwritten _ _ => ?_
  obtain ⟨id, changes, hchanged, hchanges⟩ := amends_written? h hamends hwritten
  obtain ⟨found, hfind, rfl, -⟩ := Store.changed_eq_ok hchanged
  obtain ⟨_, stored, -, -, hfree, hreload⟩ := h.find hfind
  exact (Item.nanFree_reload hreload hfree).setAll hchanges

/-- A call keeps it up that the item in a file is deleted like one that was found there. -/
theorem every_keepsDeletion {service : Service} {call : Call} {dated : Prop} {x : Item}
    {id : Value} {name : String} (hname : Store.fileName id = .ok name)
    (h : service.store.Every fun other item => other = name →
      ∀ y, item.reload = .ok y → Item.KeepsDeletion dated x y)
    (hback : ∀ item, call.written? service = some item → item.ReadsBack)
    (hamends : call.Amends) (hdated : dated → call.PortableAt id service) :
    (call.run service).2.store.Every fun other item => other = name →
      ∀ y, item.reload = .ok y → Item.KeepsDeletion dated x y := by
  refine every_run h hback fun item hwritten other hother heq y hy => ?_
  subst heq
  have hportable : dated → call.Portable := by
    intro he
    exact hdated he item hwritten (hother.trans hname.symm)
  obtain ⟨_, changes, hchanged, hchanges⟩ := amends_written? h hamends hwritten
  obtain ⟨found, hfind, rfl, hfree⟩ := Store.changed_eq_ok hchanged
  obtain ⟨source, stored, -, hstored, hkeeps, hreload⟩ := h.find hfind
  -- The id has not changed, so that the item goes where it came from.
  have hid : (found.setAll changes).get .id = stored.get .id := by
    rw [Item.get_setAll, hchanges.id, Option.getD_none, Item.get_reload hreload rfl (by decide)]
  have hsource : source = other := by
    have hfile : Store.fileName ((found.setAll changes).get .id) = .ok other := hother
    rw [hid] at hfile
    exact Except.ok.inj (hstored.symm.trans hfile)
  have hfound := hkeeps hsource found hreload
  obtain ⟨t, ht, htportable⟩ := Item.deletedAt_reload hreload hfound.deleted
  have hsame := hfree.resolve_left (by rw [hfound.deleted]; exact Bool.false_ne_true)
  exact hfound.setAll ht htportable hsame hchanges hportable hy

end Call

/-! ## Runs -/

namespace Service

/-- Where items without NaN are saved and changed, no NaN is stored in any content. -/
theorem every_nanFree_after {start : Service} (hempty : start.store.folder = Folder.empty)
    {items : List Item} (hitems : ∀ item ∈ items, item.NaNFree) {calls : List Call}
    (hcalls : ∀ call ∈ calls, call.Amends) (hfaithful : start.Faithful (items.map .save ++ calls)) :
    (start.after (items.map .save ++ calls)).store.Every fun _ item => item.NaNFree := by
  have hstep : ∀ (service : Service) (call : Call),
      (service.store.Every fun _ item => item.NaNFree) →
      (∀ item, call.written? service = some item → item.ReadsBack) ∧
        ((∃ item, call = .save item ∧ item.NaNFree) ∨ call.Amends) →
      (call.run service).2.store.Every fun _ item => item.NaNFree := by
    rintro service call hinv ⟨hback, ⟨item, rfl, hfree⟩ | hamends⟩
    · refine Call.every_run hinv hback fun item' hwritten _ _ => ?_
      cases hwritten
      exact hfree
    · exact Call.every_nanFree hinv hback hamends
  have hkinds : ∀ call ∈ items.map Call.save ++ calls, ∀ _ : Service,
      (∃ item, call = .save item ∧ item.NaNFree) ∨ call.Amends := by
    intro call hcall _
    rcases List.mem_append.mp hcall with hsave | hamends
    · obtain ⟨item, hitem, rfl⟩ := List.mem_map.mp hsave
      exact Or.inl ⟨item, rfl, hitems item hitem⟩
    · exact Or.inr (hcalls call hamends)
  exact after_induction hstep (Store.every_of_empty hempty)
    (hfaithful.and (along_of_forall hkinds))

/-- Where a deleted item is in a file, it stays deleted there. -/
theorem every_keepsDeletion_after {start : Service} {dated : Prop} {x : Item} {id : Value}
    {name : String} (hname : Store.fileName id = .ok name)
    (h : start.store.Every fun other item => other = name →
      ∀ y, item.reload = .ok y → Item.KeepsDeletion dated x y)
    {calls : List Call} (hcalls : ∀ call ∈ calls, call.Amends)
    (hdated : dated → start.Along (Call.PortableAt id) calls) (hfaithful : start.Faithful calls) :
    (start.after calls).store.Every fun other item => other = name →
      ∀ y, item.reload = .ok y → Item.KeepsDeletion dated x y := by
  have hstep : ∀ (service : Service) (call : Call),
      (service.store.Every fun other item => other = name →
        ∀ y, item.reload = .ok y → Item.KeepsDeletion dated x y) →
      (∀ item, call.written? service = some item → item.ReadsBack) ∧
        call.Amends ∧ (dated → call.PortableAt id service) →
      (call.run service).2.store.Every fun other item => other = name →
        ∀ y, item.reload = .ok y → Item.KeepsDeletion dated x y := by
    rintro service call hinv ⟨hback, hamends, hportable⟩
    exact Call.every_keepsDeletion hname hinv hback hamends hportable
  have hportable : start.Along (fun s call => dated → call.PortableAt id s) calls := by
    by_cases he : dated
    · exact (hdated he).mono fun s call hcall _ => hcall
    · exact along_of_forall fun call _ s he' => absurd he' he
  have hamends : start.Along (fun _ call => call.Amends) calls :=
    along_of_forall fun call hcall _ => hcalls call hcall
  exact after_induction hstep h (hfaithful.and (hamends.and hportable))

/-- **A deletion is not undone.** Items are saved in an empty folder and calls are made on
them. Once a deleted item `x` is found under an id, every item `y` that is found there later
is deleted, and its text, title, address and cost are those of `x`. The instant of its
deletion is that of `x` too, if timestamps can carry what the later calls that save an item
there are given for it. -/
theorem deletion_is_kept {start : Service} (hempty : start.store.folder = Folder.empty)
    {items : List Item} (hitems : ∀ item ∈ items, item.NaNFree) {first later : List Call}
    (hfirst : ∀ call ∈ first, call.Amends) (hlater : ∀ call ∈ later, call.Amends)
    (hfaithful : start.Faithful (items.map .save ++ first ++ later))
    {reached final : Service} (hreached : reached = start.after (items.map .save ++ first))
    (hfinal : final = reached.after later) {id : Value} {x y : Item}
    (hx : reached.store.find id = .ok (some x)) (hdeleted : x.deletedAt.isNull = false)
    (hy : final.store.find id = .ok (some y)) :
    y.deletedAt.isNull = false ∧ ∀ field ∈ Field.frozen,
      (field = .deletedAt → reached.Along (Call.PortableAt id) later) →
      (y.get field).same (x.get field) = true := by
  subst hreached hfinal
  obtain ⟨hbefore, hafter⟩ := hfaithful.of_append
  have hfree := every_nanFree_after hempty hitems hfirst hbefore
  obtain ⟨name, stored, hname, -, hstored, hreload⟩ := hfree.find hx
  obtain ⟨t, ht, -⟩ := Item.deletedAt_reload hreload hdeleted
  have hself := Item.nanFree_reload hreload hstored
  -- From here on the item in this file stays deleted like the one that was found.
  let dated := (start.after (items.map .save ++ first)).Along (Call.PortableAt id) later
  have hstart : (start.after (items.map .save ++ first)).store.Every fun other item =>
      other = name → ∀ z, item.reload = .ok z → Item.KeepsDeletion dated x z := by
    refine (hfree.and_find hx hname).mono fun other item hitem hother z hz => ?_
    obtain rfl : x = z := Except.ok.inj ((hitem.2 hother).symm.trans hz)
    exact Item.keepsDeletion_self hself ht
  have hend := every_keepsDeletion_after hname hstart hlater (fun hdated => hdated) hafter
  obtain ⟨name', item, hname', -, hkeeps, hy⟩ := hend.find hy
  obtain rfl : name' = name := Except.ok.inj (hname'.symm.trans hname)
  have hkept := hkeeps rfl y hy
  exact ⟨hkept.deleted, hkept.same⟩

end Service

/-! ## Deleting twice -/

theorem nanFree_helloItem : helloItem.NaNFree := by
  intro field hfield
  revert hfield
  cases field <;> decide

theorem written?_deleteHello_again : deleteHello.written? deletedService = some redactedHello := by
  have hredaction : redactedHello.redaction noon =
      .ok [(.deletedAt, .dateTime noon), (.text, .text Item.deletedText)] := rfl
  have hnow : (some noon).getD deletedService.clock = noon := rfl
  rw [deleteHello, Call.written?, hnow,
    Store.redacted?_of_find find_deletedService hredaction (by decide +kernel)]
  rfl

/-- A second deletion leaves the item as the first one has left it. -/
theorem deletion_is_kept_twice :
    (deleteHello.run deletedService).2.store.find (.int 1) = .ok (some redactedHello) ∧
    ∀ field ∈ Field.frozen,
      (redactedHello.get field).same (redactedHello.get field) = true := by
  have hid : redactedHello.id = .int 1 := rfl
  have hagain : (deleteHello.run deletedService).2.store.find (.int 1) =
      .ok (some redactedHello) := by
    rw [← hid, Call.find_run written?_deleteHello_again (writableName_deletedService hid)
      redactedHello_check, reload_redactedHello]
    rfl
  refine ⟨hagain, fun field hfield => ?_⟩
  have hitems : ∀ item ∈ [helloItem], item.NaNFree :=
    List.forall_mem_singleton.mpr nanFree_helloItem
  have hcalls : ∀ call ∈ [deleteHello], call.Amends := List.forall_mem_singleton.mpr trivial
  have hportable : deletedService.Along (Call.PortableAt (.int 1)) [deleteHello] :=
    ⟨fun _ _ _ => trivial, trivial⟩
  have hfaithful : (Service.fresh noon).Faithful
      ([helloItem].map .save ++ [deleteHello] ++ [deleteHello]) :=
    ⟨Call.readsBack_of_written? rfl helloItem_check,
      Call.readsBack_of_written? written?_deleteHello redactedHello_check,
      Call.readsBack_of_written? written?_deleteHello_again redactedHello_check, trivial⟩
  have hreached : deletedService =
      (Service.fresh noon).after ([helloItem].map .save ++ [deleteHello]) := rfl
  have hfinal : (deleteHello.run deletedService).2 = deletedService.after [deleteHello] := rfl
  obtain ⟨-, hsame⟩ := Service.deletion_is_kept rfl hitems hcalls hcalls hfaithful hreached hfinal
    find_deletedService rfl hagain
  exact hsame field hfield fun _ => hportable

/-! ## An update that moves a deletion -/

/-- Half a second after noon, on a clock that is half a second ahead. -/
def aheadNoon : DateTime :=
  ⟨⟨63843854400500000, by decide⟩, some ⟨500000, by decide, by decide⟩⟩

/-- The instant as which its timestamp is read. -/
def lateNoon : DateTime := .utc ⟨63843854400500000, by decide⟩

/-- The deleted item after an update that lets its deletion be shown on this clock. -/
def aheadHello : Item := { redactedHello with deletedAt := .dateTime aheadNoon }

theorem aheadHello_check : aheadHello.readsBackCheck = true := by decide +kernel

theorem reload_aheadHello :
    aheadHello.reload = .ok { redactedHello with deletedAt := .dateTime lateNoon } := by
  have hread : DateTime.readIso? aheadNoon.iso = some lateNoon := by decide +kernel
  refine Item.reload_of_fields (by decide) fun field => ?_
  cases field
  case createdAt => exact Field.reload_dateTime _ noon_portable
  case deletedAt => exact Field.reload_of_readIso? rfl hread
  all_goals rfl

def aheadUpdate : Call := .update (.int 1) [("deleted_at", .dateTime aheadNoon)]

theorem written?_aheadUpdate : aheadUpdate.written? deletedService = some aheadHello := by
  have hknown : (Store.unknownNames [("deleted_at", .dateTime aheadNoon)]).isEmpty = true := rfl
  have hfree : (redactedHello.deletedAt.isNull || (Store.frozenChanges redactedHello
      (Store.knownChanges [("deleted_at", .dateTime aheadNoon)])).isEmpty) = true := by
    decide +kernel
  rw [aheadUpdate, Call.written?, Store.updated?_of_find find_deletedService hknown hfree]
  rfl

/-- An update that gives the deletion of an item the instant which it has already leaves it
at another one, although all that was written is read back as it was. -/
theorem update_moves_deletion :
    (Value.dateTime aheadNoon).same redactedHello.deletedAt = true ∧ aheadUpdate.Amends ∧
    (Service.fresh noon).Faithful
      ([helloItem].map .save ++ [deleteHello] ++ [aheadUpdate]) ∧
    ((Service.fresh noon).after ([helloItem].map .save ++ [deleteHello])).store.find (.int 1) =
      .ok (some redactedHello) ∧
    (((Service.fresh noon).after ([helloItem].map .save ++ [deleteHello])).after
      [aheadUpdate]).store.find (.int 1) =
      .ok (some { redactedHello with deletedAt := .dateTime lateNoon }) ∧
    (Value.dateTime lateNoon).same redactedHello.deletedAt = false := by
  have hid : aheadHello.id = .int 1 := rfl
  have hreached : (Service.fresh noon).after ([helloItem].map .save ++ [deleteHello]) =
      deletedService := rfl
  refine ⟨by decide +kernel, ?_, ⟨Call.readsBack_of_written? rfl helloItem_check,
    Call.readsBack_of_written? written?_deleteHello redactedHello_check,
    Call.readsBack_of_written? written?_aheadUpdate aheadHello_check, trivial⟩, ?_, ?_,
    by decide +kernel⟩
  · intro change hchange
    obtain rfl := List.mem_singleton.mp hchange
    exact ⟨by decide, rfl⟩
  · rw [hreached, find_deletedService]
  · rw [hreached, Service.after_cons, Service.after_nil, ← hid,
      Call.find_run written?_aheadUpdate (writableName_deletedService hid) aheadHello_check,
      reload_aheadHello]
    rfl

end Deferral
