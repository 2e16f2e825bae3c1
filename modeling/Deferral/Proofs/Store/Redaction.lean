/-
# Deferral.Proofs.Store.Redaction -- what is left of deleted items

An item that is deleted shows nothing of its content. The operations that delete keep this
up, and once an item is deleted the check of frozen fields does. Two calls can break it: an
update that gives a live item a deletion and no notices, and a redaction by means of an
item which lacks content that the stored one has. `Call.RedactsFully` excludes these, and
along runs of all other calls every deleted item is redacted.
-/

import Deferral.Proofs.Store.RoundTrip

namespace Deferral

/-! ## Changes and redaction -/

/-- Nothing but a notice is the same as a notice. -/
theorem Field.eq_notice_of_same {field : Field} {value : Value}
    (h : value.same field.notice = true) : value = field.notice := by
  cases field
  case text => exact Value.eq_text_of_same h
  case title => exact Value.eq_text_of_same h
  all_goals exact Value.eq_null_of_same_null h

namespace Item

/-- If the item is deleted, then it is redacted. -/
def HidesDeleted (item : Item) : Prop := item.deletedAt.isNull = false → item.IsRedacted

theorem isRedacted_reload {item result : Item} (h : item.reload = .ok result) :
    result.IsRedacted ↔ item.IsRedacted := by
  have hget : ∀ field ∈ Field.content, result.get field = item.get field := by
    intro field hfield
    exact get_reload h (Field.holdsInstant_of_mem_content hfield)
      (Field.ne_path_of_mem_content hfield)
  constructor
  · intro hredacted field hfield
    have hat := hredacted field hfield
    rw [IsRedactedAt, hget field hfield] at hat
    exact hat
  · intro hredacted field hfield
    rw [IsRedactedAt, hget field hfield]
    exact hredacted field hfield

/-- An item hides what is deleted exactly if its record does. -/
theorem hidesDeleted_reload {item result : Item} (h : item.reload = .ok result) :
    result.HidesDeleted ↔ item.HidesDeleted := by
  rw [HidesDeleted, HidesDeleted, isNull_deletedAt_reload h, isRedacted_reload h]

/-- Changes that pass for no change of the content leave an item redacted. -/
theorem IsRedacted.setAll {item : Item} (h : item.IsRedacted) {changes : List (Field × Value)}
    (hsame : ∀ field ∈ Field.frozen, ∀ value,
      lastChange? changes field = some value → value.same (item.get field) = true) :
    (item.setAll changes).IsRedacted := by
  intro field hfield
  rw [IsRedactedAt, get_setAll]
  cases hchange : lastChange? changes field with
  | none => exact h field hfield
  | some value =>
      have hvalue := hsame field (Field.mem_frozen_of_mem_content hfield) value hchange
      rw [Option.getD_some]
      rcases h field hfield with habsent | hnotice
      · refine Or.inl ?_
        rw [Value.isPresent_eq_of_same hvalue, habsent]
      · refine Or.inr (Field.eq_notice_of_same ?_)
        rw [← hnotice, hvalue]

section

variable {base item : Item} {now : DateTime} {changes : List (Field × Value)}
  (h : base.redaction now = .ok changes)
include h

/-- What redacts one item puts notices into another where the first one has content. -/
theorem get_setAll_redaction {field : Field} (hfield : field ∈ Field.content) :
    (item.setAll changes).get field =
      if (base.get field).isPresent then field.notice else item.get field := by
  obtain ⟨_, -, hlast⟩ := lastChange?_redaction h
  rw [get_setAll, hlast field, if_neg (Field.ne_deletedAt_of_mem_content hfield)]
  by_cases hpresent : (base.get field).isPresent = true
  · rw [if_pos ⟨hfield, hpresent⟩, if_pos hpresent, Option.getD_some]
  · rw [if_neg fun hboth => hpresent hboth.2, if_neg hpresent, Option.getD_none]

theorem isNull_deletedAt_setAll_redaction : (item.setAll changes).deletedAt.isNull = false := by
  obtain ⟨deletedAt, hdeleted, hlast⟩ := lastChange?_redaction h
  have hvalue : (item.setAll changes).get .deletedAt = deletedAt := by
    rw [get_setAll, hlast .deletedAt, if_pos rfl, Option.getD_some]
  show ((item.setAll changes).get .deletedAt).isNull = false
  rw [hvalue, isNull_deletionInstant hdeleted]

/-- What redacts one item redacts another exactly if nothing is left in the fields that the
first one lacks. -/
theorem hidesDeleted_setAll_redaction : (item.setAll changes).HidesDeleted ↔
    ∀ field ∈ Field.content, (base.get field).isPresent = true ∨ item.IsRedactedAt field := by
  constructor
  · intro hhides field hfield
    have hat := hhides (isNull_deletedAt_setAll_redaction h) field hfield
    by_cases hpresent : (base.get field).isPresent = true
    · exact Or.inl hpresent
    · rw [IsRedactedAt, get_setAll_redaction h hfield, if_neg hpresent] at hat
      exact Or.inr hat
  · intro hfull _ field hfield
    rw [IsRedactedAt, get_setAll_redaction h hfield]
    by_cases hpresent : (base.get field).isPresent = true
    · rw [if_pos hpresent]
      exact Or.inr rfl
    · rw [if_neg hpresent]
      exact (hfull field hfield).resolve_left hpresent

end

end Item

/-! ## Calls that redact what they delete -/

/-- The call deletes no live item without redacting it: a saved item hides what is deleted,
an update of known fields that makes an item deleted leaves nothing of its content, and an
item that is given for a redaction has all the content that the stored one has. -/
def Call.RedactsFully (service : Service) : Call → Prop
  | save item => item.HidesDeleted
  | update id changes => (Store.unknownNames changes).isEmpty = true →
    ∀ item, service.store.find id = .ok (some item) → item.deletedAt.isNull = true →
    (item.setAll (Store.knownChanges changes)).HidesDeleted
  | redact id (some given) now => ∀ n changes item, id.toInteger = .ok n →
    given.redaction (now.getD service.clock) = .ok changes →
    service.store.find (.int n) = .ok (some item) → item.deletedAt.isNull = true →
    ∀ field ∈ Field.content, (given.get field).isPresent = true ∨ item.IsRedactedAt field
  | _ => True

namespace Store

variable {store : Store} (h : store.Every fun _ item => item.HidesDeleted)
include h

/-- What is found hides what is deleted. -/
theorem hidesDeleted_of_find {id : Value} {found : Item}
    (hfind : store.find id = .ok (some found)) : found.HidesDeleted := by
  obtain ⟨_, item, -, -, hhides, hreload⟩ := h.find hfind
  exact (Item.hidesDeleted_reload hreload).mpr hhides

/-- Changes keep up that deleted items are redacted, if they do so where the item was live. -/
theorem hidesDeleted_of_changed {id : Value} {changes : List (Field × Value)} {item : Item}
    (hchanged : store.changed id changes = .ok item)
    (hlive : ∀ found, store.find id = .ok (some found) → found.deletedAt.isNull = true →
      (found.setAll changes).HidesDeleted) : item.HidesDeleted := by
  obtain ⟨found, hfind, rfl, hfree⟩ := changed_eq_ok hchanged
  cases hnull : found.deletedAt.isNull with
  | true => exact hlive found hfind hnull
  | false =>
      have hsame := hfree.resolve_left (by rw [hnull]; exact Bool.false_ne_true)
      intro _
      exact (hidesDeleted_of_find h hfind hnull).setAll hsame

/-- A redaction by means of an item that has all the content leaves none. -/
theorem hidesDeleted_of_redacted? {id : Value} {given : Option Item} {now : DateTime} {item : Item}
    (hredacted : store.redacted? id given now = some item)
    (hgiven : ∀ base, given = some base → ∀ n changes found, id.toInteger = .ok n →
      base.redaction now = .ok changes → store.find (.int n) = .ok (some found) →
      found.deletedAt.isNull = true →
      ∀ field ∈ Field.content, (base.get field).isPresent = true ∨ found.IsRedactedAt field) :
    item.HidesDeleted := by
  obtain ⟨n, base, changes, hn, hredaction, hchanged, hbase⟩ := redacted?_eq_some hredacted
  refine hidesDeleted_of_changed h hchanged fun found hfind hnull => ?_
  refine (Item.hidesDeleted_setAll_redaction hredaction).mpr ?_
  rcases hbase with rfl | ⟨-, hstored⟩
  · exact hgiven base rfl n changes found hn hredaction hfind hnull
  · -- The stored item has all its own content.
    obtain rfl : base = found := by
      rw [hfind] at hstored
      cases hstored
      rfl
    intro field _
    cases hpresent : (base.get field).isPresent with
    | true => exact Or.inl rfl
    | false => exact Or.inr (Or.inl hpresent)

end Store

namespace Call

/-- A call redacts what it deletes exactly if what it goes on to save hides what is deleted. -/
theorem redactsFully_iff {service : Service}
    (h : service.store.Every fun _ item => item.HidesDeleted) (call : Call) :
    call.RedactsFully service ↔
      ∀ item, call.written? service = some item → item.HidesDeleted := by
  constructor
  · intro hfully item hwritten
    cases call with
    | wait clock => cases hwritten
    | find id => cases hwritten
    | save saved =>
        cases hwritten
        exact hfully
    | update id changes =>
        obtain ⟨hknown, hchanged⟩ := Store.updated?_eq_some hwritten
        exact Store.hidesDeleted_of_changed h hchanged (hfully hknown)
    | redact id given now =>
        refine Store.hidesDeleted_of_redacted? h hwritten fun base hbase => ?_
        subst hbase
        exact hfully
    | handle name payload =>
        obtain ⟨id, -, hredacted⟩ := Option.bind_eq_some_iff.mp hwritten
        refine Store.hidesDeleted_of_redacted? h hredacted fun base hbase => ?_
        cases hbase
  · intro hhides
    cases call with
    | wait clock => trivial
    | find id => trivial
    | handle name payload => trivial
    | save saved => exact hhides saved rfl
    | update id changes =>
        intro hknown item hfind hnull
        have hwritten := Store.updated?_of_find hfind hknown
          (Bool.or_eq_true_iff.mpr (Or.inl hnull))
        exact hhides _ hwritten
    | redact id given now =>
        cases given with
        | none => trivial
        | some given =>
            intro n changes item hn hredaction hfind hnull
            have hbase : service.store.redactable id (some given) = .ok given := rfl
            have hwritten := Store.redacted?_of_redactable hn hbase hredaction hfind
              (Bool.or_eq_true_iff.mpr (Or.inl hnull))
            exact (Item.hidesDeleted_setAll_redaction hredaction).mp (hhides _ hwritten)

/-- A call keeps it up that every stored item hides what is deleted. -/
theorem every_hidesDeleted {service : Service} {call : Call}
    (h : service.store.Every fun _ item => item.HidesDeleted)
    (hback : ∀ item, call.written? service = some item → item.ReadsBack)
    (hfully : call.RedactsFully service) :
    (call.run service).2.store.Every fun _ item => item.HidesDeleted :=
  every_run h hback fun item hwritten _ _ => (redactsFully_iff h call).mp hfully item hwritten

end Call

/-! ## Runs -/

/-- **Deleted items are redacted.** Items without a deletion are saved in an empty folder,
and calls are made on them of which each redacts what it deletes. Then whatever item is
found, if it is deleted then nothing of its content is left. In the state that is reached,
the calls that redact what they delete are exactly those that keep this up in what they
save. -/
theorem Service.deleted_items_redacted {start : Service}
    (hempty : start.store.folder = Folder.empty)
    {items : List Item} (hlive : ∀ item ∈ items, item.deletedAt = .null) {calls : List Call}
    (hfaithful : start.Faithful (items.map .save ++ calls))
    (hfully : (start.after (items.map .save)).Along Call.RedactsFully calls)
    {reached : Service} (hreached : reached = (start.after (items.map .save)).after calls) :
    (∀ id found, reached.store.find id = .ok (some found) → found.deletedAt.isNull = false →
      found.IsRedacted) ∧
    ∀ call : Call, call.RedactsFully reached ↔
      ∀ item, call.written? reached = some item → item.HidesDeleted := by
  have hsaves : start.Along Call.RedactsFully (items.map .save) := by
    refine along_of_forall fun call hcall service => ?_
    obtain ⟨item, hitem, rfl⟩ := List.mem_map.mp hcall
    intro hnull
    rw [hlive item hitem] at hnull
    cases hnull
  have hstep : ∀ (service : Service) (call : Call),
      (service.store.Every fun _ item => item.HidesDeleted) →
      (∀ item, call.written? service = some item → item.ReadsBack) ∧ call.RedactsFully service →
      (call.run service).2.store.Every fun _ item => item.HidesDeleted := by
    intro service call hinv hcall
    exact Call.every_hidesDeleted hinv hcall.1 hcall.2
  have hevery := after_induction hstep (Store.every_of_empty hempty)
    (hfaithful.and (hsaves.append hfully))
  rw [after_append, ← hreached] at hevery
  refine ⟨fun id found hfind => Store.hidesDeleted_of_find hevery hfind, ?_⟩
  exact Call.redactsFully_iff hevery

/-- The item that was saved and then deleted is redacted. -/
theorem deleted_items_redacted_hello :
    deletedService.store.find (.int 1) = .ok (some redactedHello) ∧ redactedHello.IsRedacted := by
  refine ⟨find_deletedService, ?_⟩
  have hlive : ∀ item ∈ [helloItem], item.deletedAt = .null := List.forall_mem_singleton.mpr rfl
  have hfully : ((Service.fresh noon).after ([helloItem].map .save)).Along Call.RedactsFully
      [deleteHello] := ⟨trivial, trivial⟩
  have hreached : deletedService =
      ((Service.fresh noon).after ([helloItem].map .save)).after [deleteHello] := rfl
  obtain ⟨hfound, -⟩ :=
    Service.deleted_items_redacted rfl hlive faithful_deleteHello hfully hreached
  exact hfound (.int 1) redactedHello find_deletedService rfl

/-! ## An update that deletes without redacting -/

/-- The item after an update that gives it a deletion and nothing else. -/
def deletedHello : Item := { helloItem with deletedAt := .dateTime noon }

theorem deletedHello_check : deletedHello.readsBackCheck = true := by decide +kernel

theorem reload_deletedHello : deletedHello.reload = .ok deletedHello := by
  refine Item.reload_of_fields (by decide) fun field => ?_
  cases field <;> first | exact Field.reload_dateTime _ noon_portable | rfl

/-- An update that gives the stored item a deletion. -/
def deletionUpdate : Call := .update (.int 1) [("deleted_at", .dateTime noon)]

theorem written?_deletionUpdate : deletionUpdate.written? helloService = some deletedHello := by
  rw [deletionUpdate, Call.written?, Store.updated?_of_find find_helloService rfl rfl]
  rfl

/-- After the update the item is deleted and still shows its text, although all that was
written is read back as it was. -/
theorem update_deletes_unredacted :
    (Service.fresh noon).Faithful ([helloItem].map .save ++ [deletionUpdate]) ∧
    (((Service.fresh noon).after ([helloItem].map .save)).after [deletionUpdate]).store.find
      (.int 1) = .ok (some deletedHello) ∧
    deletedHello.deletedAt.isNull = false ∧ ¬ deletedHello.IsRedacted := by
  have hid : deletedHello.id = .int 1 := rfl
  have hstart : (Service.fresh noon).after ([helloItem].map .save) = helloService := rfl
  refine ⟨⟨Call.readsBack_of_written? rfl helloItem_check,
    Call.readsBack_of_written? written?_deletionUpdate deletedHello_check, trivial⟩, ?_, rfl, ?_⟩
  · rw [hstart, Service.after_cons, Service.after_nil, ← hid,
      Call.find_run written?_deletionUpdate (writableName_helloService hid) deletedHello_check,
      reload_deletedHello]
    rfl
  · intro hredacted
    rcases hredacted .text (by decide) with habsent | hnotice
    · cases habsent
    · have htext : "hello" = Item.deletedText := Value.text.inj hnotice
      revert htext
      decide

end Deferral
