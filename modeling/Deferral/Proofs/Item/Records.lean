/-
# Deferral.Proofs.Item.Records -- records keep items, in any order of their keys

The item of a record is that of its fields: other keys are passed over, and since no field comes
twice, the order of the keys does not matter. The record of a well-typed item with a path holds
every field of it. What is no instant comes back as it is, and an instant does with its wall clock
and its offset, unless the offset is one that timestamps do not carry: if it is shorter than a
second, what comes back shows UTC.
-/

import Mathlib.Data.List.Nodup
import Deferral.Proofs.Item.Typed

namespace Deferral

namespace Item

/-! ## The order of changes -/

/-- Among changes of different fields, the last one of a field is the one that there is. -/
theorem lastChange?_eq_some_iff {changes : List (Field × Value)}
    (h : (changes.map Prod.fst).Nodup) {field : Field} {value : Value} :
    lastChange? changes field = some value ↔ (field, value) ∈ changes := by
  refine ⟨mem_of_lastChange?, fun hmem => ?_⟩
  cases hlast : lastChange? changes field with
  | none =>
      rw [lastChange?, Option.map_eq_none_iff, List.find?_eq_none] at hlast
      exact absurd (beq_self_eq_true field) (hlast _ (List.mem_reverse.mpr hmem))
  | some last =>
      have hsame := List.inj_on_of_nodup_map h (mem_of_lastChange? hlast) hmem rfl
      rw [(Prod.mk.inj hsame).2]

theorem lastChange?_of_perm {changes others : List (Field × Value)}
    (h : (changes.map Prod.fst).Nodup) (hperm : others.Perm changes) (field : Field) :
    lastChange? others field = lastChange? changes field := by
  have hothers : (others.map Prod.fst).Nodup := ((hperm.map Prod.fst).nodup_iff).mpr h
  apply Option.ext
  intro value
  rw [lastChange?_eq_some_iff h, lastChange?_eq_some_iff hothers, hperm.mem_iff]

theorem ofFields_of_perm {fields others : List (Field × Value)}
    (h : (fields.map Prod.fst).Nodup) (hperm : others.Perm fields) :
    ofFields others = ofFields fields := by
  simp only [ofFields, lastChange?_of_perm h hperm]

/-! ## Keys of records -/

section Keys

variable {record extra permuted : List (Value × Value)}

/-- A key that names no field is passed over. -/
theorem fieldsOfRecord_eq_nil (h : ∀ entry ∈ extra, ∀ field : Field, entry.1 ≠ .text field.name) :
    fieldsOfRecord extra = [] := by
  rw [fieldsOfRecord, List.filterMap_eq_nil_iff]
  intro entry hentry
  split
  · next name hname =>
      rw [Option.map_eq_none_iff]
      by_contra hknown
      obtain ⟨field, hfield⟩ := Option.ne_none_iff_exists'.mp hknown
      refine h entry hentry field ?_
      rw [hname, Field.name_eq_of_ofName? hfield]
  · rfl

theorem fieldsOfRecord_perm
    (hextra : ∀ entry ∈ extra, ∀ field : Field, entry.1 ≠ .text field.name)
    (hperm : permuted.Perm (record ++ extra)) :
    (fieldsOfRecord permuted).Perm (fieldsOfRecord record) := by
  have hfields : fieldsOfRecord (record ++ extra) = fieldsOfRecord record := by
    have happend : fieldsOfRecord (record ++ extra) =
        fieldsOfRecord record ++ fieldsOfRecord extra := List.filterMap_append
    rw [happend, fieldsOfRecord_eq_nil hextra, List.append_nil]
  rw [← hfields]
  exact hperm.filterMap _

/-- A record in which no field comes twice has its item in any order of its keys, and with any
others among them. -/
theorem ofRecord_of_perm {item : Item} (h : ofRecord record = .ok item)
    (hnames : ((fieldsOfRecord record).map Prod.fst).Nodup)
    (hextra : ∀ entry ∈ extra, ∀ field : Field, entry.1 ≠ .text field.name)
    (hperm : permuted.Perm (record ++ extra)) : ofRecord permuted = .ok item := by
  have hfields := fieldsOfRecord_perm hextra hperm
  obtain ⟨table, htable, hitem⟩ := bind_eq_ok h
  obtain ⟨hread, rfl⟩ := mapM_table_eq_ok htable
  have hpermuted : ∀ entry ∈ fieldsOfRecord permuted,
      entry.1.ofRecord entry.2 = .ok (okValue (entry.1.ofRecord entry.2)) :=
    fun entry hentry => hread entry (hfields.mem_iff.mp hentry)
  have hkeys : (((fieldsOfRecord record).map fun entry =>
      (entry.1, okValue (entry.1.ofRecord entry.2))).map Prod.fst).Nodup := by
    rw [List.map_map]
    exact hnames
  rw [ofRecord, mapM_table_ok hpermuted, ok_bind, ofFields_of_perm hkeys (hfields.map _), hitem]

end Keys

/-! ## Items and their records -/

/-- No field comes twice in the record of an item. -/
theorem nodup_fieldsOfRecord {item : Item} {record : List (Value × Value)}
    (h : item.toRecord = .ok record) : ((fieldsOfRecord record).map Prod.fst).Nodup := by
  obtain ⟨-, rfl⟩ := toRecord_eq_ok h
  rw [fieldsOfRecord_names, List.map_map]
  show (Field.all.map fun field => field).Nodup
  decide

/-- The item with its instants as timestamps carry them. -/
def carried (item : Item) : Item :=
  ofFunction fun field =>
    match item.get field with
    | .dateTime t => .dateTime t.carried
    | value => value

section Carried

variable {item : Item} {field : Field}

theorem get_carried_dateTime {t : DateTime} (h : item.get field = .dateTime t) :
    item.carried.get field = .dateTime t.carried := by
  rw [carried, get_ofFunction, h]

theorem get_carried_of_ne (h : ∀ t, item.get field ≠ .dateTime t) :
    item.carried.get field = item.get field := by
  rw [carried, get_ofFunction]
  split
  · next t ht => exact absurd ht (h t)
  · rfl

theorem eq_of_get_eq {other : Item} (h : ∀ field : Field, item.get field = other.get field) :
    item = other := by
  have hself : ∀ item : Item, ofFunction item.get = item := fun _ => rfl
  rw [← hself item, ← hself other, funext h]

/-- A well-typed item with a path comes back as timestamps carry it. -/
theorem WellTyped.reload_eq_carried (h : item.WellTyped) (hpath : item.path ≠ .text "") :
    item.reload = .ok item.carried := by
  obtain ⟨s, hs⟩ := Field.admits_path (h .path)
  have hcarried : item.carried.path = .text s := by
    have hget : item.get .path = .text s := hs
    show item.carried.get .path = _
    rw [get_carried_of_ne (by rw [hget]; simp), hget]
  refine reload_of_fields ?_ fun field => ?_
  · rw [hcarried]
    refine bne_iff_ne.mpr ?_
    rintro rfl
    exact hpath hs
  · obtain ⟨result, hresult, hcases⟩ := Field.reload_of_admits (h field)
    rw [hresult]
    rcases hcases with rfl | ⟨t, ht, rfl⟩
    · -- What comes back as it is can be an instant only if timestamps carry it.
      cases hvalue : item.get field with
      | dateTime t =>
          have hinstant := h.holdsInstant hvalue
          rw [hvalue, Field.reload_of_readIso? hinstant t.readIso?_iso_carried] at hresult
          rw [get_carried_dateTime hvalue, ← hresult]
      | _ =>
          refine congrArg Except.ok ?_
          rw [get_carried_of_ne (by simp [hvalue]), hvalue]
    · rw [get_carried_dateTime ht]

end Carried

end Item

theorem DateTime.offset_carried_of_not_portable {t : DateTime} (h : ¬ t.Portable) :
    t.carried.offset = some .utc := by
  obtain ⟨o, ho, hshort⟩ : ∃ o, t.offset = some o ∧ ¬ o.Portable := by
    simpa only [Portable, not_forall, exists_prop] using h
  rw [Offset.Portable, not_or, Nat.not_le] at hshort
  rw [carried, ho, Option.map_some, Offset.carried, if_pos hshort.2]

theorem DateTime.carried_eq_iff {t : DateTime} : t.carried = t ↔ t.Portable := by
  refine ⟨fun h => ?_, carried_of_portable⟩
  by_contra hnot
  have hoffset := offset_carried_of_not_portable hnot
  rw [h] at hoffset
  refine hnot fun o ho => Or.inl ?_
  rw [hoffset] at ho
  cases ho
  rfl

/-- **The record of an item keeps all of it that timestamps carry.** Every well-typed item with a
path has a record, and the record has an item. Each field that is no instant comes back as it is,
and each instant with the reading of its wall clock. The offset of an instant comes back too, or
its lack of one, unless it is other than zero and shorter than a second: the clock that comes back
then shows UTC. So all of the item comes back exactly if it has no such offset. Further keys that
name no field, and any other order of the keys, give the same item. -/
theorem Item.record_keeps_item {item : Item} (h : item.WellTyped) (hpath : item.path ≠ .text "") :
    ∃ record loaded, item.toRecord = .ok record ∧ ofRecord record = .ok loaded ∧
      (∀ field : Field, (∀ t, item.get field ≠ .dateTime t) →
        loaded.get field = item.get field) ∧
      (∀ (field : Field) t, item.get field = .dateTime t →
        ∃ u : DateTime, loaded.get field = .dateTime u ∧ u.wall = t.wall ∧
          (t.Portable → u.offset = t.offset) ∧ (¬ t.Portable → u.offset = some .utc)) ∧
      (loaded = item ↔ ∀ (field : Field) t, item.get field = .dateTime t → t.Portable) ∧
      ∀ extra permuted : List (Value × Value),
        (∀ entry ∈ extra, ∀ field : Field, entry.1 ≠ .text field.name) →
          permuted.Perm (record ++ extra) → ofRecord permuted = .ok loaded := by
  obtain ⟨record, hrecord, hloaded⟩ := bind_eq_ok (h.reload_eq_carried hpath)
  refine ⟨record, item.carried, hrecord, hloaded, fun field => get_carried_of_ne, ?_, ?_, ?_⟩
  · intro field t ht
    refine ⟨t.carried, get_carried_dateTime ht, rfl, fun hportable => ?_,
      DateTime.offset_carried_of_not_portable⟩
    rw [DateTime.carried_of_portable hportable]
  · constructor
    · intro hsame field t ht
      have hback := get_carried_dateTime ht
      rw [hsame, ht] at hback
      exact DateTime.carried_eq_iff.mp (Value.dateTime.inj hback).symm
    · intro hportable
      refine eq_of_get_eq fun field => ?_
      by_cases hinstant : ∃ t, item.get field = .dateTime t
      · obtain ⟨t, ht⟩ := hinstant
        rw [get_carried_dateTime ht, DateTime.carried_of_portable (hportable field t ht), ht]
      · exact get_carried_of_ne fun t ht => hinstant ⟨t, ht⟩
  · intro extra permuted hextra hperm
    exact ofRecord_of_perm hloaded (nodup_fieldsOfRecord hrecord) hextra hperm

/-- A clock a quarter of a second ahead of UTC, at two in the afternoon. -/
def quarterSecondAhead : DateTime :=
  ⟨⟨63843861600000000, by decide⟩, some ⟨250000, by decide, by decide⟩⟩

/-- An item that was created at that time of this clock, with a text and a path. -/
def quarterSecondItem : Item where
  id := .int 1
  createdAt := .dateTime quarterSecondAhead
  text := .text "hello"
  title := .null
  url := .null
  pollCost := .null
  deletedAt := .null
  scheduledAt := .null
  pinned := .bool false
  bio := .bool false
  path := .text "1"
  maxBid := .null

theorem wellTyped_quarterSecondItem : quarterSecondItem.WellTyped := by
  intro field
  cases field <;> rfl

theorem path_quarterSecondItem : quarterSecondItem.path ≠ .text "" := by
  intro h
  exact absurd (Value.text.inj h) (by decide)

theorem not_portable_quarterSecondAhead : ¬ quarterSecondAhead.Portable := by
  intro h
  exact absurd (h _ rfl) (by decide)

/-- A key for tags, even in front of all others, leaves the item of its record alone. Its text
stays, but the clock by which it was created becomes one that shows UTC. -/
theorem record_keeps_item_quarterSecond :
    quarterSecondItem.WellTyped ∧ quarterSecondItem.path ≠ .text "" ∧
      ∃ record loaded, quarterSecondItem.toRecord = .ok record ∧
        Item.ofRecord ((.text "tags", .int 7) :: record) = .ok loaded ∧
        loaded.text = .text "hello" ∧
        loaded.createdAt = .dateTime (.utc quarterSecondAhead.wall) := by
  obtain ⟨record, loaded, hrecord, -, hkept, hclock, -, horder⟩ :=
    Item.record_keeps_item wellTyped_quarterSecondItem path_quarterSecondItem
  refine ⟨wellTyped_quarterSecondItem, path_quarterSecondItem, record, loaded, hrecord, ?_, ?_,
    ?_⟩
  · refine horder [(.text "tags", .int 7)] _ ?_ (List.perm_append_singleton _ _).symm
    rw [List.forall_mem_singleton]
    intro field hname
    have hnone : ∀ field : Field, "tags" ≠ field.name := by
      intro field
      cases field <;> decide
    exact hnone field (Value.text.inj hname)
  · exact hkept .text (by intro t ht; cases ht)
  · obtain ⟨u, hu, hwall, -, hoffset⟩ := hclock .createdAt quarterSecondAhead rfl
    have hcreated : loaded.createdAt = .dateTime u := hu
    rw [hcreated]
    obtain ⟨wall, offset⟩ := u
    cases hwall
    cases hoffset not_portable_quarterSecondAhead
    rfl

/-- Not every offset comes back, not even of a well-typed item with a path. -/
theorem record_loses_offset :
    ¬ ∀ item : Item, item.WellTyped → item.path ≠ .text "" →
      ∃ record, item.toRecord = .ok record ∧ Item.ofRecord record = .ok item := by
  intro h
  obtain ⟨record, hrecord, hloaded⟩ := h quarterSecondItem wellTyped_quarterSecondItem
    path_quarterSecondItem
  have hback : quarterSecondItem.reload = .ok quarterSecondItem := by
    rw [Item.reload, hrecord, ok_bind, hloaded]
  have hcarried := wellTyped_quarterSecondItem.reload_eq_carried path_quarterSecondItem
  have hsame : quarterSecondItem.carried = quarterSecondItem :=
    Except.ok.inj (hcarried.symm.trans hback)
  have hclock : quarterSecondAhead.carried = quarterSecondAhead :=
    Value.dateTime.inj (congrArg Item.createdAt hsame)
  exact not_portable_quarterSecondAhead (DateTime.carried_eq_iff.mp hclock)

end Deferral
