/-
# Deferral.Proofs.Item.Reload -- an item as its record gives it back

An item that goes through a record keeps its fields, except for its path, which is set if
it was empty, and for its instants, which become text and are read again. Whether an
instant is there at all does not change, and one that was read before comes back as it is.
-/

import Deferral.Proofs.Calendar.IsoRoundTrip
import Deferral.Proofs.Item.Changes

namespace Deferral

/-! ## Values that may fail -/

/-- The value of a step, or nothing if the step failed. -/
def okValue (x : Except Failure Value) : Value := x.toOption.getD .null

/-- A table that is filled step by step has an entry for each key. -/
theorem mapM_table_eq_ok {α κ : Type} {keys : List α} {key : α → κ}
    {value : α → Except Failure Value} {table : List (κ × Value)}
    (h : (keys.mapM fun x => do return (key x, ← value x)) = .ok table) :
    (∀ x ∈ keys, value x = .ok (okValue (value x))) ∧
      table = keys.map fun x => (key x, okValue (value x)) := by
  induction keys generalizing table with
  | nil =>
      cases h
      refine ⟨fun x hx => ?_, rfl⟩
      cases hx
  | cons x keys ih =>
      rw [List.mapM_cons] at h
      obtain ⟨entry, hentry, h⟩ := bind_eq_ok h
      obtain ⟨rest, hrest, h⟩ := bind_eq_ok h
      obtain ⟨v, hv, hpair⟩ := bind_eq_ok hentry
      cases hpair
      cases h
      obtain ⟨hall, rfl⟩ := ih hrest
      have hx : okValue (value x) = v := by
        rw [hv]
        rfl
      refine ⟨List.forall_mem_cons.mpr ⟨by rw [hx, hv], hall⟩, ?_⟩
      rw [List.map_cons, hx]

/-- A table is filled when no step fails. -/
theorem mapM_table_ok {α κ : Type} {keys : List α} {key : α → κ}
    {value : α → Except Failure Value} {result : α → Value}
    (h : ∀ x ∈ keys, value x = .ok (result x)) :
    (keys.mapM fun x => do return (key x, ← value x)) =
      (.ok (keys.map fun x => (key x, result x)) : Except Failure (List (κ × Value))) := by
  induction keys with
  | nil => rfl
  | cons x keys ih =>
      obtain ⟨hx, hkeys⟩ := List.forall_mem_cons.mp h
      rw [List.mapM_cons, hx, ih hkeys]
      rfl

/-! ## Single fields -/

namespace Field

/-- The value of a field after it went through a record. -/
def reload (field : Field) (value : Value) : Except Failure Value :=
  field.toRecord value >>= field.ofRecord

theorem reload_of_not_holdsInstant {field : Field} (h : field.holdsInstant = false)
    (value : Value) : field.reload value = .ok value := by
  cases field <;> first | rfl | cases h

theorem reload_null (field : Field) : field.reload .null = .ok .null := by
  cases field <;> rfl

/-- An instant that is there comes back as the clock reading of its timestamp. -/
theorem reload_instant {field : Field} (h : field.holdsInstant = true) {value result : Value}
    (hvalue : value.isNull = false) (hreload : field.reload value = .ok result) :
    ∃ timestamp t, value.iso? = some timestamp ∧ DateTime.readIso? timestamp = some t ∧
      result = .dateTime t := by
  obtain ⟨written, hwritten, hread⟩ := bind_eq_ok hreload
  rw [toRecord, h, hvalue] at hwritten
  cases hiso : value.iso? with
  | none =>
      rw [hiso] at hwritten
      cases hwritten
  | some timestamp =>
      rw [hiso] at hwritten
      cases hwritten
      simp only [ofRecord, h, String.toList_ofList] at hread
      cases ht : DateTime.readIso? timestamp with
      | none =>
          rw [ht] at hread
          cases hread
      | some t =>
          rw [ht] at hread
          cases hread
          exact ⟨timestamp, t, rfl, ht, rfl⟩

/-- A clock reading comes back as its timestamp is read. -/
theorem reload_of_readIso? {field : Field} (hinstant : field.holdsInstant = true) {t u : DateTime}
    (h : DateTime.readIso? t.iso = some u) : field.reload (.dateTime t) = .ok (.dateTime u) := by
  rw [reload, toRecord, hinstant]
  show field.ofRecord (.text (String.ofList t.iso)) = _
  simp only [ofRecord, hinstant, String.toList_ofList, h]

/-- A clock reading that timestamps carry comes back as it is. -/
theorem reload_dateTime (field : Field) {t : DateTime} (h : t.Portable) :
    field.reload (.dateTime t) = .ok (.dateTime t) := by
  cases hinstant : field.holdsInstant with
  | false => exact reload_of_not_holdsInstant hinstant _
  | true => exact reload_of_readIso? hinstant (DateTime.readIso?_iso h)

end Field

/-! ## Items -/

namespace Item

/-- The item after it went through a record. -/
def reload (item : Item) : Except Failure Item := item.toRecord >>= ofRecord

/-- The record of an item lists all fields. -/
theorem toRecord_eq_ok {item : Item} {record : List (Value × Value)}
    (h : item.toRecord = .ok record) :
    (∀ field : Field, field.toRecord (item.get field) =
      .ok (okValue (field.toRecord (item.get field)))) ∧
    record = Field.all.map fun field =>
      (.text field.name, okValue (field.toRecord (item.get field))) := by
  obtain ⟨hall, hrecord⟩ := mapM_table_eq_ok h
  exact ⟨fun field => hall field field.mem_all, hrecord⟩

theorem fieldsOfRecord_names (value : Field → Value) :
    fieldsOfRecord (Field.all.map fun field => (.text field.name, value field)) =
      Field.all.map fun field => (field, value field) := by
  have hentry : ∀ field : Field, ((Field.ofName? field.name).map fun f => (f, value field)) =
      some (field, value field) := by
    intro field
    rw [Field.ofName?_name, Option.map_some]
  rw [fieldsOfRecord, List.filterMap_map, ← List.filterMap_eq_map]
  exact congrArg (Field.all.filterMap ·) (funext hentry)

theorem lastChange?_all (value : Field → Value) (field : Field) :
    lastChange? (Field.all.map fun f => (f, value f)) field = some (value field) := by
  cases field <;> rfl

/-- Values for all fields make an item, which gets a path if it has none. -/
theorem ofFields_all (value : Field → Value) :
    ofFields (Field.all.map fun field => (field, value field)) =
      (ofFunction value).withPath := by
  rw [ofFields]
  simp only [lastChange?_all, Option.some_or, Option.isSome_some, Option.getD_some]
  rfl

theorem get_withPath {item result : Item} (h : item.withPath = .ok result) {field : Field}
    (hfield : field ≠ .path) : result.get field = item.get field := by
  rw [withPath] at h
  split at h
  · cases h
    rfl
  · obtain ⟨path, -, rfl⟩ := map_eq_ok h
    cases field <;> first | rfl | exact absurd rfl hfield

/-- An item that comes back has its fields as they come back by themselves, and then a path
if it had none. -/
theorem withPath_of_reload {item result : Item} (h : item.reload = .ok result) :
    ∃ loaded : Item, loaded.withPath = .ok result ∧
      ∀ field : Field, field.reload (item.get field) = .ok (loaded.get field) := by
  obtain ⟨record, hrecord, h⟩ := bind_eq_ok h
  obtain ⟨hwritten, rfl⟩ := toRecord_eq_ok hrecord
  obtain ⟨fields, hfields, h⟩ := bind_eq_ok h
  rw [fieldsOfRecord_names] at hfields
  obtain ⟨hread, rfl⟩ := mapM_table_eq_ok hfields
  rw [List.map_map] at h
  have hpath := ofFields_all fun f =>
    okValue (f.ofRecord (okValue (f.toRecord (item.get f))))
  rw [Function.comp_def, hpath] at h
  refine ⟨_, h, fun field => ?_⟩
  rw [get_ofFunction, Field.reload, hwritten field]
  exact hread (field, _) (List.mem_map.mpr ⟨field, field.mem_all, rfl⟩)

/-- An item that comes back has every field but the path as it comes back by itself. -/
theorem reload_eq_ok {item result : Item} (h : item.reload = .ok result) {field : Field}
    (hfield : field ≠ .path) : field.reload (item.get field) = .ok (result.get field) := by
  obtain ⟨loaded, hpath, hloaded⟩ := withPath_of_reload h
  rw [get_withPath hpath hfield, hloaded field]

/-- An item comes back with the values with which its fields come back, and with a path. -/
theorem reload_of_withPath {item loaded result : Item} (hpath : loaded.withPath = .ok result)
    (h : ∀ field : Field, field.reload (item.get field) = .ok (loaded.get field)) :
    item.reload = .ok result := by
  have hstep : ∀ field : Field, ∃ written, field.toRecord (item.get field) = .ok written ∧
      field.ofRecord written = .ok (loaded.get field) := fun field => bind_eq_ok (h field)
  choose written hwritten hread using hstep
  have hrecord : item.toRecord =
      .ok (Field.all.map fun field => (.text field.name, written field)) :=
    mapM_table_ok fun field _ => hwritten field
  have hfields : ((Field.all.map fun field => (field, written field)).mapM fun entry => do
      return (entry.1, ← entry.1.ofRecord entry.2)) =
      (.ok ((Field.all.map fun field => (field, written field)).map fun entry =>
        (entry.1, loaded.get entry.1)) : Except Failure (List (Field × Value))) := by
    refine mapM_table_ok fun entry hentry => ?_
    obtain ⟨field, -, rfl⟩ := List.mem_map.mp hentry
    exact hread field
  have hitem : ofFunction loaded.get = loaded := rfl
  rw [reload, hrecord, ok_bind, ofRecord, fieldsOfRecord_names, hfields, ok_bind, List.map_map,
    Function.comp_def, ofFields_all, hitem, hpath]

theorem reload_of_fields {item result : Item} (hpath : result.path.isPresent = true)
    (h : ∀ field : Field, field.reload (item.get field) = .ok (result.get field)) :
    item.reload = .ok result := by
  refine reload_of_withPath ?_ h
  rw [withPath, if_pos hpath]

/-! ## What comes back -/

section

variable {item result : Item} (h : item.reload = .ok result)
include h

/-- The content and everything else that is no instant stays. -/
theorem get_reload {field : Field} (hinstant : field.holdsInstant = false)
    (hfield : field ≠ .path) : result.get field = item.get field := by
  have hreload := reload_eq_ok h hfield
  rw [Field.reload_of_not_holdsInstant hinstant] at hreload
  exact (Except.ok.inj hreload).symm

/-- A deletion comes back exactly if there is one. -/
theorem isNull_deletedAt_reload : result.deletedAt.isNull = item.deletedAt.isNull := by
  have hreload := reload_eq_ok h (show Field.deletedAt ≠ .path by decide)
  cases hnull : item.deletedAt.isNull with
  | true =>
      have hvalue : item.get .deletedAt = .null := by
        show item.deletedAt = .null
        cases hv : item.deletedAt <;> rw [hv] at hnull <;> first | rfl | cases hnull
      rw [hvalue, Field.reload_null] at hreload
      have hresult : result.deletedAt = .null := (Except.ok.inj hreload).symm
      rw [hresult]
      rfl
  | false =>
      obtain ⟨_, _, -, -, hresult⟩ := Field.reload_instant rfl hnull hreload
      have hdeleted : result.deletedAt = .dateTime _ := hresult
      rw [hdeleted]
      rfl

/-- A deletion that comes back is a clock reading that timestamps carry. -/
theorem deletedAt_reload (hdeleted : result.deletedAt.isNull = false) :
    ∃ t, result.deletedAt = .dateTime t ∧ t.Portable := by
  have hreload := reload_eq_ok h (show Field.deletedAt ≠ .path by decide)
  have hnull : item.deletedAt.isNull = false := by
    rw [← isNull_deletedAt_reload h, hdeleted]
  obtain ⟨timestamp, t, -, hread, hresult⟩ := Field.reload_instant rfl hnull hreload
  exact ⟨t, hresult, DateTime.portable_of_readIso? hread⟩

end

end Item

end Deferral
