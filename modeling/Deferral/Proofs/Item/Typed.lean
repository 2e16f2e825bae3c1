/-
# Deferral.Proofs.Item.Typed -- items whose fields hold what they are meant for

Nothing checks the values of fields, but callers are expected to keep to the kinds of values
that the fields are for. An item that does so always comes back from its record. It comes
back as it is if it is settled: it has a path, and timestamps carry its instants. Whatever has
come back is settled.
-/

import Deferral.Proofs.Item.Reload
import Deferral.Proofs.Store.Names
import Deferral.Proofs.Value.Equality
import Deferral.Proofs.Yaml.Scalars

namespace Deferral

/-- The kinds of values that a field is for. A truth value counts as an integer. -/
def Field.admits (field : Field) : Value → Bool
  | .null => [text, title, url, pollCost, deletedAt, scheduledAt, maxBid].contains field
  | .bool _ => [id, pollCost, pinned, bio, maxBid].contains field
  | .int _ => [id, pollCost, maxBid].contains field
  | .text _ => [text, title, url, path].contains field
  | .dateTime _ => field.holdsInstant
  | _ => false

/-- Every field of the item holds a value of a kind that it is for. -/
def Item.WellTyped (item : Item) : Prop := ∀ field : Field, field.admits (item.get field) = true

/-- The two items are equal, field by field. -/
def Item.Same (a b : Item) : Prop := ∀ field : Field, (a.get field).same (b.get field) = true

namespace Field

variable {field : Field} {value : Value}

/-- What an instant may be. -/
theorem admits_instant (hinstant : field.holdsInstant = true) (h : field.admits value = true) :
    value = .null ∨ ∃ t, value = .dateTime t := by
  cases value
  case null => exact Or.inl rfl
  case dateTime t => exact Or.inr ⟨t, rfl⟩
  -- The fields for instants are for no other kind of value.
  all_goals
    cases field <;>
      first | exact absurd hinstant Bool.false_ne_true | exact absurd h Bool.false_ne_true

theorem ne_path_of_holdsInstant (h : field.holdsInstant = true) : field ≠ .path := by
  rintro rfl
  cases h

theorem admits_id (h : Field.id.admits value = true) :
    (∃ n, value = .int n) ∨ ∃ b, value = .bool b := by
  cases value
  case int n => exact Or.inl ⟨n, rfl⟩
  case bool b => exact Or.inr ⟨b, rfl⟩
  all_goals cases h

theorem admits_path (h : Field.path.admits value = true) : ∃ s, value = .text s := by
  cases value
  case text s => exact ⟨s, rfl⟩
  all_goals cases h

theorem hasNaN_of_admits (h : field.admits value = true) : value.hasNaN = false := by
  cases value <;> first | rfl | (cases h)

/-- A value that a field is for comes back as timestamps carry it, if it is an instant, and
else as it is. -/
theorem reload_of_admits (h : field.admits value = true) :
    ∃ result, field.reload value = .ok result ∧
      (result = value ∨ ∃ t, value = .dateTime t ∧ result = .dateTime t.carried) := by
  cases hinstant : field.holdsInstant with
  | false => exact ⟨value, reload_of_not_holdsInstant hinstant value, Or.inl rfl⟩
  | true =>
      rcases admits_instant hinstant h with rfl | ⟨t, rfl⟩
      · exact ⟨.null, reload_null field, Or.inl rfl⟩
      · exact ⟨_, reload_of_readIso? hinstant t.readIso?_iso_carried, Or.inr ⟨t, rfl, rfl⟩⟩

/-- What comes back is of the kind that the field is for. -/
theorem admits_reload {result : Value} (h : field.admits value = true)
    (hreload : field.reload value = .ok result) : field.admits result = true := by
  obtain ⟨result', hresult, hcases⟩ := reload_of_admits h
  obtain rfl : result' = result := Except.ok.inj (hresult.symm.trans hreload)
  rcases hcases with rfl | ⟨t, rfl, rfl⟩
  · exact h
  · exact h

end Field

namespace Item

/-- Only the fields for instants hold them. -/
theorem WellTyped.holdsInstant {item : Item} (h : item.WellTyped) {field : Field} {t : DateTime}
    (ht : item.get field = .dateTime t) : field.holdsInstant = true := by
  have hadmits := h field
  rw [ht] at hadmits
  exact hadmits

theorem WellTyped.setAll {item : Item} (h : item.WellTyped) {changes : List (Field × Value)}
    (hchanges : ∀ field value, lastChange? changes field = some value →
      field.admits value = true) : (item.setAll changes).WellTyped := by
  intro field
  rw [get_setAll]
  cases hchange : lastChange? changes field with
  | none => exact h field
  | some value => exact hchanges field value hchange

/-- No well-typed item differs from itself. -/
theorem WellTyped.same_self {item : Item} (h : item.WellTyped) : item.Same item :=
  fun field => Value.same_self (Field.hasNaN_of_admits (h field))

/-- The text of an id is not empty. -/
theorem plainString_ne_empty {id : Value} (hid : Field.id.admits id = true) {text : String}
    (h : id.plainString = .ok text) : text ≠ "" := by
  obtain ⟨chars, hchars, rfl⟩ := map_eq_ok h
  have hne : chars ≠ [] := by
    rcases Field.admits_id hid with ⟨n, rfl⟩ | ⟨b, rfl⟩
    · have hnumeral : numeral n = .ok chars := hchars
      rw [numeral_eq_ok hnumeral]
      exact decimalInt_ne_nil n
    · cases hchars
      cases b <;> decide
  intro hempty
  exact hne (String.ofList_eq_empty_iff.mp hempty)

/-- An item that is typed but for a missing path becomes so with its path. -/
theorem WellTyped.withPath {item result : Item} (h : item.WellTyped)
    (hpath : item.withPath = .ok result) :
    result.WellTyped ∧ result.path.isPresent = true := by
  have hkept : ∀ field, field ≠ .path → result.get field = item.get field :=
    fun _ hfield => get_withPath hpath hfield
  rw [Item.withPath] at hpath
  split at hpath
  · next hpresent =>
      cases hpath
      exact ⟨h, hpresent⟩
  · obtain ⟨text, htext, rfl⟩ := map_eq_ok hpath
    refine ⟨fun field => ?_, bne_iff_ne.mpr (plainString_ne_empty (h .id) htext)⟩
    by_cases hfield : field = .path
    · subst hfield
      rfl
    · rw [hkept field hfield]
      exact h field

/-- A well-typed item comes back from its record, if its id has a text that can be its path. -/
theorem WellTyped.reload {item : Item} (h : item.WellTyped) {text : String}
    (hid : item.id.plainString = .ok text) : ∃ result, item.reload = .ok result := by
  choose value hvalue _ using fun field => Field.reload_of_admits (h field)
  have hfields : ∀ field : Field,
      field.reload (item.get field) = .ok ((ofFunction value).get field) := by
    intro field
    rw [get_ofFunction, hvalue field]
  have hidKept : (ofFunction value).id = item.id := by
    have hback := hfields .id
    rw [Field.reload_of_not_holdsInstant rfl] at hback
    exact (Except.ok.inj hback).symm
  have hpath : ∃ result, (ofFunction value).withPath = .ok result := by
    rw [Item.withPath, hidKept, hid]
    split
    · exact ⟨_, rfl⟩
    · exact ⟨_, rfl⟩
  obtain ⟨result, hresult⟩ := hpath
  exact ⟨result, reload_of_withPath hresult hfields⟩

/-! ## Items that come back as they are -/

/-- The item is one that comes back from its record as it is. -/
structure Settled (item : Item) : Prop where
  typed : item.WellTyped
  portable : ∀ field t, item.get field = .dateTime t → t.Portable
  hasPath : item.path.isPresent = true

theorem Settled.reload {item : Item} (h : item.Settled) : item.reload = .ok item := by
  refine reload_of_fields h.hasPath fun field => ?_
  obtain ⟨result, hresult, rfl | ⟨t, ht, rfl⟩⟩ := Field.reload_of_admits (h.typed field)
  · exact hresult
  · rw [hresult, ht, DateTime.carried_of_portable (h.portable field t ht)]

/-- What has come back comes back as it is. -/
theorem settled_of_reload {item result : Item} (htyped : item.WellTyped)
    (h : item.reload = .ok result) : result.Settled := by
  obtain ⟨loaded, hpath, hloaded⟩ := withPath_of_reload h
  have hloadedTyped : loaded.WellTyped := fun field =>
    Field.admits_reload (htyped field) (hloaded field)
  obtain ⟨hresult, hpresent⟩ := hloadedTyped.withPath hpath
  refine ⟨hresult, fun field t ht => ?_, hpresent⟩
  -- The instant was read from a timestamp.
  have hinstant := hresult.holdsInstant ht
  have hback := reload_eq_ok h (Field.ne_path_of_holdsInstant hinstant)
  rw [ht] at hback
  have hnull : (item.get field).isNull = false := by
    rcases Field.admits_instant hinstant (htyped field) with hnull | ⟨u, hu⟩
    · rw [hnull, Field.reload_null] at hback
      cases hback
    · rw [hu]
      rfl
  obtain ⟨_, u, -, hread, hu⟩ := Field.reload_instant hinstant hnull hback
  cases hu
  exact DateTime.portable_of_readIso? hread

/-- An item is settled after changes to typed values exactly if they do not take its path
away and timestamps carry their instants. -/
theorem Settled.setAll_iff {item : Item} (h : item.Settled) {changes : List (Field × Value)}
    (hchanges : ∀ field value, lastChange? changes field = some value →
      field.admits value = true) :
    (item.setAll changes).Settled ↔ lastChange? changes .path ≠ some (.text "") ∧
      ∀ field t, lastChange? changes field = some (.dateTime t) → t.Portable := by
  have hget : ∀ {field value}, lastChange? changes field = some value →
      (item.setAll changes).get field = value := by
    intro field value hchange
    rw [get_setAll, hchange, Option.getD_some]
  constructor
  · intro hsettled
    refine ⟨fun hempty => ?_, fun field t hchange => hsettled.portable field t (hget hchange)⟩
    have hpath : (item.setAll changes).path = .text "" := hget hempty
    have hpresent := hsettled.hasPath
    rw [hpath] at hpresent
    revert hpresent
    decide
  · rintro ⟨hpath, hportable⟩
    refine ⟨h.typed.setAll hchanges, fun field t ht => ?_, ?_⟩
    · rw [get_setAll] at ht
      cases hchange : lastChange? changes field with
      | none =>
          rw [hchange] at ht
          exact h.portable field t ht
      | some value =>
          rw [hchange] at ht
          cases ht
          exact hportable field t hchange
    · show ((item.setAll changes).get .path).isPresent = true
      rw [get_setAll]
      cases hchange : lastChange? changes .path with
      | none => exact h.hasPath
      | some value =>
          obtain ⟨s, rfl⟩ := Field.admits_path (hchanges .path value hchange)
          refine bne_iff_ne.mpr fun hempty => hpath ?_
          rw [hchange, hempty]

/-- An item is the same as what comes back of it only if it is settled. -/
theorem same_reload_iff {item result : Item} (htyped : item.WellTyped)
    (h : item.reload = .ok result) : result.Same item ↔ item.Settled := by
  constructor
  · intro hsame
    refine ⟨htyped, fun field t ht => ?_, ?_⟩
    · have hinstant := htyped.holdsInstant ht
      have hback := reload_eq_ok h (Field.ne_path_of_holdsInstant hinstant)
      rw [ht, Field.reload_of_readIso? hinstant t.readIso?_iso_carried] at hback
      have hmoment := hsame field
      rw [← Except.ok.inj hback, ht] at hmoment
      exact DateTime.portable_of_sameMoment_carried hmoment
    · have hpath : result.path.same item.path = true := hsame .path
      rw [← Value.isPresent_eq_of_same hpath]
      exact (settled_of_reload htyped h).hasPath
  · intro hsettled
    obtain rfl : item = result := Except.ok.inj (hsettled.reload.symm.trans h)
    exact htyped.same_self

/-! ## Items that can be put into words -/

end Item

/-- The value is no integer of too many digits. -/
def Value.HasNumeral (value : Value) : Prop :=
  ∀ n, value = .int n → ∃ digits, numeral n = .ok digits

namespace Field

variable {field : Field} {value : Value}

/-- A value that a field is for is written as a scalar. -/
theorem toRecord_of_hasNumeral (h : field.admits value = true) (hnumeral : value.HasNumeral) :
    ∃ written s, field.toRecord value = .ok written ∧
      Yaml.scalarText? written = .ok (some s) := by
  cases hinstant : field.holdsInstant with
  | true =>
      rcases admits_instant hinstant h with rfl | ⟨t, rfl⟩
      · refine ⟨.null, _, ?_, rfl⟩
        cases field <;> rfl
      · refine ⟨.text (String.ofList t.iso), _, ?_, rfl⟩
        rw [toRecord, hinstant]
        rfl
  | false =>
      have hwritten : field.toRecord value = .ok value := by
        rw [toRecord, hinstant]
        rfl
      cases value with
      | null => exact ⟨_, _, hwritten, rfl⟩
      | bool b => exact ⟨_, _, hwritten, rfl⟩
      | text s => exact ⟨_, _, hwritten, rfl⟩
      | int n =>
          obtain ⟨digits, hdigits⟩ := hnumeral n rfl
          refine ⟨_, ⟨digits, true, "!!int"⟩, hwritten, ?_⟩
          rw [Yaml.scalarText?, hdigits]
          rfl
      | dateTime t => exact absurd (hinstant.symm.trans h) Bool.false_ne_true
      | _ => exact absurd h Bool.false_ne_true

theorem hasNumeral_of_toRecord {written : Value} {s? : Option Yaml.ScalarText}
    (h : field.admits value = true) (hwritten : field.toRecord value = .ok written)
    (hs : Yaml.scalarText? written = .ok s?) : value.HasNumeral := by
  rintro n rfl
  have hinstant : field.holdsInstant = false := by
    cases field <;> first | rfl | exact absurd h Bool.false_ne_true
  rw [toRecord, hinstant] at hwritten
  cases hwritten
  obtain ⟨digits, hdigits, -⟩ := map_eq_ok hs
  exact ⟨digits, hdigits⟩

end Field

namespace Item

/-- A well-typed item has a text exactly if none of its integers has too many digits. -/
theorem WellTyped.fileText_iff {item : Item} (h : item.WellTyped) :
    (∃ text, Store.fileText item = .ok text) ↔ ∀ field : Field, (item.get field).HasNumeral := by
  constructor
  · rintro ⟨text, htext⟩ field
    obtain ⟨record, hrecord, hwrite⟩ := bind_eq_ok htext
    obtain ⟨hwritten, rfl⟩ := toRecord_eq_ok hrecord
    have hentry := Yaml.scalarText?_of_write hwrite _ (List.mem_map.mpr ⟨field, field.mem_all, rfl⟩)
    obtain ⟨s?, hs⟩ := hentry
    exact Field.hasNumeral_of_toRecord (h field) (hwritten field) hs
  · intro hnumeral
    choose written s hwritten hs using fun field =>
      Field.toRecord_of_hasNumeral (h field) (hnumeral field)
    have hrecord : item.toRecord =
        .ok (Field.all.map fun field => (.text field.name, written field)) :=
      mapM_table_ok fun field _ => hwritten field
    rw [Store.fileText, hrecord, ok_bind]
    refine Yaml.write_ok fun entry hentry => ?_
    obtain ⟨field, -, rfl⟩ := List.mem_map.mp hentry
    exact ⟨⟨_, rfl⟩, s field, hs field⟩

/-- No integer comes back with too many digits if there was none before. -/
theorem hasNumeral_of_reload {item result : Item} (htyped : item.WellTyped)
    (hnumeral : ∀ field : Field, (item.get field).HasNumeral) (h : item.reload = .ok result)
    (field : Field) : (result.get field).HasNumeral := by
  have hresult := (settled_of_reload htyped h).typed field
  cases hinstant : field.holdsInstant with
  | true =>
      intro n hn
      rw [hn] at hresult
      rcases Field.admits_instant hinstant hresult with hnull | ⟨t, ht⟩
      · cases hnull
      · cases ht
  | false =>
      by_cases hpath : field = .path
      · subst hpath
        obtain ⟨s, hs⟩ := Field.admits_path hresult
        intro n hn
        cases hn.symm.trans hs
      · rw [get_reload h hinstant hpath]
        exact hnumeral field

end Item

end Deferral
