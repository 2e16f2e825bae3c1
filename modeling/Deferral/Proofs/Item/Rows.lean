/-
# Deferral.Proofs.Item.Rows -- items as documents

The record of a well-typed item is a mapping from names to basic values, so that its document has
a row for each field. Read back, it is the record of an item that differs only where a text has
lost its next line controls.
-/

import Deferral.Proofs.Item.Typed
import Deferral.Proofs.Store.Calls
import Deferral.Proofs.Yaml.Documents

namespace Deferral

/-! ## Timestamps -/

/-- The characters of timestamps. -/
def isTimestampChar (c : Char) : Bool := c.isDigit || ['-', '+', ':', '.', 'T'].contains c

section Timestamps

theorem all_isTimestampChar_decimalFixed (width n : Nat) :
    (decimalFixed width n).all isTimestampChar = true :=
  List.all_eq_true.mpr fun c hc => by
    rw [isTimestampChar, isDigit_of_mem_decimalFixed hc, Bool.true_or]

theorem isTimestampChar_mark {c : Char} (h : ['-', '+', ':', '.', 'T'].contains c = true) :
    isTimestampChar c = true := by
  rw [isTimestampChar, h, Bool.or_true]

theorem all_isTimestampChar_fraction (microsecond : Nat) :
    (isoFraction microsecond).all isTimestampChar = true := by
  rw [isoFraction]
  split
  · rfl
  · rw [List.all_cons, all_isTimestampChar_decimalFixed, isTimestampChar_mark (by decide)]
    rfl

theorem all_isTimestampChar_offset (o : Offset) : o.iso.all isTimestampChar = true := by
  have hsign : isTimestampChar (if o.micros < 0 then '-' else '+') = true := by
    split
    · exact isTimestampChar_mark (by decide)
    · exact isTimestampChar_mark (by decide)
  have hcolon : isTimestampChar ':' = true := isTimestampChar_mark (by decide)
  rw [Offset.iso, List.all_append, List.all_append, List.all_cons, hsign, List.all_cons, hcolon,
    all_isTimestampChar_decimalFixed, all_isTimestampChar_decimalFixed]
  split
  · rfl
  · rw [List.cons_append, List.all_cons, List.all_append, hcolon, all_isTimestampChar_decimalFixed,
      all_isTimestampChar_fraction]
    rfl

theorem all_isTimestampChar_iso (t : DateTime) : t.iso.all isTimestampChar = true := by
  have hmark : ∀ c, ['-', '+', ':', '.', 'T'].contains c = true → isTimestampChar c = true :=
    fun _ => isTimestampChar_mark
  have hoffset : ((t.offset.map Offset.iso).getD []).all isTimestampChar = true := by
    cases t.offset with
    | none => rfl
    | some o => exact all_isTimestampChar_offset o
  rw [DateTime.iso, DateTime.isoWith, Date.iso, isoClock]
  simp only [List.all_append, List.all_cons, all_isTimestampChar_decimalFixed,
    all_isTimestampChar_fraction, hoffset, hmark '-' (by decide), hmark 'T' (by decide),
    hmark ':' (by decide), Bool.and_self]

/-- No timestamp loses anything. -/
theorem losesNextLine_iso (t : DateTime) : Yaml.losesNextLine t.iso = false := by
  have hnone : t.iso.contains Yaml.nextLine = false := by
    refine Bool.eq_false_iff.mpr fun hmem => ?_
    have hchar := List.all_eq_true.mp (all_isTimestampChar_iso t) _ (List.contains_iff_mem.mp hmem)
    exact absurd hchar (by decide)
  rw [Yaml.losesNextLine, hnone, Bool.false_and]

end Timestamps

/-! ## Fields -/

namespace Field

variable {field : Field} {value written : Value}

theorem isName_name (field : Field) : Yaml.isName field.name.toList = true := by
  cases field <;> decide

/-- A value that a field is for stands as a basic value in a record. -/
theorem isBasic_of_toRecord (h : field.admits value = true)
    (hwritten : field.toRecord value = .ok written) : written.isBasic = true := by
  cases hinstant : field.holdsInstant with
  | true =>
      rcases admits_instant hinstant h with rfl | ⟨t, rfl⟩
      · rw [toRecord, hinstant] at hwritten
        cases hwritten
        rfl
      · rw [toRecord, hinstant] at hwritten
        cases hwritten
        rfl
  | false =>
      rw [toRecord, hinstant] at hwritten
      cases hwritten
      cases value with
      | dateTime t => exact absurd (hinstant.symm.trans h) Bool.false_ne_true
      | null => rfl
      | bool b => rfl
      | int n => rfl
      | text s => rfl
      | _ => exact absurd h Bool.false_ne_true

/-- A record loses what its item would. -/
theorem losesNextLine_of_toRecord (h : field.admits value = true)
    (hwritten : field.toRecord value = .ok written) :
    written.losesNextLine = value.losesNextLine := by
  cases hinstant : field.holdsInstant with
  | true =>
      rcases admits_instant hinstant h with rfl | ⟨t, rfl⟩
      · rw [toRecord, hinstant] at hwritten
        cases hwritten
        rfl
      · rw [toRecord, hinstant] at hwritten
        cases hwritten
        rw [Value.losesNextLine, String.toList_ofList]
        exact losesNextLine_iso t
  | false =>
      rw [toRecord, hinstant] at hwritten
      cases hwritten
      rfl

/-- What comes back is of the kind that the field is for. -/
theorem admits_of_comesBackAs {result : Value} (h : field.admits value = true)
    (hback : value.ComesBackAs result) : field.admits result = true := by
  cases hlost : value.losesNextLine with
  | false =>
      rw [hback.kept hlost]
      exact h
  | true =>
      obtain ⟨s, rfl, -⟩ := hback.lost hlost
      cases value with
      | text t => exact h
      | _ => cases hlost

/-- An instant comes back as the text that stands for it in the record. -/
theorem eq_of_comesBackAs (hinstant : field.holdsInstant = true) (h : field.admits value = true)
    (hwritten : field.toRecord value = .ok written) {result : Value}
    (hback : written.ComesBackAs result) : result = written := by
  refine hback.kept ?_
  rw [losesNextLine_of_toRecord h hwritten]
  rcases admits_instant hinstant h with rfl | ⟨t, rfl⟩
  · rfl
  · rfl

end Field

/-! ## Items -/

namespace Item

/-- The row of each field holds what the record of the item has for it. -/
structure HasRows (item : Item) (row : Field → Yaml.Row) : Prop where
  name : ∀ field : Field, (row field).name = field.name
  written : ∀ field : Field, field.toRecord (item.get field) = .ok (row field).value

/-- Each field of an item that can be put into words has a row. -/
theorem exists_hasRows {item : Item} (h : item.WellTyped)
    (hnumeral : ∀ field : Field, (item.get field).HasNumeral) :
    ∃ row : Field → Yaml.Row, item.HasRows row := by
  choose written s hwritten hs using fun field =>
    Field.toRecord_of_hasNumeral (h field) (hnumeral field)
  exact ⟨fun field => ⟨field.name, field.isName_name, written field,
    Field.isBasic_of_toRecord (h field) (hwritten field), s field, hs field⟩,
    fun _ => rfl, hwritten⟩

section HasRows

variable {item : Item} {row : Field → Yaml.Row} (hrows : item.HasRows row)
include hrows

/-- The record of an item has the entries of its rows. -/
theorem toRecord_of_hasRows :
    item.toRecord = .ok ((Field.all.map row).map Yaml.Row.entry) := by
  have htable : item.toRecord =
      .ok (Field.all.map fun field => (.text field.name, (row field).value)) :=
    mapM_table_ok fun field _ => hrows.written field
  rw [htable, List.map_map]
  refine congrArg Except.ok (List.map_congr_left fun field _ => ?_)
  rw [Function.comp_apply, Yaml.Row.entry, hrows.name]

/-- The document of the rows is a table with a value for each field, which is what came back of the
one that was written. -/
theorem read_of_hasRows :
    ∃ value : Field → Value, (∀ field, (row field).value.ComesBackAs (value field)) ∧
      Yaml.read (Yaml.documentText (Field.all.map row)) =
        .ok (.map (Field.all.map fun field => (.text field.name, value field))) := by
  have hnames : ((Field.all.map row).map Yaml.Row.name).Nodup := by
    have hall : (Field.all.map row).map Yaml.Row.name = Field.all.map Field.name := by
      rw [List.map_map]
      exact List.map_congr_left fun field _ => hrows.name field
    rw [hall]
    decide
  have hcons : Field.all.map row = row .id :: Field.all.tail.map row := rfl
  rw [hcons] at hnames
  obtain ⟨value, hvalue, hread⟩ := Yaml.read_rows _ _ hnames
  rw [← hcons] at hvalue hread
  refine ⟨fun field => value (row field),
    fun field => hvalue _ (List.mem_map_of_mem field.mem_all), ?_⟩
  rw [hread, List.map_map]
  refine congrArg (fun entries => Except.ok (Value.map entries)) ?_
  refine List.map_congr_left fun field _ => ?_
  rw [Function.comp_apply, hrows.name]

/-- A table of what came back of the rows is the record of what came back of the item. -/
theorem exists_back_of_hasRows (h : item.WellTyped) {value : Field → Value}
    (hvalue : ∀ field, (row field).value.ComesBackAs (value field)) :
    ∃ back : Item, (∀ field : Field, (item.get field).ComesBackAs (back.get field)) ∧
      back.toRecord = .ok (Field.all.map fun field => (.text field.name, value field)) := by
  -- A record gives back the text of an instant, and of other fields what they held.
  refine ⟨ofFunction fun field => if field.holdsInstant then item.get field else value field,
    fun field => ?_, mapM_table_ok fun field _ => ?_⟩
  · rw [get_ofFunction]
    split
    · next hinstant =>
        refine Value.comesBackAs_self ?_
        rcases Field.admits_instant hinstant (h field) with hnull | ⟨t, ht⟩
        · rw [hnull]
          rfl
        · rw [ht]
          rfl
    · next hinstant =>
        have hsame := hrows.written field
        rw [Field.toRecord, Bool.eq_false_iff.mpr hinstant] at hsame
        rw [show item.get field = (row field).value from Except.ok.inj hsame]
        exact hvalue field
  · rw [get_ofFunction]
    split
    · next hinstant =>
        rw [hrows.written field,
          Field.eq_of_comesBackAs hinstant (h field) (hrows.written field) (hvalue field)]
    · next hinstant =>
        rw [Field.toRecord, Bool.eq_false_iff.mpr hinstant]
        rfl

end HasRows

/-- The document of an item is the record of the item as it comes back. -/
theorem WellTyped.exists_asRead {item : Item} (h : item.WellTyped)
    {record : List (Value × Value)} {text : List Char} (hrecord : item.toRecord = .ok record)
    (hwrite : Yaml.write record = .ok text) :
    ∃ back : Item, (∀ field : Field, (item.get field).ComesBackAs (back.get field)) ∧
      ∃ entries, back.toRecord = .ok entries ∧ Yaml.read text = .ok (.map entries) := by
  have hnumeral : ∀ field : Field, (item.get field).HasNumeral := by
    refine h.fileText_iff.mp ⟨text, ?_⟩
    rw [Store.fileText, hrecord, ok_bind, hwrite]
  obtain ⟨row, hrows⟩ := exists_hasRows h hnumeral
  obtain ⟨value, hvalue, hread⟩ := read_of_hasRows hrows
  obtain ⟨back, hback, hentries⟩ := exists_back_of_hasRows hrows h hvalue
  have htext : text = Yaml.documentText (Field.all.map row) := by
    rw [Except.ok.inj (hrecord.symm.trans (toRecord_of_hasRows hrows))] at hwrite
    exact Except.ok.inj (hwrite.symm.trans (Yaml.write_rows _ _))
  exact ⟨back, hback, _, hentries, by rw [htext, hread]⟩

/-- An item comes back as it is if none of its texts loses anything. -/
theorem eq_asRead {item back : Item}
    (hback : ∀ field : Field, (item.get field).ComesBackAs (back.get field))
    (hkept : ∀ field : Field, (item.get field).losesNextLine = false) : back = item := by
  have hget : back.get = item.get := funext fun field => (hback field).kept (hkept field)
  have hitem : ∀ item : Item, ofFunction item.get = item := fun _ => rfl
  rw [← hitem back, hget, hitem]

/-- The document of a well-typed item is read back, if none of its texts loses anything. -/
theorem WellTyped.readsBack {item : Item} (h : item.WellTyped)
    (hkept : ∀ field : Field, (item.get field).losesNextLine = false) : item.ReadsBack := by
  intro record text hrecord hwrite
  obtain ⟨back, hback, entries, hentries, hread⟩ := h.exists_asRead hrecord hwrite
  obtain rfl := eq_asRead hback hkept
  rw [hread, Except.ok.inj (hrecord.symm.trans hentries)]

end Item

end Deferral
