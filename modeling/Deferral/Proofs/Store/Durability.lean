/-
# Deferral.Proofs.Store.Durability -- saved items survive

Saving a well-typed item succeeds exactly if its file may be written and none of its integers has
too many digits, and from then on the item is found. It is found as it was saved unless one of its
texts is written between apostrophes with a next line control, which is read as a line feed, or
unless it holds an instant that no timestamp carries.
-/

import Deferral.Proofs.Item.Rows
import Deferral.Proofs.Store.RoundTrip

namespace Deferral

/-! ## What comes back of an item -/

/-- The text of an id has no next line control. -/
theorem nextLine_not_mem_plainString {id : Value} (hid : Field.id.admits id = true) {text : String}
    (h : id.plainString = .ok text) : Yaml.nextLine ∉ text.toList := by
  obtain ⟨chars, hchars, rfl⟩ := map_eq_ok h
  rw [String.toList_ofList]
  rcases Field.admits_id hid with ⟨n, rfl⟩ | ⟨b, rfl⟩
  · have hnumeral : numeral n = .ok chars := hchars
    rw [numeral_eq_ok hnumeral]
    exact fun hmem => absurd (Yaml.isNumeralChar_of_mem hmem) (by decide)
  · cases hchars
    cases b <;> decide

namespace Item

/-- The item holds nothing that a document does not give back: timestamps carry its instants, and
none of its texts is one whose next line controls get lost. -/
structure Lasting (item : Item) : Prop where
  portable : ∀ field t, item.get field = .dateTime t → t.Portable
  kept : ∀ field : Field, (item.get field).losesNextLine = false

/-- The path that comes back is the one that was there, or the text of the id. -/
theorem path_reload {item result : Item} (h : item.reload = .ok result) :
    result.path = item.path ∨
      ∃ text, item.id.plainString = .ok text ∧ result.path = .text text := by
  obtain ⟨loaded, hpath, hloaded⟩ := withPath_of_reload h
  have hkept : ∀ field : Field, field.holdsInstant = false → loaded.get field = item.get field := by
    intro field hinstant
    have hback := hloaded field
    rw [Field.reload_of_not_holdsInstant hinstant] at hback
    exact (Except.ok.inj hback).symm
  have hid : loaded.id = item.id := hkept .id rfl
  rw [withPath] at hpath
  split at hpath
  · cases hpath
    exact Or.inl (hkept .path rfl)
  · obtain ⟨text, htext, rfl⟩ := map_eq_ok hpath
    exact Or.inr ⟨text, hid ▸ htext, rfl⟩

section AsRead

variable {item back : Item} (htyped : item.WellTyped)
  (hback : ∀ field : Field, (item.get field).ComesBackAs (back.get field))
include htyped hback

theorem wellTyped_asRead : back.WellTyped := fun field =>
  Field.admits_of_comesBackAs (htyped field) (hback field)

/-- The id comes back as it is. -/
theorem id_asRead : back.id = item.id := by
  refine (hback .id).kept ?_
  rcases Field.admits_id (htyped .id) with ⟨n, hn⟩ | ⟨b, hb⟩
  · rw [hn]
    rfl
  · rw [hb]
    rfl

/-- A text that has lost its next line controls is not what it was. -/
theorem losesNextLine_of_same_reload {result : Item} (hreload : back.reload = .ok result)
    (hsame : result.Same item) (field : Field) : (item.get field).losesNextLine = false := by
  refine Bool.eq_false_iff.mpr fun hlost => ?_
  obtain ⟨s, hs, hnone⟩ := (hback field).lost hlost
  cases hvalue : item.get field with
  | text t =>
      rw [hvalue] at hlost
      have hmem : Yaml.nextLine ∈ t.toList :=
        List.contains_iff_mem.mp (Bool.and_eq_true_iff.mp hlost).1
      have hadmits := htyped field
      rw [hvalue] at hadmits
      -- Neither what was read nor a path that was set has a next line control.
      have hresult : ∃ u : String, result.get field = .text u ∧ Yaml.nextLine ∉ u.toList := by
        by_cases hpath : field = .path
        · subst hpath
          rcases path_reload hreload with hkept | ⟨text, htext, hset⟩
          · exact ⟨s, hkept.trans hs, hnone⟩
          · exact ⟨text, hset, nextLine_not_mem_plainString
              (wellTyped_asRead htyped hback .id) htext⟩
        · have hinstant : field.holdsInstant = false := by
            cases field <;> first | rfl | exact absurd hadmits Bool.false_ne_true
          exact ⟨s, (get_reload hreload hinstant hpath).trans hs, hnone⟩
      obtain ⟨u, hu, hnone⟩ := hresult
      have heq := hsame field
      rw [hu, hvalue] at heq
      obtain rfl : u = t := beq_iff_eq.mp heq
      exact hnone hmem
  | _ =>
      rw [hvalue] at hlost
      cases hlost

/-- What comes back of an item is the same exactly if the item holds nothing that does not come
back. -/
theorem same_reload_asRead_iff (hpath : item.path ≠ .text "") {result : Item}
    (hreload : back.reload = .ok result) : result.Same item ↔ item.Lasting := by
  have hpresent : item.path.isPresent = true := by
    obtain ⟨s, hs⟩ := Field.admits_path (htyped .path)
    have hs : item.path = .text s := hs
    rw [hs] at hpath ⊢
    exact bne_iff_ne.mpr fun hempty => hpath (hempty ▸ rfl)
  constructor
  · intro hsame
    have hkept := losesNextLine_of_same_reload htyped hback hreload hsame
    obtain rfl := eq_asRead hback hkept
    exact ⟨((same_reload_iff htyped hreload).mp hsame).portable, hkept⟩
  · rintro ⟨hportable, hkept⟩
    obtain rfl := eq_asRead hback hkept
    exact (same_reload_iff htyped hreload).mpr ⟨htyped, hportable, hpresent⟩

end AsRead

end Item

/-! ## Saved items -/

namespace Store

variable {store : Store} {item : Item}

/-- Saving a well-typed item fails only for want of a file or for too many digits. -/
theorem save_eq_ok_iff (htyped : item.WellTyped) :
    (store.save item).1 = .ok () ↔ (∃ name, store.writableName item = .ok name) ∧
      ∀ field : Field, (item.get field).HasNumeral := by
  rw [← htyped.fileText_iff, save]
  cases hname : store.writableName item with
  | error failure =>
      refine ⟨fun h => (by cases h), ?_⟩
      rintro ⟨⟨name, hname⟩, -⟩
      cases hname
  | ok name =>
      dsimp only
      cases htext : fileText item with
      | error failure =>
          refine ⟨fun h => (by cases h), ?_⟩
          rintro ⟨-, text, htext⟩
          cases htext
      | ok text => exact ⟨fun _ => ⟨⟨name, rfl⟩, text, rfl⟩, fun _ => rfl⟩

/-- The text of a well-typed item is the document of what comes back of the item. -/
theorem exists_document_of_fileText (htyped : item.WellTyped) {text : List Char}
    (htext : fileText item = .ok text) :
    ∃ (back : Item) (document : Value),
      (∀ field : Field, (item.get field).ComesBackAs (back.get field)) ∧
      Yaml.read text = .ok document ∧ Item.ofDocument document = back.reload := by
  obtain ⟨record, hrecord, hwrite⟩ := bind_eq_ok htext
  obtain ⟨back, hback, entries, hentries, hread⟩ := htyped.exists_asRead hrecord hwrite
  refine ⟨back, .map entries, hback, hread, ?_⟩
  rw [Item.reload, hentries, ok_bind]
  obtain ⟨-, rfl⟩ := Item.toRecord_eq_ok hentries
  rfl

/-- An item that was saved is found, from whatever came back of it. -/
theorem find_save_asRead (htyped : item.WellTyped) (h : (store.save item).1 = .ok ()) :
    ∃ back found : Item, (∀ field : Field, (item.get field).ComesBackAs (back.get field)) ∧
      back.reload = .ok found ∧ (store.save item).2.find item.id = .ok (some found) := by
  rcases store.save_cases item with
    ⟨_, _, hsave⟩ | ⟨name, hname, ⟨_, _, hsave⟩ | ⟨text, htext, hsave⟩⟩
  · rw [hsave] at h
    cases h
  · rw [hsave] at h
    cases h
  · obtain ⟨hfileName, hreach, hcheck⟩ := writableName_eq_ok hname
    obtain ⟨back, document, hback, hread, hdocument⟩ := exists_document_of_fileText htyped htext
    obtain ⟨text', hid⟩ := plainString_of_fileName hfileName
    obtain ⟨found, hfound⟩ := (Item.wellTyped_asRead htyped hback).reload
      (by rw [Item.id_asRead htyped hback]; exact hid)
    refine ⟨back, found, hback, hfound, ?_⟩
    rw [hsave, find_of_document hfileName (reach_write hreach name text) hcheck
      (get?_write_self ..) hread, hdocument, hfound]
    rfl

/-- A well-typed item that was saved is found, and it is the same exactly if it holds nothing that
does not come back. -/
theorem saved_item_survives (htyped : item.WellTyped) (hpath : item.path ≠ .text "") :
    ((store.save item).1 = .ok () ↔ (∃ name, store.writableName item = .ok name) ∧
      ∀ field : Field, (item.get field).HasNumeral) ∧
    ((store.save item).1 = .ok () → ∃ found,
      Store.find ⟨store.path, (store.save item).2.folder⟩ item.id = .ok (some found) ∧
        (found.Same item ↔ item.Lasting)) := by
  refine ⟨save_eq_ok_iff htyped, fun h => ?_⟩
  obtain ⟨back, found, hback, hfound, hfind⟩ := find_save_asRead htyped h
  have hagain : (⟨store.path, (store.save item).2.folder⟩ : Store) = (store.save item).2 := by
    rw [← (store.save_frame item).1]
  rw [hagain]
  exact ⟨found, hfind, Item.same_reload_asRead_iff htyped hback hpath hfound⟩

/-! ## Stores that were filled by saving -/

/-- The store after items were saved in it, one after the other. -/
def saveAll (store : Store) (items : List Item) : Store :=
  items.foldl (fun store item => (store.save item).2) store

theorem path_saveAll (store : Store) (items : List Item) :
    (store.saveAll items).path = store.path := by
  induction items generalizing store with
  | nil => rfl
  | cons item items ih => exact (ih _).trans (store.save_frame item).1

/-- Every file is empty or holds the text of a well-typed item under its own name. -/
def HoldsTyped (store : Store) : Prop :=
  ∀ name text, store.folder.get? name = some (.file text) →
    text = [] ∨ ∃ item : Item, item.WellTyped ∧ fileName item.id = .ok name ∧
      fileText item = .ok text

theorem HoldsTyped.save (h : store.HoldsTyped) (htyped : item.WellTyped) :
    (store.save item).2.HoldsTyped :=
  files_save h (fun _ _ => Or.inl rfl) fun _ _ hname htext =>
    Or.inr ⟨item, htyped, hname, htext⟩

theorem HoldsTyped.saveAll (h : store.HoldsTyped) {items : List Item}
    (htyped : ∀ item ∈ items, item.WellTyped) : (store.saveAll items).HoldsTyped := by
  induction items generalizing store with
  | nil => exact h
  | cons item items ih =>
      exact ih (h.save (htyped item List.mem_cons_self))
        fun other hother => htyped other (List.mem_cons_of_mem _ hother)

theorem holdsTyped_of_empty (h : store.folder = Folder.empty) : store.HoldsTyped := by
  intro name text hfile
  rw [h] at hfile
  cases hfile

/-- Whatever is found there is well-typed, and its id is the one that was asked for. -/
theorem HoldsTyped.find (h : store.HoldsTyped) {id : Value} {found : Item}
    (hfind : store.find id = .ok (some found)) :
    found.WellTyped ∧ fileName found.id = fileName id := by
  obtain ⟨name, text, document, hname, hfile, hread, hfound⟩ := find_eq_ok_some hfind
  rcases h name text hfile with rfl | ⟨item, htyped, hitem, htext⟩
  · exact (ofDocument_of_read_nil hread hfound).elim
  · obtain ⟨back, document', hback, hread', hdocument⟩ := exists_document_of_fileText htyped htext
    cases hread.symm.trans hread'
    have hreload : back.reload = .ok found := hdocument.symm.trans hfound
    refine ⟨(Item.settled_of_reload (Item.wellTyped_asRead htyped hback) hreload).typed, ?_⟩
    have hget : found.get .id = back.get .id := Item.get_reload hreload rfl (by decide)
    have hid : found.id = item.id := hget.trans (Item.id_asRead htyped hback)
    rw [hid, hitem, hname]

end Store

/-! ## A text with a next line control -/

/-- An item whose text is a next line control and a space, and whose title is a word for null. -/
def quotedItem : Item := { helloItem with text := .text "\u0085 ", title := .text "null" }

/-- Between quotation marks the control is written as an escape, and it survives. -/
theorem saved_item_survives_quoted :
    quotedItem.WellTyped ∧ quotedItem.path ≠ .text "" ∧
      (Store.fresh.save quotedItem).1 = .ok () ∧
      ∃ found, Store.find ⟨Store.fresh.path, (Store.fresh.save quotedItem).2.folder⟩ quotedItem.id =
        .ok (some found) ∧ found.Same quotedItem := by
  have htyped : quotedItem.WellTyped := by
    intro field
    cases field <;> rfl
  have hpath : quotedItem.path ≠ .text "" := fun hempty =>
    absurd (Value.text.inj hempty) (by decide)
  have hnumeral : ∀ field : Field, (quotedItem.get field).HasNumeral := by
    intro field n hn
    have hone : numeral 1 = .ok ['1'] := by decide +kernel
    cases field <;> cases hn
    exact ⟨_, hone⟩
  have hlasting : quotedItem.Lasting := by
    refine ⟨fun field t ht => ?_, fun field => ?_⟩
    · cases field <;> cases ht
      exact noon_portable
    · cases field <;> decide
  obtain ⟨hsave, hfind⟩ := @Store.saved_item_survives Store.fresh quotedItem htyped hpath
  have hsaved := hsave.mpr ⟨⟨_, writableName_fresh rfl⟩, hnumeral⟩
  obtain ⟨found, hfound, hsame⟩ := hfind hsaved
  exact ⟨htyped, hpath, hsaved, found, hfound, hsame.mpr hlasting⟩

/-- An item whose text has a next line control between letters. -/
def nextLineItem : Item := { helloItem with text := .text "a\u0085b" }

/-- Under an id an item with this text is found. -/
def Store.findsText (store : Store) (id : Value) (text : String) : Bool :=
  match store.find id with
  | .ok (some found) => found.text.identical (.text text)
  | _ => false

theorem Store.find_of_findsText {store : Store} {id : Value} {text : String}
    (h : store.findsText id text = true) :
    ∃ found, store.find id = .ok (some found) ∧ found.text = .text text := by
  rw [findsText] at h
  split at h
  · next found hfound => exact ⟨found, hfound, Value.eq_of_identical h⟩
  · cases h

/-- Between apostrophes the control is read as a line feed, and a single one as a space. -/
theorem next_line_becomes_space :
    nextLineItem.WellTyped ∧ nextLineItem.path ≠ .text "" ∧
      (Store.fresh.save nextLineItem).1 = .ok () ∧
      ∃ found, (Store.fresh.save nextLineItem).2.find nextLineItem.id = .ok (some found) ∧
        found.text = .text "a b" ∧ ¬ found.Same nextLineItem := by
  have htyped : nextLineItem.WellTyped := by
    intro field
    cases field <;> rfl
  have hpath : nextLineItem.path ≠ .text "" := fun hempty =>
    absurd (Value.text.inj hempty) (by decide)
  have hsave : (Store.fresh.save nextLineItem).1 = .ok () := by decide +kernel
  have hfinds : (Store.fresh.save nextLineItem).2.findsText nextLineItem.id "a b" = true := by
    decide +kernel
  obtain ⟨found, hfound, htext⟩ := Store.find_of_findsText hfinds
  refine ⟨htyped, hpath, hsave, found, hfound, htext, fun hsame => ?_⟩
  have hequal : found.text.same nextLineItem.text = true := hsame .text
  rw [htext] at hequal
  exact absurd hequal (by decide)

end Deferral
