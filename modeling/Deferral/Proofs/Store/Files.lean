/-
# Deferral.Proofs.Store.Files -- what the files of a store hold

The only operation that changes files is `save`, and it changes one. It leaves the files
alone, or it empties the file of the item, or it writes the text of the item there. Hence
in a store that began empty every file is empty or holds the text of an item under its own
name. `Every` says so, and adds what is known of the items. What `find` gives is the item
of the file as its record gives it back.
-/

import Deferral.Proofs.Item.Reload

namespace Deferral

/-- The document of an item is read back as the record from which it was written. -/
def Item.ReadsBack (item : Item) : Prop :=
  ∀ record text, item.toRecord = .ok record → Yaml.write record = .ok text →
    Yaml.read text = .ok (.map record)

namespace Store

/-! ## Files -/

@[simp]
theorem get?_write_self (store : Store) (name : String) (text : List Char) :
    (store.write name text).folder.get? name = some (.file text) :=
  Folder.get?_insert_self ..

theorem get?_write_of_ne (store : Store) {name other : String} (text : List Char)
    (h : other ≠ name) : (store.write name text).folder.get? other = store.folder.get? other :=
  Folder.get?_insert_of_ne _ _ h

/-- Writing a file does not put another one out of reach. -/
theorem reach_write {store : Store} {name : String} (h : store.reach name = .ok store.folder)
    (other : String) (text : List Char) :
    (store.write other text).reach name = .ok (store.write other text).folder := by
  obtain ⟨_, hpath, _⟩ := bind_eq_ok h
  show ((store.path.child name).check >>= _) = _
  rw [hpath, ok_bind]
  rfl

/-- What is found depends on the path of the store and on the file of the id alone. -/
theorem find_congr_at {store store' : Store} (hpath : store'.path = store.path) {id : Value}
    (hfile : ∀ name, fileName id = .ok name →
      store'.folder.get? name = store.folder.get? name) : store'.find id = store.find id := by
  rw [find, find]
  cases hname : fileName id with
  | error failure => rfl
  | ok name =>
      have hget := hfile name hname
      have hreach : (store'.reach name >>= (·.has name)) = (store.reach name >>= (·.has name)) := by
        simp only [reach, hpath, Folder.has, hget, bind_assoc, pure_bind]
      have hdocument : store'.readDocument id name = store.readDocument id name := by
        simp only [readDocument, reach, faultReport, filePath, hpath, Folder.read, hget,
          bind_assoc, pure_bind]
      simp only [ok_bind, hreach, hdocument]

theorem find_congr {store store' : Store} (hpath : store'.path = store.path)
    (hfiles : ∀ name, store'.folder.get? name = store.folder.get? name) (id : Value) :
    store'.find id = store.find id :=
  find_congr_at hpath fun name _ => hfiles name

/-! ## Saving -/

/-- A file that may be written has a name and a path that the system takes. -/
theorem writableName_eq_ok {store : Store} {item : Item} {name : String}
    (h : store.writableName item = .ok name) :
    fileName item.id = .ok name ∧ store.reach name = .ok store.folder ∧
      Folder.checkName name = .ok () := by
  obtain ⟨name', hname, h⟩ := bind_eq_ok h
  split at h
  · obtain ⟨_, _, h⟩ := bind_eq_ok h
    cases h
  · next hwritable =>
      cases h
      obtain ⟨folder, hreach, hcheck⟩ := bind_eq_ok hwritable
      obtain ⟨_, hpath, hfolder⟩ := bind_eq_ok hreach
      cases hfolder
      obtain ⟨_, hcheckName, _⟩ := bind_eq_ok hcheck
      exact ⟨hname, hreach, hcheckName⟩

theorem fileName_of_writableName {store : Store} {item : Item} {name : String}
    (h : store.writableName item = .ok name) : fileName item.id = .ok name :=
  (writableName_eq_ok h).1

/-- Saving refuses the file, or empties it for an item without a text, or writes it. -/
theorem save_cases (store : Store) (item : Item) :
    (∃ failure, store.writableName item = .error failure ∧
      store.save item = (.error failure, store)) ∨
    ∃ name, store.writableName item = .ok name ∧
      ((∃ failure, fileText item = .error failure ∧
        store.save item = (.error failure, store.write name [])) ∨
      ∃ text, fileText item = .ok text ∧ store.save item = (.ok (), store.write name text)) := by
  rw [save]
  cases hname : store.writableName item with
  | error failure => exact Or.inl ⟨failure, rfl, rfl⟩
  | ok name =>
      refine Or.inr ⟨name, rfl, ?_⟩
      cases htext : fileText item with
      | error failure => exact Or.inl ⟨failure, rfl, rfl⟩
      | ok text => exact Or.inr ⟨text, rfl, rfl⟩

/-- Saving leaves the path of the store, and every file but that of the item. -/
theorem save_frame (store : Store) (item : Item) :
    (store.save item).2.path = store.path ∧ ∀ name, fileName item.id ≠ .ok name →
      (store.save item).2.folder.get? name = store.folder.get? name := by
  have hwrite : ∀ name text, store.writableName item = .ok name →
      (store.write name text).path = store.path ∧ ∀ other, fileName item.id ≠ .ok other →
        (store.write name text).folder.get? other = store.folder.get? other := by
    intro name text hname
    refine ⟨rfl, fun other hother => get?_write_of_ne _ _ ?_⟩
    rintro rfl
    exact hother (fileName_of_writableName hname)
  rcases save_cases store item with
    ⟨_, _, hsave⟩ | ⟨name, hname, ⟨_, _, hsave⟩ | ⟨_, _, hsave⟩⟩
  · rw [hsave]
    exact ⟨rfl, fun _ _ => rfl⟩
  · rw [hsave]
    exact hwrite name _ hname
  · rw [hsave]
    exact hwrite name _ hname

/-- What is known of all files stays so if it is known of the file that is saved, whether it is left
empty or gets the text of the item. -/
theorem files_save {q : String → List Char → Prop} {store : Store}
    (h : ∀ name text, store.folder.get? name = some (.file text) → q name text) {item : Item}
    (hempty : ∀ name, fileName item.id = .ok name → q name [])
    (htext : ∀ name text, fileName item.id = .ok name → fileText item = .ok text → q name text) :
    ∀ name text, (store.save item).2.folder.get? name = some (.file text) → q name text := by
  have hwrite : ∀ name text, q name text → ∀ other content,
      (store.write name text).folder.get? other = some (.file content) → q other content := by
    intro name text hq other content hfile
    by_cases hother : other = name
    · subst hother
      rw [get?_write_self] at hfile
      cases hfile
      exact hq
    · rw [get?_write_of_ne _ _ hother] at hfile
      exact h other content hfile
  rcases save_cases store item with
    ⟨_, _, hsave⟩ | ⟨name, hname, ⟨_, _, hsave⟩ | ⟨text, hwritten, hsave⟩⟩
  · rw [hsave]
    exact h
  · rw [hsave]
    exact hwrite name [] (hempty name (fileName_of_writableName hname))
  · rw [hsave]
    exact hwrite name text (htext name text (fileName_of_writableName hname) hwritten)

/-! ## Finding -/

/-- An item that is found was read from the file of its id. -/
theorem find_eq_ok_some {store : Store} {id : Value} {item : Item}
    (h : store.find id = .ok (some item)) :
    ∃ name text document, fileName id = .ok name ∧
      store.folder.get? name = some (.file text) ∧ Yaml.read text = .ok document ∧
      Item.ofDocument document = .ok item := by
  obtain ⟨name, hname, h⟩ := bind_eq_ok h
  split at h
  · cases h
  · cases h
  · obtain ⟨document, hdocument, h⟩ := bind_eq_ok h
    obtain ⟨item', hitem, h⟩ := bind_eq_ok h
    cases h
    rw [readDocument] at hdocument
    split at hdocument
    · obtain ⟨_, _, hdocument⟩ := bind_eq_ok hdocument
      cases hdocument
    · next text htext =>
        obtain ⟨folder, hreach, hread⟩ := bind_eq_ok htext
        obtain ⟨_, _, hfolder⟩ := bind_eq_ok hreach
        cases hfolder
        obtain ⟨_, _, hread⟩ := bind_eq_ok hread
        refine ⟨name, text, document, hname, ?_, ?_, hitem⟩
        · split at hread
          · next hfile =>
              cases hread
              exact hfile
          · cases hread
          · cases hread
        · split at hdocument
          · obtain ⟨_, _, hdocument⟩ := bind_eq_ok hdocument
            cases hdocument
          · exact hdocument

/-- A file in which an item is found has a name and a path that the system takes, and so may
be written. -/
theorem writableName_of_find {store : Store} {id : Value} {found item : Item}
    (h : store.find id = .ok (some found)) (hid : fileName item.id = fileName id) :
    ∃ name, store.writableName item = .ok name := by
  obtain ⟨name, text, -, hname, hfile, -, -⟩ := find_eq_ok_some h
  rw [find, hname, ok_bind] at h
  have hhas : ∃ present, (store.reach name >>= (·.has name)) = .ok present := by
    cases hhas : (store.reach name >>= (·.has name)) with
    | error fault =>
        rw [hhas] at h
        cases h
    | ok present => exact ⟨present, rfl⟩
  obtain ⟨present, hhas⟩ := hhas
  obtain ⟨folder, hreach, hhas⟩ := bind_eq_ok hhas
  obtain ⟨_, hpath, hfolder⟩ := bind_eq_ok hreach
  cases hfolder
  obtain ⟨_, hcheck, -⟩ := map_eq_ok hhas
  refine ⟨name, ?_⟩
  have hwritable : (store.reach name >>= (·.checkWritable name)) = .ok () := by
    rw [hreach, ok_bind, Folder.checkWritable, hcheck, ok_bind, hfile]
    rfl
  rw [writableName, hid, hname, ok_bind, hwritable]
  rfl

/-- Where nothing is in the way, the item of the document in the file is found. -/
theorem find_of_document {store : Store} {id : Value} {name : String} {text : List Char}
    {document : Value} (hname : fileName id = .ok name)
    (hreach : store.reach name = .ok store.folder) (hcheck : Folder.checkName name = .ok ())
    (hfile : store.folder.get? name = some (.file text)) (hread : Yaml.read text = .ok document) :
    store.find id = some <$> Item.ofDocument document := by
  have hhas : (store.reach name >>= (·.has name)) = .ok true := by
    rw [hreach, ok_bind, Folder.has, hcheck, hfile]
    rfl
  have htext : (store.reach name >>= (·.read name)) = .ok text := by
    rw [hreach, ok_bind, Folder.read, hcheck, ok_bind, hfile]
    rfl
  have hdocument : store.readDocument id name = .ok document := by
    rw [readDocument, htext]
    dsimp only
    rw [hread]
  rw [find, hname, ok_bind, hhas]
  show (store.readDocument id name >>= _) = _
  rw [hdocument, ok_bind]
  cases Item.ofDocument document <;> rfl

/-- An empty file has no item. -/
theorem ofDocument_of_read_nil {document : Value} {item : Item}
    (hread : Yaml.read [] = .ok document) (h : Item.ofDocument document = .ok item) : False := by
  have hnull : Yaml.read [] = .ok .null := by rfl
  rw [hnull] at hread
  cases hread
  cases h

/-! ## What is known of all files -/

/-- Every file is empty or holds the text of an item under its own name, which is read back
as it was written and of which `p` holds. -/
def Every (p : String → Item → Prop) (store : Store) : Prop :=
  ∀ name text, store.folder.get? name = some (.file text) →
    text = [] ∨ ∃ item, fileName item.id = .ok name ∧ fileText item = .ok text ∧
      item.ReadsBack ∧ p name item

section

variable {p q : String → Item → Prop} {store : Store}

theorem every_of_empty (h : store.folder = Folder.empty) : store.Every p := by
  intro name text hfile
  rw [h] at hfile
  cases hfile

theorem Every.mono (h : store.Every p) (hpq : ∀ name item, p name item → q name item) :
    store.Every q := by
  intro name text hfile
  rcases h name text hfile with hempty | ⟨item, hname, htext, hback, hp⟩
  · exact Or.inl hempty
  · exact Or.inr ⟨item, hname, htext, hback, hpq name item hp⟩

theorem Every.and_fileText (h : store.Every p) :
    store.Every fun name item => p name item ∧ ∃ text, fileText item = .ok text := by
  intro name text hfile
  rcases h name text hfile with hempty | ⟨item, hname, htext, hback, hp⟩
  · exact Or.inl hempty
  · exact Or.inr ⟨item, hname, htext, hback, hp, text, htext⟩

/-- Saving an item keeps what is known of all files, if it is known of this item. -/
theorem Every.save (h : store.Every p) {item : Item} (hback : item.ReadsBack)
    (hp : ∀ name, fileName item.id = .ok name → p name item) : (store.save item).2.Every p :=
  files_save h (fun _ _ => Or.inl rfl) fun name _ hname htext =>
    Or.inr ⟨item, hname, htext, hback, hp name hname⟩

/-- What stands in the text of an item is the item as its record gives it back. -/
theorem reload_of_read {item : Item} {text : List Char} {document : Value}
    (htext : fileText item = .ok text) (hback : item.ReadsBack)
    (hread : Yaml.read text = .ok document) : item.reload = Item.ofDocument document := by
  obtain ⟨record, hrecord, hwrite⟩ := bind_eq_ok htext
  rw [hback record text hrecord hwrite] at hread
  cases hread
  rw [Item.reload, hrecord, ok_bind]
  obtain ⟨-, rfl⟩ := Item.toRecord_eq_ok hrecord
  rfl

/-- An item that is found is a saved one, as its record gives it back. -/
theorem Every.find (h : store.Every p) {id : Value} {found : Item}
    (hfind : store.find id = .ok (some found)) :
    ∃ name item, fileName id = .ok name ∧ fileName item.id = .ok name ∧ p name item ∧
      item.reload = .ok found := by
  obtain ⟨name, text, document, hname, hfile, hread, hfound⟩ := find_eq_ok_some hfind
  rcases h name text hfile with rfl | ⟨item, hitem, htext, hback, hp⟩
  · exact (ofDocument_of_read_nil hread hfound).elim
  · refine ⟨name, item, hname, hitem, hp, ?_⟩
    rw [reload_of_read htext hback hread, hfound]

/-- What is found is known of the file in which it was found. -/
theorem Every.and_find (h : store.Every p) {id : Value} {found : Item} {name : String}
    (hfind : store.find id = .ok (some found)) (hname : fileName id = .ok name) :
    store.Every fun other item => p other item ∧ (other = name → item.reload = .ok found) := by
  intro other text hfile
  rcases h other text hfile with hempty | ⟨item, hitem, htext, hback, hp⟩
  · exact Or.inl hempty
  · refine Or.inr ⟨item, hitem, htext, hback, hp, ?_⟩
    rintro rfl
    obtain ⟨name', text', document, hname', hfile', hread, hfound⟩ := find_eq_ok_some hfind
    obtain rfl : name' = other := Except.ok.inj (hname'.symm.trans hname)
    rw [hfile] at hfile'
    cases hfile'
    rw [reload_of_read htext hback hread, hfound]

end

/-! ## Changing items -/

theorem find_of_get {store : Store} {id : Value} {item : Item} (h : store.get id = .ok item) :
    store.find id = .ok (some item) := by
  obtain ⟨result, hfind, h⟩ := bind_eq_ok h
  cases result with
  | none =>
      obtain ⟨_, _, h⟩ := bind_eq_ok h
      cases h
  | some found =>
      cases h
      exact hfind

/-- Changes that are not refused change an item that is found. -/
theorem changed_eq_ok {store : Store} {id : Value} {changes : List (Field × Value)} {item : Item}
    (h : store.changed id changes = .ok item) :
    ∃ found, store.find id = .ok (some found) ∧ item = found.setAll changes ∧
      (found.deletedAt.isNull = true ∨ ∀ field ∈ Field.frozen, ∀ value,
        Item.lastChange? changes field = some value → value.same (found.get field) = true) := by
  obtain ⟨found, hget, h⟩ := bind_eq_ok h
  obtain ⟨_, hfrozen, h⟩ := bind_eq_ok h
  cases h
  refine ⟨found, find_of_get hget, rfl, ?_⟩
  rw [checkFrozen] at hfrozen
  split at hfrozen
  · next hfree =>
      rcases Bool.or_eq_true_iff.mp hfree with hnull | hsame
      · exact Or.inl hnull
      · refine Or.inr fun field hfield value hchange => ?_
        have hnone := List.filter_eq_nil_iff.mp (List.isEmpty_iff.mp hsame) field hfield
        rw [hchange] at hnone
        simpa using hnone
  · obtain ⟨_, _, hfrozen⟩ := bind_eq_ok hfrozen
    cases hfrozen

end Store

end Deferral
