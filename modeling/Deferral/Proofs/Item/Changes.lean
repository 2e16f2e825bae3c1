/-
# Deferral.Proofs.Item.Changes -- what changes do to an item

Changes are made one after the other, so that each field ends with the last value that it
is given, or keeps its own. The changes that redact an item give the four fields of its
content nothing but notices, and they give its deletion an instant.
-/

import Deferral.Store
import Deferral.Proofs.Failure.Chain
import Mathlib.Data.List.Induction

namespace Deferral

/-! ## Names -/

@[simp]
theorem Field.ofName?_name (field : Field) : Field.ofName? field.name = some field := by
  cases field <;> decide

theorem Field.name_eq_of_ofName? {name : String} {field : Field}
    (h : Field.ofName? name = some field) : field.name = name := by
  have hname := List.find?_some h
  exact beq_iff_eq.mp hname

theorem Field.mem_all (field : Field) : field ∈ Field.all := by
  cases field <;> decide

namespace Item

/-! ## The last value of a field -/

theorem lastChange?_append (first second : List (Field × Value)) (field : Field) :
    lastChange? (first ++ second) field =
      (lastChange? second field).or (lastChange? first field) := by
  rw [lastChange?, List.reverse_append, List.find?_append, Option.map_or]
  rfl

theorem lastChange?_singleton (change : Field × Value) (field : Field) :
    lastChange? [change] field = if change.1 = field then some change.2 else none := by
  rw [lastChange?, List.reverse_singleton, List.find?_singleton]
  by_cases h : change.1 = field
  · rw [if_pos (beq_iff_eq.mpr h), if_pos h]
    rfl
  · rw [if_neg (fun heq => h (beq_iff_eq.mp heq)), if_neg h]
    rfl

/-- The last value of a field is one that a change gives to it. -/
theorem mem_of_lastChange? {changes : List (Field × Value)} {field : Field} {value : Value}
    (h : lastChange? changes field = some value) : (field, value) ∈ changes := by
  obtain ⟨change, hfind, rfl⟩ := Option.map_eq_some_iff.mp h
  have hfield := List.find?_some hfind
  obtain rfl : change.1 = field := beq_iff_eq.mp hfield
  exact List.mem_reverse.mp (List.mem_of_find?_eq_some hfind)

/-- After changes a field has the last value that they give to it, or else its own. -/
theorem get_setAll (item : Item) (changes : List (Field × Value)) (field : Field) :
    (item.setAll changes).get field = (lastChange? changes field).getD (item.get field) := by
  induction changes using List.reverseRecOn with
  | nil => rfl
  | append_singleton changes change ih =>
      have hset : item.setAll (changes ++ [change]) =
          (item.setAll changes).set change.1 change.2 := by
        rw [setAll, List.foldl_append]
        rfl
      rw [hset, lastChange?_append, lastChange?_singleton]
      split
      · next h =>
          subst h
          rw [get_set_self, Option.some_or, Option.getD_some]
      · next h => rw [get_set_of_ne _ _ (Ne.symm h), ih, Option.none_or]

end Item

namespace Store

/-- A change of a known field comes from one of its name. -/
theorem mem_of_mem_knownChanges {changes : List (String × Value)} {field : Field} {value : Value}
    (h : (field, value) ∈ knownChanges changes) : (field.name, value) ∈ changes := by
  obtain ⟨⟨name, value'⟩, hmem, hknown⟩ := List.mem_filterMap.mp h
  obtain ⟨field', hname, heq⟩ := Option.map_eq_some_iff.mp hknown
  cases heq
  rw [Field.name_eq_of_ofName? hname]
  exact hmem

end Store

/-! ## Redaction -/

/-- The fields of the content, which a deletion takes away. -/
def Field.content : List Field := [.text, .title, .url, .pollCost]

theorem Field.holdsInstant_of_mem_content {field : Field} (h : field ∈ content) :
    field.holdsInstant = false := by
  revert h
  cases field <;> decide

theorem Field.ne_path_of_mem_content {field : Field} (h : field ∈ content) : field ≠ .path := by
  rintro rfl
  revert h
  decide

theorem Field.ne_deletedAt_of_mem_content {field : Field} (h : field ∈ content) :
    field ≠ .deletedAt := by
  rintro rfl
  revert h
  decide

theorem Field.mem_frozen_of_mem_content {field : Field} (h : field ∈ content) :
    field ∈ frozen := by
  revert h
  cases field <;> decide

/-- What a deletion leaves in a field of the content. -/
def Field.notice : Field → Value
  | .text => .text Item.deletedText
  | .title => .text Item.deletedTitle
  | _ => .null

namespace Item

/-- A field is empty or holds its notice. -/
def IsRedactedAt (item : Item) (field : Field) : Prop :=
  (item.get field).isPresent = false ∨ item.get field = field.notice

/-- Nothing of the content is left: text, title, address and cost are empty, or the first
two hold the notices of a deletion. -/
def IsRedacted (item : Item) : Prop := ∀ field ∈ Field.content, item.IsRedactedAt field

/-- An item counts as deleted now, or at the instant at which it was deleted before. -/
theorem deletionInstant_cases {item : Item} {now : DateTime} {value : Value}
    (h : item.deletionInstant now = .ok value) :
    (∃ i, value = .dateTime (.utc i)) ∨ item.deletedAt.isNull = false ∧ value = item.deletedAt := by
  rw [deletionInstant] at h
  split at h
  · obtain ⟨i, -, rfl⟩ := map_eq_ok h
    exact Or.inl ⟨i, rfl⟩
  · next hdeleted =>
      cases h
      exact Or.inr ⟨Bool.eq_false_iff.mpr hdeleted, rfl⟩

theorem isNull_deletionInstant {item : Item} {now : DateTime} {value : Value}
    (h : item.deletionInstant now = .ok value) : value.isNull = false := by
  rcases deletionInstant_cases h with ⟨i, rfl⟩ | ⟨hdeleted, rfl⟩
  · rfl
  · exact hdeleted

/-- The changes of some fields that an item has, each to its notice. -/
theorem lastChange?_flatMap_notice (item : Item) (fields : List Field) (field : Field) :
    lastChange? (fields.flatMap fun f => item.changeIfPresent f f.notice) field =
      if field ∈ fields ∧ (item.get field).isPresent then some field.notice else none := by
  induction fields with
  | nil => simp [lastChange?]
  | cons f fields ih =>
      rw [List.flatMap_cons, lastChange?_append, ih]
      by_cases hmem : field ∈ fields ∧ (item.get field).isPresent
      · rw [if_pos hmem, if_pos ⟨List.mem_cons_of_mem f hmem.1, hmem.2⟩, Option.some_or]
      · rw [if_neg hmem, Option.none_or, changeIfPresent]
        by_cases hf : f = field
        · subst hf
          by_cases hpresent : (item.get f).isPresent = true
          · rw [if_pos hpresent, if_pos ⟨List.mem_cons_self, hpresent⟩, lastChange?_singleton,
              if_pos rfl]
          · rw [if_neg hpresent, if_neg (fun h => hpresent h.2)]
            rfl
        · have hnot : ¬ (field ∈ f :: fields ∧ (item.get field).isPresent) := by
            rintro ⟨hcons, hpresent⟩
            rcases List.mem_cons.mp hcons with rfl | hrest
            · exact hf rfl
            · exact hmem ⟨hrest, hpresent⟩
          rw [if_neg hnot]
          split
          · rw [lastChange?_singleton, if_neg hf]
          · rfl

/-- The changes that redact an item set its deletion and replace the content that it has. -/
theorem redaction_eq_ok {item : Item} {now : DateTime} {changes : List (Field × Value)}
    (h : item.redaction now = .ok changes) :
    ∃ deletedAt, item.deletionInstant now = .ok deletedAt ∧
      changes = (.deletedAt, deletedAt) ::
        Field.content.flatMap fun f => item.changeIfPresent f f.notice := by
  obtain ⟨deletedAt, hdeleted, h⟩ := bind_eq_ok h
  cases h
  refine ⟨deletedAt, hdeleted, congrArg _ ?_⟩
  simp [Field.content, Field.notice]

/-- What redaction gives to the deletion and to the content of an item. -/
theorem lastChange?_redaction {item : Item} {now : DateTime} {changes : List (Field × Value)}
    (h : item.redaction now = .ok changes) :
    ∃ deletedAt, item.deletionInstant now = .ok deletedAt ∧
      ∀ field, lastChange? changes field =
        if field = .deletedAt then some deletedAt
        else if field ∈ Field.content ∧ (item.get field).isPresent then some field.notice
        else none := by
  obtain ⟨deletedAt, hdeleted, rfl⟩ := redaction_eq_ok h
  refine ⟨deletedAt, hdeleted, fun field => ?_⟩
  rw [← List.singleton_append, lastChange?_append, lastChange?_flatMap_notice,
    lastChange?_singleton]
  by_cases hfield : field = .deletedAt
  · subst hfield
    rfl
  · rw [if_neg hfield, if_neg (Ne.symm hfield), Option.or_none]

end Item

end Deferral
