/-
# Deferral.Proofs.Item.Redacted -- an item as a deletion leaves it

Redaction is an operation that stops after its first use. A live item becomes
`Item.redactedAt`, with the instant of its deletion and with notices in the place of its
content, and whatever redacts this item again leaves it as it is, since an item that is
deleted keeps its instant and a notice is replaced by itself.
-/

import Deferral.Proofs.Item.Typed

namespace Deferral.Item

/-- The item as a deletion at an instant leaves it. -/
def redactedAt (item : Item) (i : Instant) : Item :=
  { item with
    deletedAt := .dateTime (.utc i)
    text := if item.text.isPresent then .text deletedText else item.text
    title := if item.title.isPresent then .text deletedTitle else item.title
    url := if item.url.isPresent then .null else item.url
    pollCost := if item.pollCost.isPresent then .null else item.pollCost }

/-- Two items with the same values in all fields are one. -/
theorem eq_of_get {a b : Item} (h : ∀ field : Field, a.get field = b.get field) : a = b := by
  have hvalues : ofFunction a.get = ofFunction b.get := congrArg ofFunction (funext h)
  exact hvalues

theorem get_redactedAt (item : Item) (i : Instant) (field : Field) :
    (item.redactedAt i).get field =
      if field = .deletedAt then .dateTime (.utc i)
      else if field ∈ Field.content ∧ (item.get field).isPresent then field.notice
      else item.get field := by
  cases field <;> simp [redactedAt, get, Field.content, Field.notice]

section

variable {item : Item}

/-- An item that counts as deleted at some instant is redacted, field by field. -/
theorem exists_redaction {now : DateTime} {deletedAt : Value}
    (h : item.deletionInstant now = .ok deletedAt) :
    ∃ changes, item.redaction now = .ok changes ∧ ∀ field, (item.setAll changes).get field =
      if field = .deletedAt then deletedAt
      else if field ∈ Field.content ∧ (item.get field).isPresent then field.notice
      else item.get field := by
  have hredaction : ∃ changes, item.redaction now = .ok changes := by
    rw [redaction, h, ok_bind]
    exact ⟨_, rfl⟩
  obtain ⟨changes, hchanges⟩ := hredaction
  refine ⟨changes, hchanges, fun field => ?_⟩
  obtain ⟨value, hvalue, hlast⟩ := lastChange?_redaction hchanges
  obtain rfl : value = deletedAt := Except.ok.inj (hvalue.symm.trans h)
  rw [get_setAll, hlast]
  split
  · rfl
  · split <;> rfl

/-- A live item is redacted to what a deletion leaves of it. -/
theorem setAll_redaction_of_live {now : DateTime} {i : Instant} (hlive : item.deletedAt = .null)
    (hnow : now.toInstant = .ok i) :
    ∃ changes, item.redaction now = .ok changes ∧ item.setAll changes = item.redactedAt i := by
  have hinstant : item.deletionInstant now = .ok (.dateTime (.utc i)) := by
    rw [deletionInstant, hlive, hnow]
    rfl
  obtain ⟨changes, hchanges, hget⟩ := exists_redaction hinstant
  refine ⟨changes, hchanges, eq_of_get fun field => ?_⟩
  rw [hget, get_redactedAt]

/-- An item that is deleted and redacted is not changed by another redaction. -/
theorem setAll_redaction_of_redacted (hdeleted : item.deletedAt.isNull = false)
    (hredacted : item.IsRedacted) (now : DateTime) :
    ∃ changes, item.redaction now = .ok changes ∧ item.setAll changes = item := by
  have hinstant : item.deletionInstant now = .ok item.deletedAt := by
    rw [deletionInstant, hdeleted]
    rfl
  obtain ⟨changes, hchanges, hget⟩ := exists_redaction hinstant
  refine ⟨changes, hchanges, eq_of_get fun field => ?_⟩
  rw [hget]
  split
  · next hfield =>
      subst hfield
      rfl
  · split
    · next hpresent =>
        -- What is there is the notice already.
        rcases hredacted field hpresent.1 with habsent | hnotice
        · exact absurd (habsent.symm.trans hpresent.2) Bool.false_ne_true
        · exact hnotice.symm
    · rfl

theorem isRedacted_redactedAt (item : Item) (i : Instant) : (item.redactedAt i).IsRedacted := by
  intro field hfield
  rw [IsRedactedAt, get_redactedAt, if_neg (Field.ne_deletedAt_of_mem_content hfield)]
  split
  · exact Or.inr rfl
  · next hnot =>
      refine Or.inl (Bool.eq_false_iff.mpr fun hpresent => hnot ⟨hfield, hpresent⟩)

/-- What a deletion leaves is typed, and comes back as it is. -/
theorem Settled.redactedAt (h : item.Settled) (i : Instant) : (item.redactedAt i).Settled := by
  constructor
  · intro field
    rw [get_redactedAt]
    split
    · next hfield =>
        subst hfield
        rfl
    · split
      · next hcontent =>
          have hmem := hcontent.1
          revert hmem
          cases field <;> decide
      · exact h.typed field
  · intro field t ht
    rw [get_redactedAt] at ht
    split at ht
    · cases ht
      exact DateTime.portable_utc i
    · split at ht
      · cases field <;> cases ht
      · exact h.portable field t ht
  · exact h.hasPath

/-- A deletion brings no integer into an item. -/
theorem hasNumeral_redactedAt (h : ∀ field : Field, (item.get field).HasNumeral) (i : Instant)
    (field : Field) : ((item.redactedAt i).get field).HasNumeral := by
  rw [get_redactedAt]
  split
  · intro n hn
    cases hn
  · split
    · intro n hn
      cases field <;> cases hn
    · exact h field

/-- Changes that leave an item as it is are no changes of what is frozen. -/
theorem WellTyped.frozenChanges_eq_nil (h : item.WellTyped) {changes : List (Field × Value)}
    (hsame : item.setAll changes = item) : Store.frozenChanges item changes = [] := by
  refine List.filter_eq_nil_iff.mpr fun field _ => ?_
  cases hchange : lastChange? changes field with
  | none => exact Bool.false_ne_true
  | some value =>
      have hvalue : value = item.get field := by
        have hget := get_setAll item changes field
        rw [hsame, hchange, Option.getD_some] at hget
        exact hget.symm
      rw [hvalue]
      simp only [h.same_self field, Bool.not_true, Bool.false_eq_true, not_false_eq_true]

end

end Deferral.Item
