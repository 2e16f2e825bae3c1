/-
# Deferral.Proofs.Yaml.Scalars -- mappings of scalars

Of all scalars only an integer may be refused, which happens if it has too many digits. A
mapping of scalars is put into words exactly if each of its keys and values is.
-/

import Deferral.Proofs.Failure.Chain
import Deferral.Yaml.Writer

namespace Deferral.Yaml

/-- A scalar is written wherever it has a text. -/
theorem writeValue_of_scalarText? {value : Value} {s : ScalarText}
    (h : scalarText? value = .ok (some s)) (indent : Nat) (dense inLine : Bool) (column : Nat) :
    writeValue indent dense inLine column value = .ok (s.write (indent + 2) column) := by
  cases value with
  | list items => cases h
  | map entries => cases h
  | _ =>
      rw [writeValue, h]
      · rfl
      all_goals simp

/-- Whatever is written is a collection or has a text as a scalar. -/
theorem scalarText?_of_writeValue {value : Value} {indent column : Nat} {dense inLine : Bool}
    {text : List Char} (h : writeValue indent dense inLine column value = .ok text) :
    ∃ s?, scalarText? value = .ok s? := by
  cases value with
  | list items => exact ⟨none, rfl⟩
  | map entries => exact ⟨none, rfl⟩
  | _ =>
      rw [writeValue] at h
      · obtain ⟨s?, hs, -⟩ := bind_eq_ok h
        exact ⟨s?, hs⟩
      all_goals simp

/-- A mapping of scalars is written if each of them has a text. -/
theorem writeEntries_ok {entries : List (Value × Value)}
    (h : ∀ entry ∈ entries, (∃ s, scalarText? entry.1 = .ok (some s)) ∧
      ∃ s, scalarText? entry.2 = .ok (some s)) (layout : Layout) (column : Nat) :
    ∃ text, writeEntries layout column entries = .ok text := by
  induction entries generalizing layout column with
  | nil => exact ⟨[], by rw [writeEntries]⟩
  | cons entry entries ih =>
      obtain ⟨key, value⟩ := entry
      obtain ⟨⟨⟨k, hkey⟩, s, hvalue⟩, hrest⟩ := List.forall_mem_cons.mp h
      obtain ⟨rest, hrest⟩ := ih hrest layout.next 0
      rw [writeEntries, hkey, ok_bind]
      dsimp only
      rw [hrest, ok_bind]
      split
      · rw [writeValue_of_scalarText? hvalue]
        exact ⟨_, rfl⟩
      · rw [writeValue_of_scalarText? hvalue]
        exact ⟨_, rfl⟩

/-- The values of a mapping that is written are collections or have texts as scalars. -/
theorem scalarText?_of_writeEntries {entries : List (Value × Value)} {layout : Layout}
    {column : Nat} {text : List Char} (h : writeEntries layout column entries = .ok text) :
    ∀ entry ∈ entries, ∃ s?, scalarText? entry.2 = .ok s? := by
  induction entries generalizing layout column text with
  | nil => exact fun entry hentry => absurd hentry List.not_mem_nil
  | cons entry entries ih =>
      obtain ⟨key, value⟩ := entry
      rw [writeEntries] at h
      obtain ⟨k?, -, h⟩ := bind_eq_ok h
      cases k? with
      | none => cases h
      | some k =>
          obtain ⟨rest, hrest, h⟩ := bind_eq_ok h
          refine List.forall_mem_cons.mpr ⟨?_, ih hrest⟩
          split at h
          · obtain ⟨written, hwritten, -⟩ := bind_eq_ok h
            exact scalarText?_of_writeValue hwritten
          · obtain ⟨written, hwritten, -⟩ := bind_eq_ok h
            exact scalarText?_of_writeValue hwritten

theorem write_ok {entries : List (Value × Value)}
    (h : ∀ entry ∈ entries, (∃ s, scalarText? entry.1 = .ok (some s)) ∧
      ∃ s, scalarText? entry.2 = .ok (some s)) : ∃ text, write entries = .ok text := by
  obtain ⟨text, htext⟩ := writeEntries_ok h ⟨0, true⟩ 0
  rw [write, htext]
  exact ⟨_, rfl⟩

theorem scalarText?_of_write {entries : List (Value × Value)} {text : List Char}
    (h : write entries = .ok text) : ∀ entry ∈ entries, ∃ s?, scalarText? entry.2 = .ok s? := by
  obtain ⟨written, hwritten, -⟩ := map_eq_ok h
  exact scalarText?_of_writeEntries hwritten

end Deferral.Yaml
