/-
# Deferral.Proofs.Yaml.Places -- places in a document

A reader goes from place to place. Characters that are no line breaks lead on in the line, a line
break leads to the next one, and no character leads back. Blanks and breaks before a token are
skipped.
-/

import Deferral.Yaml.Reader

namespace Deferral.Yaml

/-- A text ends, or begins with a character that is not skipped. -/
def BeginsToken (text : List Char) : Prop := ∀ c ∈ text.head?, isGap c = false ∧ c ≠ '#'

/-- A character that takes one column of its line. -/
def isInLine (c : Char) : Bool := !isBreak c && c != '\ufeff'

namespace Cursor

variable {c : Cursor} {char : Char} {word rest : List Char}

/-! ## Going on -/

theorem pass_isInLine (h : isInLine char = true) :
    c.pass char rest = ⟨rest, c.index + 1, c.line, c.column + 1⟩ := by
  simp only [isInLine, Bool.and_eq_true, Bool.not_eq_true', bne_iff_ne] at h
  rw [pass, h.1, beq_eq_false_iff_ne.mpr h.2]
  rfl

theorem pass_lineFeed : c.pass '\n' rest = ⟨rest, c.index + 1, c.line + 1, 0⟩ := rfl

/-- No character leads back to an earlier line. -/
theorem line_le_advance (c : Cursor) (count : Nat) : c.line ≤ (c.advance count).line := by
  induction count generalizing c with
  | zero => exact Nat.le_refl _
  | succ count ih =>
      rw [advance]
      split
      · exact Nat.le_refl _
      · next char rest _ =>
          have hpass : c.line ≤ (c.pass char rest).line := by
            show c.line ≤ if isBreak char then c.line + 1 else c.line
            split
            · exact Nat.le_succ _
            · exact Nat.le_refl _
          exact Nat.le_trans hpass (ih _)

theorem advance_cons (h : c.rest = char :: rest) (count : Nat) :
    c.advance (count + 1) = (c.pass char rest).advance count := by
  rw [advance, h]

theorem rest_advance (h : c.rest = word ++ rest) : (c.advance word.length).rest = rest := by
  induction word generalizing c with
  | nil => exact h
  | cons char word ih =>
      rw [List.length_cons, advance_cons h]
      exact ih rfl

/-- A word leads on in its line. -/
theorem advance_word (hword : ∀ char ∈ word, isInLine char = true) (h : c.rest = word ++ rest) :
    c.advance word.length = ⟨rest, c.index + word.length, c.line, c.column + word.length⟩ := by
  induction word generalizing c with
  | nil =>
      obtain ⟨text, index, line, column⟩ := c
      obtain rfl : text = rest := h
      rfl
  | cons char word ih =>
      obtain ⟨hchar, hword⟩ := List.forall_mem_cons.mp hword
      rw [List.length_cons, advance_cons h, pass_isInLine hchar, ih hword rfl]
      simp only [Nat.add_comm word.length 1, Nat.add_assoc]

theorem advanceTo_eq (h : c.rest = word ++ rest) : c.advanceTo rest = c.advance word.length := by
  rw [advanceTo, h, List.length_append, Nat.add_sub_cancel]

/-! ## Skipping -/

/-- Nothing is skipped before a token. -/
theorem skip_of_beginsToken (h : BeginsToken c.rest) : c.skip = c := by
  rw [skip]
  cases hrest : c.rest with
  | nil => rfl
  | cons char rest =>
      obtain ⟨hgap, hmark⟩ := h char (by rw [hrest]; rfl)
      obtain ⟨hblank, hbreak⟩ := Bool.or_eq_false_iff.mp hgap
      have hspace : (char == ' ') = false := (Bool.or_eq_false_iff.mp hblank).1
      rw [skipFrom, hbreak, hspace, beq_eq_false_iff_ne.mpr hmark]
      rfl

theorem skip_space (h : c.rest = ' ' :: rest) : c.skip = (c.pass ' ' rest).skip := by
  rw [skip, h, skipFrom]
  rfl

/-- The next line begins with a token. -/
theorem skip_lineFeed (h : c.rest = '\n' :: rest) (htoken : BeginsToken rest) :
    c.skip = ⟨rest, c.index + 1, c.line + 1, 0⟩ := by
  have hpass : c.skip = (c.pass '\n' rest).skip := by
    rw [skip, h, skipFrom]
    rfl
  rw [hpass, pass_lineFeed]
  exact skip_of_beginsToken htoken

end Cursor

end Deferral.Yaml
