/-
# Deferral.Proofs.Yaml.Alphabet -- the characters of documents

A document may not hold controls. Texts that do are written between quotation marks, where each
control stands as an escape, so that every scalar is written in characters that a document may
hold. Carriage returns are among the controls: no line of what is written ends in one.
-/

import Deferral.Proofs.Yaml.PlainScalars
import Deferral.Proofs.Yaml.QuotationMarks
import Deferral.Yaml.Reader

namespace Deferral.Yaml

/-! ## Single characters -/

section Characters

variable {c : Char}

theorem isAllowed_of_isOrdinary (h : isOrdinary c = true) : isAllowed c = true := by
  simp only [isOrdinary, Bool.or_eq_true, Bool.and_eq_true, beq_iff_eq, decide_eq_true_eq] at h
  simp only [isAllowed, Bool.or_eq_true, Bool.and_eq_true, beq_iff_eq, decide_eq_true_eq]
  tauto

theorem isAllowed_of_isSelf (h : isSelf c = true) : isAllowed c = true := by
  simp only [isSelf, Bool.or_eq_true, Bool.and_eq_true, decide_eq_true_eq] at h
  simp only [isAllowed, Bool.or_eq_true, Bool.and_eq_true, decide_eq_true_eq]
  tauto

theorem isAllowed_of_isHexDigit (h : isHexDigit c = true) : isAllowed c = true := by
  have hascii : ' ' ≤ c ∧ c ≤ '~' := by
    simp only [isHexDigit, Char.isDigit, Bool.or_eq_true, Bool.and_eq_true, decide_eq_true_eq] at h
    rcases h with (⟨hlow, hhigh⟩ | ⟨hlow, hhigh⟩) | ⟨hlow, hhigh⟩
    · exact ⟨Nat.le_trans (by decide) (show 48 ≤ c.toNat from hlow),
        Nat.le_trans (show c.toNat ≤ 57 from hhigh) (by decide)⟩
    · exact ⟨Char.le_trans (by decide) hlow, Char.le_trans hhigh (by decide)⟩
    · exact ⟨Char.le_trans (by decide) hlow, Char.le_trans hhigh (by decide)⟩
  simp only [isAllowed, decide_eq_true hascii.1, decide_eq_true hascii.2, Bool.and_true,
    Bool.or_true, Bool.true_or]

theorem ne_return_of_isAllowed (h : isAllowed c = true) : c ≠ '\r' := by
  rintro rfl
  exact absurd h (by decide)

end Characters

/-- Lines that end in line feeds are kept. -/
theorem unifyLines_of_isAllowed {text : List Char} (h : text.all isAllowed = true) :
    unifyLines text = text := by
  induction text with
  | nil => rfl
  | cons c rest ih =>
      obtain ⟨hc, hrest⟩ := Bool.and_eq_true_iff.mp h
      rw [unifyLines, ih hrest]
      · exact fun _ heq => absurd heq (ne_return_of_isAllowed hc)
      · exact ne_return_of_isAllowed hc

/-! ## What is written -/

section Written

variable {indent column : Nat} {folds : Bool} {previous : Option Char} {text : List Char}

theorem all_isAllowed_indentation : (indentation indent).all isAllowed = true :=
  List.all_eq_true.mpr fun c hc => by
    rw [List.eq_of_mem_replicate hc]
    decide

theorem isAllowed_lineFeed : isAllowed '\n' = true := by decide

theorem all_isAllowed_writePlain (h : text.all isAllowed = true) :
    (writePlain indent folds previous column text).all isAllowed = true := by
  induction text generalizing previous column with
  | nil => rfl
  | cons c rest ih =>
      obtain ⟨hc, hrest⟩ := Bool.and_eq_true_iff.mp h
      rw [writePlain]
      split
      · simp only [List.cons_append, List.all_cons, List.all_append, isAllowed_lineFeed,
          all_isAllowed_indentation, ih hrest, Bool.and_true]
      · rw [List.all_cons, hc, ih hrest, Bool.and_true]

theorem all_isAllowed_writeApostrophes (h : text.all isAllowed = true) :
    (writeApostrophes indent folds previous column text).all isAllowed = true := by
  have hmark : isAllowed '\x27' = true := by decide
  induction text generalizing previous column with
  | nil => rfl
  | cons c rest ih =>
      obtain ⟨hc, hrest⟩ := Bool.and_eq_true_iff.mp h
      rw [writeApostrophes]
      split
      · simp only [List.cons_append, List.all_cons, List.all_append, isAllowed_lineFeed,
          all_isAllowed_indentation, ih hrest, Bool.and_true]
      · split
        · have hfeed : (if (c == '\n' && !previous.any isBreak) = true then ['\n'] else []).all
              isAllowed = true := by
            split <;> decide
          have hnext : (if rest.head?.any isBreak then
              writeApostrophes indent folds (some c) 0 rest else indentation indent ++
                writeApostrophes indent folds (some c) indent rest).all isAllowed = true := by
            split
            · exact ih hrest
            · rw [List.all_append, all_isAllowed_indentation, ih hrest, Bool.and_true]
          rw [List.all_append, hfeed, List.all_cons, hc, hnext, Bool.and_true, Bool.and_true]
        · split
          · rw [List.all_cons, List.all_cons, hmark, ih hrest, Bool.and_true, Bool.and_true]
          · rw [List.all_cons, hc, ih hrest, Bool.and_true]

theorem all_isAllowed_escape (c : Char) : (escape c).all isAllowed = true := by
  have hcode : ∀ width n, (hexFixedFrom 'A' width n).all isAllowed = true := fun width n =>
    List.all_eq_true.mpr fun d hd =>
      isAllowed_of_isHexDigit (List.all_eq_true.mp (all_isHexDigit_hexFixedFrom width n) d hd)
  have hletters : letterEscapes.all (fun entry => isAllowed entry.2) = true := by decide
  have hbackslash : isAllowed '\\' = true := by decide
  rw [escape]
  split
  · next letter hletter =>
      rw [List.all_cons, List.all_cons, hbackslash,
        List.all_eq_true.mp hletters _ (mem_letterEscapes hletter)]
      rfl
  · rw [escapeCodeFrom]
    split
    · rw [List.all_cons, List.all_cons, hbackslash, hcode]
      rfl
    · split
      · rw [List.all_cons, List.all_cons, hbackslash, hcode]
        rfl
      · rw [List.all_cons, List.all_cons, hbackslash, hcode]
        rfl

theorem all_isAllowed_foldLine : (foldLine indent text).all isAllowed = true := by
  have hbackslash : isAllowed '\\' = true := by decide
  rw [foldLine, List.all_append, List.all_cons, List.all_cons, hbackslash, isAllowed_lineFeed,
    all_isAllowed_indentation]
  split <;> rfl

theorem all_isAllowed_writeQuotationMarks {first afterEscape : Bool} :
    (writeQuotationMarks indent folds first afterEscape column text).all isAllowed = true := by
  induction text generalizing first afterEscape column with
  | nil => rfl
  | cons c rest ih =>
      rw [writeQuotationMarks]
      dsimp only
      split
      · next hself =>
          split
          · rw [List.all_append, all_isAllowed_foldLine, List.all_cons, isAllowed_of_isSelf hself,
              ih]
            rfl
          · rw [List.all_cons, isAllowed_of_isSelf hself, ih]
            rfl
      · split
        · rw [List.all_append, List.all_append, all_isAllowed_escape, all_isAllowed_foldLine, ih]
          rfl
        · rw [List.all_append, all_isAllowed_escape, ih]
          rfl

/-- A scalar is written in characters that a document may hold. -/
theorem all_isAllowed_writeScalar {implicit asKey : Bool} :
    (writeScalar (styleOf implicit asKey text) indent column folds text).all isAllowed = true := by
  have hordinary : text.all isOrdinary = true → text.all isAllowed = true := fun h =>
    List.all_eq_true.mpr fun c hc => isAllowed_of_isOrdinary (List.all_eq_true.mp h c hc)
  rw [styleOf]
  split
  · next hplain =>
      simp only [allowsPlain, Bool.and_eq_true] at hplain
      exact all_isAllowed_writePlain (hordinary hplain.1.2.1.1.1.1.1)
  · split
    · next happly =>
        simp only [allowsApostrophes, Bool.and_eq_true] at happly
        rw [writeScalar, List.all_append, List.all_cons,
          all_isAllowed_writeApostrophes (hordinary happly.1.1)]
        decide
    · rw [writeScalar, List.all_append, List.all_cons, all_isAllowed_writeQuotationMarks]
      decide

end Written

end Deferral.Yaml
