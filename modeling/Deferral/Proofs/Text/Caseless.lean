/-
# Deferral.Proofs.Text.Caseless -- what it is to spell a word

A text spells a word if it has as many characters and is the word in lower case. The reader
of words compares character by character and knows only the capital letters of ASCII and
the Kelvin sign. This module says that it finds the same texts: a character that lowers to
several leaves too few for the others, and no other capital letter leads to ASCII.
-/

import Deferral.Text.Caseless
import Deferral.Text.Lower
import Mathlib.Tactic.Common

namespace Deferral

/-- A text spells a word: it has as many characters, and in lower case it is the word. -/
def Spells (word text : List Char) : Prop :=
  text.length = word.length ∧ lowerText text = word

/-- The characters that words of directives are made of. -/
def isWordLetter (w : Char) : Bool := 0 < w.toNat && w.toNat < 0x80

/-! ## Single characters -/

/-- A run of capital letters that leads to ASCII is that of the ASCII capitals or the Kelvin
sign. -/
theorem capitalRuns_ascii : ∀ run ∈ capitalRuns,
    run = (0x41, 0x5A, 1, 32) ∨ run = (0x212A, 0x212A, 1, -8383) ∨
      0x80 ≤ run.1 ∧ 0x80 ≤ (run.1 : Int) + run.2.2.2 := by
  decide +kernel

theorem toNat_of_ofNat_eq {n : Nat} {w : Char} (h : Char.ofNat n = w) (hw : 0 < w.toNat) :
    n = w.toNat := by
  by_cases hvalid : n.isValidChar
  · rw [Char.ofNat, dif_pos hvalid] at h
    subst h
    rfl
  · rw [Char.ofNat, dif_neg hvalid] at h
    subst h
    cases hw

/-- Small letters that are ASCII come from the capitals of ASCII or from the Kelvin sign, and
nothing else in ASCII has a small letter. -/
theorem smallCode?_ascii {code small : Nat} (h : smallCode? code = some small)
    (hascii : code < 0x80 ∨ small < 0x80) : 0x41 ≤ code ∧ code ≤ 0x5A ∨ code = 0x212A := by
  obtain ⟨⟨first, last, step, distance⟩, hfind, rfl⟩ := Option.map_eq_some_iff.mp h
  have hrange := List.find?_some hfind
  simp only [Bool.and_eq_true, decide_eq_true_eq] at hrange
  rcases capitalRuns_ascii _ (List.mem_of_find?_eq_some hfind) with hrun | hrun | ⟨hfirst, hsmall⟩
  · cases hrun
    exact Or.inl ⟨hrange.1.1, hrange.1.2⟩
  · cases hrun
    exact Or.inr (Nat.le_antisymm hrange.1.2 hrange.1.1)
  · dsimp only at hfirst hsmall hascii
    omega

theorem smallCode?_capital {code : Nat} (hA : 0x41 ≤ code) (hZ : code ≤ 0x5A) :
    smallCode? code = some (code + 32) := by
  have hin : (decide (0x41 ≤ code) && decide (code ≤ 0x5A) && (code - 0x41) % 1 == 0) = true := by
    simp [hA, hZ, Nat.mod_one]
  rw [smallCode?, capitalRuns, List.find?_cons]
  dsimp only
  rw [hin]
  exact congrArg some (Int.toNat_natCast (code + 32))

/-- The two ways to lower a single character agree on ASCII. -/
theorem lowerChar_eq_singleton_iff {c w : Char} (hw : isWordLetter w = true) :
    lowerChar c = [w] ↔ lowerToAscii c = w := by
  simp only [isWordLetter, Bool.and_eq_true, decide_eq_true_eq] at hw
  have hsingle : ∀ {a b : Char}, [a] = [b] ↔ a = b := by
    intro a b
    simp
  rw [lowerToAscii]
  split
  · next hcapital =>
      have hdotted : c ≠ '\u0130' := by
        rintro rfl
        exact absurd hcapital.2 (by decide)
      have hA : 0x41 ≤ c.toNat := hcapital.1
      have hZ : c.toNat ≤ 0x5A := hcapital.2
      rw [lowerChar, if_neg hdotted, smallCode?_capital hA hZ]
      exact hsingle
  · next hcapital =>
      split
      · next hkelvin =>
          subst hkelvin
          have hlower : lowerChar '\u212a' = ['k'] := by decide +kernel
          rw [hlower]
          exact hsingle
      · next hkelvin =>
          rw [lowerChar]
          split
          · next hdotted =>
              subst hdotted
              constructor
              · intro h
                cases h
              · rintro rfl
                exact absurd hw.2 (by decide)
          · split
            · next small hsmall =>
                have hnot : ¬ (c.toNat < 0x80 ∨ small < 0x80) := by
                  intro hascii
                  rcases smallCode?_ascii hsmall hascii with hin | hsign
                  · exact hcapital hin
                  · exact hkelvin (Char.toNat_inj.mp hsign)
                constructor
                · intro h
                  have hcode := toNat_of_ofNat_eq (hsingle.mp h) hw.1
                  omega
                · rintro rfl
                  exact absurd (Or.inl hw.2) hnot
            · exact hsingle

/-- What lowers to a character is that character, its capital or the Kelvin sign. -/
theorem lowerToAscii_cases {c w : Char} (h : lowerToAscii c = w) :
    c = w ∨ (c.toNat + 32 = w.toNat ∧ 0x41 ≤ c.toNat ∧ c.toNat ≤ 0x5A) ∨ w = 'k' := by
  rw [lowerToAscii] at h
  split at h
  · next hcapital =>
      have hA : 0x41 ≤ c.toNat := hcapital.1
      have hZ : c.toNat ≤ 0x5A := hcapital.2
      have hvalid : (c.toNat + 32).isValidChar := Or.inl (by omega)
      rw [Char.ofNat, dif_pos hvalid] at h
      exact Or.inr (Or.inl ⟨congrArg Char.toNat h, hA, hZ⟩)
  · split at h
    · exact Or.inr (Or.inr h.symm)
    · exact Or.inl h

/-- Nothing but the character itself lowers to one that is no small letter. -/
theorem eq_of_lowerToAscii {c w : Char} (h : lowerToAscii c = w)
    (hw : w.toNat < 0x61 ∨ 0x7A < w.toNat) : c = w := by
  rcases lowerToAscii_cases h with hc | ⟨hcode, hA, hZ⟩ | rfl
  · exact hc
  · omega
  · exact absurd hw (by decide)

/-! ## Whole texts -/

/-- What a character contributes to a text in lower case. -/
def lowerPiece (before : List Char) (c : Char) (rest : List Char) : List Char :=
  if c = '\u03a3' then [if meetsCased before && !meetsCased rest then '\u03c2' else '\u03c3']
  else lowerChar c

theorem lowerAfter_cons (before : List Char) (c : Char) (rest : List Char) :
    lowerAfter before (c :: rest) = lowerPiece before c rest ++ lowerAfter (c :: before) rest := rfl

theorem lowerChar_cases (c : Char) : (∃ x, lowerChar c = [x]) ∨ c = '\u0130' := by
  rw [lowerChar]
  split
  · next hdotted => exact Or.inr hdotted
  · split <;> exact Or.inl ⟨_, rfl⟩

/-- A character contributes one character, or it is the dotted capital, which contributes two. -/
theorem lowerPiece_cases (before : List Char) (c : Char) (rest : List Char) :
    (∃ x, lowerPiece before c rest = [x]) ∨
      c = '\u0130' ∧ (lowerPiece before c rest).length = 2 := by
  rw [lowerPiece]
  split
  · exact Or.inl ⟨_, rfl⟩
  · rcases lowerChar_cases c with hone | rfl
    · exact Or.inl hone
    · exact Or.inr ⟨rfl, rfl⟩

/-- No text gets shorter in lower case. -/
theorem length_le_lowerAfter (before text : List Char) :
    text.length ≤ (lowerAfter before text).length := by
  induction text generalizing before with
  | nil => exact Nat.le_refl 0
  | cons c rest ih =>
      have hrest := ih (c :: before)
      rw [lowerAfter_cons, List.length_append, List.length_cons]
      rcases lowerPiece_cases before c rest with ⟨x, hx⟩ | ⟨-, hx⟩
      · rw [hx, List.length_singleton]
        omega
      · omega

theorem lowerPiece_eq_singleton_iff {before rest : List Char} {c w : Char}
    (hw : isWordLetter w = true) : lowerPiece before c rest = [w] ↔ lowerToAscii c = w := by
  rw [lowerPiece]
  split
  · next hsigma =>
      have hascii : w.toNat < 0x80 := by
        simp only [isWordLetter, Bool.and_eq_true, decide_eq_true_eq] at hw
        exact hw.2
      subst hsigma
      constructor
      · intro h
        obtain rfl := (List.cons.inj h).1
        split at hascii <;> exact absurd hascii (by decide)
      · rintro rfl
        exact absurd hascii (by decide)
  · exact lowerChar_eq_singleton_iff hw

/-- A text of the length of a word is the word in lower case if its characters are, one by
one. -/
theorem lowerAfter_eq_iff {word : List Char} (hword : word.all isWordLetter = true)
    {text : List Char} (hlength : text.length = word.length) (before : List Char) :
    lowerAfter before text = word ↔ text.map lowerToAscii = word := by
  induction text generalizing word before with
  | nil =>
      cases word with
      | nil => exact Iff.rfl
      | cons w word => cases hlength
  | cons c rest ih =>
      cases word with
      | nil => cases hlength
      | cons w word =>
          obtain ⟨hw, hword⟩ := Bool.and_eq_true_iff.mp hword
          have hrest := Nat.succ.inj hlength
          rw [lowerAfter_cons, List.map_cons, List.cons_eq_cons, ← ih hword hrest (c :: before)]
          rcases lowerPiece_cases before c rest with ⟨x, hx⟩ | ⟨rfl, hx⟩
          · have hpiece : lowerPiece before c rest = [w] ↔ lowerToAscii c = w :=
              lowerPiece_eq_singleton_iff hw
            rw [hx, List.singleton_append, List.cons_eq_cons, ← hpiece, hx]
            simp
          · -- Two characters for one leave no room for the rest of the word.
            constructor
            · intro h
              have hsum := congrArg List.length h
              have hleast := length_le_lowerAfter ('\u0130' :: before) rest
              rw [List.length_append, hx, List.length_cons] at hsum
              omega
            · rintro ⟨rfl, -⟩
              exact absurd hw (by decide)

theorem spells_iff_map {word text : List Char} (hword : word.all isWordLetter = true) :
    Spells word text ↔ text.map lowerToAscii = word := by
  constructor
  · rintro ⟨hlength, hlower⟩
    exact (lowerAfter_eq_iff hword hlength []).mp hlower
  · intro h
    have hlength : text.length = word.length := by rw [← h, List.length_map]
    exact ⟨hlength, (lowerAfter_eq_iff hword hlength []).mpr h⟩

/-! ## Reading words -/

theorem dropWord?_eq_some_iff_map {word text rest : List Char} :
    dropWord? word text = some rest ↔
      ∃ taken, text = taken ++ rest ∧ taken.map lowerToAscii = word := by
  induction word generalizing text with
  | nil =>
      constructor
      · intro h
        cases h
        exact ⟨[], rfl, rfl⟩
      · rintro ⟨taken, rfl, htaken⟩
        rw [List.map_eq_nil_iff.mp htaken]
        rfl
  | cons w word ih =>
      cases text with
      | nil =>
          constructor
          · intro h
            cases h
          · rintro ⟨taken, hnil, htaken⟩
            obtain ⟨rfl, -⟩ := List.append_eq_nil_iff.mp hnil.symm
            cases htaken
      | cons c text =>
          rw [dropWord?]
          constructor
          · intro h
            split at h
            · next hc =>
                obtain ⟨taken, rfl, htaken⟩ := ih.mp h
                exact ⟨c :: taken, rfl, by rw [List.map_cons, hc, htaken]⟩
            · cases h
          · rintro ⟨taken, htext, htaken⟩
            cases taken with
            | nil => cases htaken
            | cons c' taken =>
                obtain ⟨rfl, rfl⟩ := List.cons.inj htext
                obtain ⟨hc, hrest⟩ := List.cons.inj htaken
                rw [if_pos hc]
                exact ih.mpr ⟨taken, rfl, hrest⟩

/-- The reader of a word finds exactly the texts that begin with a spelling of it. -/
theorem dropWord?_eq_some_iff {word text rest : List Char} (hword : word.all isWordLetter = true) :
    dropWord? word text = some rest ↔ ∃ taken, text = taken ++ rest ∧ Spells word taken := by
  rw [dropWord?_eq_some_iff_map]
  simp only [spells_iff_map hword]

theorem dropWord?_spelling {word taken : List Char} (hword : word.all isWordLetter = true)
    (h : Spells word taken) (rest : List Char) : dropWord? word (taken ++ rest) = some rest :=
  (dropWord?_eq_some_iff hword).mpr ⟨taken, rfl, h⟩

end Deferral
