/-
# Deferral.Proofs.Directive.Parts -- what the readers of parts take

The phrases of directives are made of words, blanks and numbers. For each of these parts this
module says which texts its reader accepts and what it leaves: blanks and digits are taken as
far as they go, of several words that do not begin each other the one that is spelled, and of
a bounded number the longest prefix that is admissible.
-/

import Deferral.Directive.Grammar
import Deferral.Proofs.Directive.Scanner
import Deferral.Proofs.Number.Digits
import Deferral.Proofs.Text.Caseless

namespace Deferral

variable {α : Type} {text rest : List Char}

/-! ## Runs of characters -/

section Runs

variable {p : Char → Bool}

/-- A run is as long as it can be if the text ends there or goes on with another character. -/
theorem takeWhile_dropWhile_iff {run : List Char} :
    text.takeWhile p = run ∧ text.dropWhile p = rest ↔
      text = run ++ rest ∧ (∀ c ∈ run, p c = true) ∧ ∀ c ∈ rest.head?, p c = false := by
  constructor
  · rintro ⟨rfl, rfl⟩
    refine ⟨List.takeWhile_append_dropWhile.symm, fun c => List.mem_takeWhile_imp, ?_⟩
    intro c hc
    have hhead := List.head?_dropWhile_not p text
    rw [hc] at hhead
    simpa using hhead
  · rintro ⟨rfl, hrun, hrest⟩
    rw [List.takeWhile_append_of_pos hrun, List.dropWhile_append_of_pos hrun]
    cases rest with
    | nil => exact ⟨List.append_nil run, rfl⟩
    | cons c rest =>
        have hc : ¬ p c = true := by simp [hrest c rfl]
        rw [List.takeWhile_cons_of_neg hc, List.dropWhile_cons_of_neg hc]
        exact ⟨List.append_nil run, rfl⟩

/-- A text whose ends are not to be dropped has nothing to strip. -/
theorem stripOf_of_ends (hfirst : ∀ c ∈ text.head?, p c = false)
    (hlast : ∀ c ∈ text.getLast?, p c = false) : stripOf p text = text := by
  have hdrop : ∀ {l : List Char}, (∀ c ∈ l.head?, p c = false) → l.dropWhile p = l :=
    fun h => (takeWhile_dropWhile_iff.mpr ⟨(List.nil_append _).symm, by simp, h⟩).2
  have hback : ∀ c ∈ text.reverse.head?, p c = false := by
    rw [List.head?_reverse]
    exact hlast
  rw [stripOf, hdrop hfirst, hdrop hback, List.reverse_reverse]

end Runs

/-! ## Blanks -/

/-- What separates two words: a blank, or several. -/
def IsGap (gap : List Char) : Prop := gap ≠ [] ∧ ∀ c ∈ gap, isBlank c = true

/-- Blanks are dropped up to the next other character. -/
theorem dropBlanks?_eq_some_iff :
    dropBlanks? text = some rest ↔
      ∃ gap, text = gap ++ rest ∧ IsGap gap ∧ ∀ c ∈ rest.head?, isBlank c = false := by
  have hdrop : dropBlanks? text = some rest ↔
      text.takeWhile isBlank ≠ [] ∧ text.dropWhile isBlank = rest := by
    cases text with
    | nil => simp [dropBlanks?]
    | cons c text =>
        rw [dropBlanks?]
        by_cases hc : isBlank c = true
        · simp [hc]
        · simp [hc]
  rw [hdrop]
  constructor
  · rintro ⟨hne, hrest⟩
    obtain ⟨htext, hblank, hhead⟩ := takeWhile_dropWhile_iff.mp ⟨rfl, hrest⟩
    exact ⟨_, htext, ⟨hne, hblank⟩, hhead⟩
  · rintro ⟨gap, htext, ⟨hne, hblank⟩, hhead⟩
    obtain ⟨htake, hrest⟩ := takeWhile_dropWhile_iff.mpr ⟨htext, hblank, hhead⟩
    exact ⟨htake.symm ▸ hne, hrest⟩

/-! ## Words -/

/-- No blank is a capital. -/
theorem lowerToAscii_of_isBlank {c : Char} (h : isBlank c = true) : lowerToAscii c = c := by
  have hcodes : ∀ code ∈ blankCodes, ¬ (0x41 ≤ code ∧ code ≤ 0x5A) ∧ code ≠ 0x212A := by decide
  obtain ⟨hcapital, hkelvin⟩ := hcodes c.toNat (List.contains_iff_mem.mp h)
  have hnot : ¬ ('A' ≤ c ∧ c ≤ 'Z') := hcapital
  rw [lowerToAscii, if_neg hnot, if_neg]
  rintro rfl
  exact hkelvin rfl

/-- A spelling of a word without blanks does not begin with one. -/
theorem not_blank_of_spells {word taken : List Char} (hword : word.all isWordLetter = true)
    (hne : word ≠ []) (hblank : word.any isBlank = false) (h : Spells word taken)
    (rest : List Char) : ∀ c ∈ (taken ++ rest).head?, isBlank c = false := by
  have hmap := (spells_iff_map hword).mp h
  cases taken with
  | nil => exact absurd hmap.symm hne
  | cons c taken =>
      have hmem : lowerToAscii c ∈ word := by
        rw [← hmap]
        exact List.mem_cons_self
      have hlower := List.any_eq_false.mp hblank _ hmem
      intro c' hc'
      cases hc'
      by_contra hc
      have hc : isBlank c = true := by simpa using hc
      rw [lowerToAscii_of_isBlank hc] at hlower
      exact hlower hc

/-- The word that is found is spelled. -/
theorem spells_of_dropOneOf? {words : List (List Char × α)}
    (hwords : ∀ word ∈ words, word.1.all isWordLetter = true) {value : α}
    (h : dropOneOf? words text = some (value, rest)) :
    ∃ word, (word, value) ∈ words ∧ ∃ taken, text = taken ++ rest ∧ Spells word taken := by
  obtain ⟨word, hmem, hdrop⟩ := List.exists_of_findSome?_eq_some h
  obtain ⟨rest', hrest, heq⟩ := Option.map_eq_some_iff.mp hdrop
  cases heq
  exact ⟨word.1, hmem, (dropWord?_eq_some_iff (hwords word hmem)).mp hrest⟩

/-- Of words none of which begins another one, that one is found which is spelled. -/
theorem dropOneOf?_eq_some_iff {words : List (List Char × α)}
    (hwords : ∀ word ∈ words, word.1.all isWordLetter = true)
    (hapart : ∀ a ∈ words, ∀ b ∈ words, a.1 <+: b.1 → a = b) {value : α} :
    dropOneOf? words text = some (value, rest) ↔
      ∃ word, (word, value) ∈ words ∧ ∃ taken, text = taken ++ rest ∧ Spells word taken := by
  refine ⟨spells_of_dropOneOf? hwords, ?_⟩
  rintro ⟨word, hmem, taken, htext, hspells⟩
  cases hfound : dropOneOf? words text with
  | none =>
      have hnone := List.findSome?_eq_none_iff.mp hfound _ hmem
      rw [htext, dropWord?_spelling (hwords _ hmem) hspells] at hnone
      cases hnone
  | some found =>
      obtain ⟨word', hmem', taken', htext', hspells'⟩ := spells_of_dropOneOf? hwords hfound
      -- Of two beginnings of one text the shorter begins the longer, and so do the words.
      have hsame : (word, value) = (word', found.1) := by
        have hmap := (spells_iff_map (hwords _ hmem)).mp hspells
        have hmap' := (spells_iff_map (hwords _ hmem')).mp hspells'
        rcases List.prefix_or_prefix_of_prefix ⟨rest, htext.symm⟩ ⟨found.2, htext'.symm⟩ with
          hbegins | hbegins
        · exact hapart _ hmem _ hmem' (hmap ▸ hmap' ▸ hbegins.map lowerToAscii)
        · exact (hapart _ hmem' _ hmem (hmap ▸ hmap' ▸ hbegins.map lowerToAscii)).symm
      cases hsame
      obtain ⟨-, rfl⟩ := List.append_inj (htext.symm.trans htext')
        (hspells.1.trans hspells'.1.symm)
      rfl

/-! ## Numbers -/

/-- One digit or more are taken up to the next other character. -/
theorem takeDigits?_eq_some_iff {digits : List Char} :
    takeDigits? text = some (digits, rest) ↔
      text = digits ++ rest ∧ digits ≠ [] ∧ (∀ c ∈ digits, c.isDigit = true) ∧
        ∀ c ∈ rest.head?, c.isDigit = false := by
  have htake : takeDigits? text = some (digits, rest) ↔
      digits ≠ [] ∧ text.takeWhile Char.isDigit = digits ∧ text.dropWhile Char.isDigit = rest := by
    rw [takeDigits?]
    split
    · next hempty =>
        constructor
        · intro h
          cases h
        · rintro ⟨hne, hdigits, -⟩
          exact absurd (hdigits.symm.trans (List.isEmpty_iff.mp hempty)) hne
    · next hempty =>
        rw [Option.some_inj, Prod.mk.injEq]
        constructor
        · rintro ⟨rfl, hrest⟩
          exact ⟨fun hnil => hempty (List.isEmpty_iff.mpr hnil), rfl, hrest⟩
        · exact And.right
  rw [htake, takeWhile_dropWhile_iff]
  tauto

theorem takeFixed?_eq_some_iff {width n : Nat} :
    takeFixed? width text = some (n, rest) ↔
      ∃ digits, text = digits ++ rest ∧ digits.length = width ∧
        (∀ c ∈ digits, c.isDigit = true) ∧ valueOfAscii digits = n := by
  rw [takeFixed?]
  constructor
  · intro h
    split at h
    · next hdigits =>
        cases h
        exact ⟨_, (List.take_append_drop width text).symm, hdigits.1,
          List.all_eq_true.mp hdigits.2, rfl⟩
    · cases h
  · rintro ⟨digits, rfl, rfl, hdigits, rfl⟩
    rw [List.take_left, List.drop_left, if_pos ⟨rfl, List.all_eq_true.mpr hdigits⟩]

/-- A bounded number at the beginning of a text is the one that a scanner takes there. -/
theorem takeBounded?_outcome {shortest : Nat} (hshortest : 0 < shortest) (maximum longest : Nat)
    (text : List Char) :
    (∃ digits, LongestAdmissible maximum shortest longest text digits ∧
        takeBounded? maximum shortest longest text =
          some (valueOfAscii digits, text.drop digits.length)) ∨
      (∀ digits, digits <+: text → ¬ Admissible maximum shortest longest digits) ∧
        takeBounded? maximum shortest longest text = none := by
  rw [takeBounded?]
  rcases Scanner.takeBounded_outcome hshortest maximum longest ⟨text, 0⟩ with
    ⟨digits, hdigits, heq⟩ | ⟨hnone, heq⟩
  · refine .inl ⟨digits, hdigits, ?_⟩
    rw [heq]
    simp only [Scanner.rest, Nat.zero_add]
  · refine .inr ⟨hnone, ?_⟩
    rw [heq]

/-- The longest admissible beginning is taken. -/
theorem takeBounded?_of_longest {maximum shortest longest : Nat} (hshortest : 0 < shortest)
    {digits : List Char} (h : LongestAdmissible maximum shortest longest text digits) :
    takeBounded? maximum shortest longest text =
      some (valueOfAscii digits, text.drop digits.length) := by
  rcases takeBounded?_outcome hshortest maximum longest text with ⟨taken, htaken, heq⟩ | ⟨hnone, -⟩
  · rw [h.unique htaken]
    exact heq
  · exact absurd h.admissible (hnone digits h.begins)

/-- A bounded number is the longest admissible beginning of the text. -/
theorem takeBounded?_eq_some_iff {maximum shortest longest n : Nat} (hshortest : 0 < shortest) :
    takeBounded? maximum shortest longest text = some (n, rest) ↔
      ∃ digits, text = digits ++ rest ∧ Admissible maximum shortest longest digits ∧
        valueOfAscii digits = n ∧
        ∀ other, other <+: text → Admissible maximum shortest longest other →
          other.length ≤ digits.length := by
  constructor
  · intro h
    rcases takeBounded?_outcome hshortest maximum longest text with
      ⟨taken, htaken, heq⟩ | ⟨-, heq⟩
    · rw [heq] at h
      cases h
      refine ⟨taken, ?_, htaken.admissible, rfl, htaken.length_le⟩
      exact List.prefix_iff_eq_append.mp htaken.begins |>.symm
    · rw [heq] at h
      cases h
  · rintro ⟨digits, rfl, hadmissible, rfl, hlongest⟩
    rw [takeBounded?_of_longest hshortest ⟨List.prefix_append digits rest, hadmissible, hlongest⟩,
      List.drop_left]

/-- There is no bounded number where no beginning of the text is admissible. -/
theorem takeBounded?_eq_none_iff {maximum shortest longest : Nat} (hshortest : 0 < shortest) :
    takeBounded? maximum shortest longest text = none ↔
      ∀ digits, digits <+: text → ¬ Admissible maximum shortest longest digits := by
  rcases takeBounded?_outcome hshortest maximum longest text with
    ⟨taken, htaken, heq⟩ | ⟨hnone, heq⟩
  · rw [heq]
    refine iff_of_false (by simp) fun hall => ?_
    exact hall taken htaken.begins htaken.admissible
  · exact iff_of_true heq hnone

/-- Two digits that are not too large are taken whole, whatever follows. -/
theorem takeBounded?_decimalFixed {maximum n : Nat} (hn : n < 100) (h : n ≤ maximum)
    (rest : List Char) :
    takeBounded? maximum 1 2 (decimalFixed 2 n ++ rest) = some (n, rest) := by
  have hlength : (decimalFixed 2 n).length = 2 := length_decimalFixed 2 n
  have hvalue : valueOfAscii (decimalFixed 2 n) = n := by
    rw [valueOfAscii_decimalFixed]
    exact Nat.mod_eq_of_lt hn
  refine (takeBounded?_eq_some_iff Nat.one_pos).mpr ⟨decimalFixed 2 n, rfl,
    ⟨fun _ hc => isDigit_of_mem_decimalFixed hc, by omega, by omega, ?_⟩, hvalue, ?_⟩
  · rw [hvalue]
    exact h
  · intro other _ hother
    rw [hlength]
    exact hother.le_longest

end Deferral
