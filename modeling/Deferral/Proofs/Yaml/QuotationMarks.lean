/-
# Deferral.Proofs.Yaml.QuotationMarks -- scalars between quotation marks

A text that is written between quotation marks is read back, whatever characters it has: each
that needs it is written as an escape, by a letter or by its code. A long line ends in a
backslash, so that its end does not count, and the next one begins with one if it goes on with a
space.
-/

import Deferral.Proofs.Number.Digits
import Deferral.Proofs.Yaml.Apostrophes

namespace Deferral

/-! ## Codes -/

theorem hexValue_hexDigitFrom {d : Nat} (h : d < 16) : hexValue (hexDigitFrom 'A' d) = d := by
  interval_cases d <;> decide

theorem isHexDigit_hexDigitFrom {d : Nat} (h : d < 16) :
    isHexDigit (hexDigitFrom 'A' d) = true := by
  interval_cases d <;> decide

theorem length_hexFixedFrom (first : Char) (width n : Nat) :
    (hexFixedFrom first width n).length = width := by
  induction width generalizing n with
  | zero => rfl
  | succ width ih => rw [hexFixedFrom, List.length_append, ih, List.length_singleton]

theorem all_isHexDigit_hexFixedFrom (width n : Nat) :
    (hexFixedFrom 'A' width n).all isHexDigit = true := by
  induction width generalizing n with
  | zero => rfl
  | succ width ih =>
      rw [hexFixedFrom, List.all_append, ih, List.all_cons, List.all_nil, Bool.and_true,
        isHexDigit_hexDigitFrom (Nat.mod_lt _ (by decide)), Bool.and_true]

/-- The digits of a code denote it, as far as they go. -/
theorem valueOfDigits_hexFixedFrom (width n : Nat) :
    valueOfDigits 16 ((hexFixedFrom 'A' width n).map hexValue) = n % 16 ^ width := by
  induction width generalizing n with
  | zero => rw [pow_zero, Nat.mod_one]; rfl
  | succ width ih =>
      have hconcat : ∀ digits d,
          valueOfDigits 16 (digits ++ [d]) = valueOfDigits 16 digits * 16 + d :=
        fun digits d => List.foldl_append
      rw [hexFixedFrom, List.map_append, List.map_singleton, hconcat, ih,
        hexValue_hexDigitFrom (Nat.mod_lt _ (by decide)), pow_succ, Nat.mul_comm (16 ^ width) 16,
        Nat.mod_mul]
      omega

namespace Yaml

theorem toNat_lt_codes (c : Char) : c.toNat < 0x110000 := by
  rcases c.valid with hlow | ⟨-, hhigh⟩
  · exact lt_trans hlow (by decide)
  · exact hhigh

theorem charOfCode_hexFixedFrom {c : Char} {width : Nat} (h : c.toNat < 16 ^ width) :
    charOfCode (hexFixedFrom 'A' width c.toNat) width = .ok c := by
  have hvalid : c.toNat.isValidChar := c.valid
  simp only [charOfCode, length_hexFixedFrom, all_isHexDigit_hexFixedFrom,
    valueOfDigits_hexFixedFrom, Nat.mod_eq_of_lt h, decide_true, Bool.and_true, if_true, hvalid,
    Char.ofNat_toNat]

/-! ## Reading -/

/-- With enough steps a reader of a scalar between quotation marks gives this content and rest. -/
def ReadsQuoted (state : QuotedState) (text content rest : List Char) : Prop :=
  ∀ fuel, text.length ≤ fuel → readQuotationMarks state fuel text = .ok (content, rest)

section Reading

variable {state : QuotedState} {c : Char} {text content rest : List Char}

theorem readsQuoted_cons
    (h : ∀ fuel, text.length ≤ fuel →
      readQuotationMarks state (fuel + 1) (c :: text) = .ok (content, rest)) :
    ReadsQuoted state (c :: text) content rest := by
  intro fuel hfuel
  cases fuel with
  | zero => cases hfuel
  | succ fuel => exact h fuel (Nat.le_of_succ_le_succ hfuel)

theorem readsQuoted_space (h : ReadsQuoted (state.afterBlank ' ') text content rest) :
    ReadsQuoted state (' ' :: text) content rest := by
  have hgap : isGap ' ' = true := by decide
  have hblank : isSpaceOrTab ' ' = true := by decide
  refine readsQuoted_cons fun fuel hfuel => ?_
  rw [readQuotationMarks.eq_def]
  simp only [atMarker_of_isGap hgap, Bool.and_false, Bool.false_eq_true, if_false, isBreak_space,
    hblank, if_true]
  exact h fuel hfuel

theorem readsQuoted_end (hline : state.atLineStart = false) :
    ReadsQuoted state ('\x22' :: rest) state.content rest := by
  have hbreak : isBreak '\x22' = false := by decide
  have hblank : isSpaceOrTab '\x22' = false := by decide
  refine readsQuoted_cons fun fuel _ => ?_
  rw [readQuotationMarks.eq_def]
  simp only [hline, hbreak, hblank, Bool.false_and, Bool.false_eq_true, if_false,
    beq_self_eq_true, if_true]

/-- A character that stands for itself. -/
theorem readsQuoted_taken (hline : state.atLineStart = false) (hself : isSelf c = true)
    (hspace : c ≠ ' ') (h : ReadsQuoted (.inLine []) text content rest) :
    ReadsQuoted state (c :: text) (state.content ++ c :: content) rest := by
  have hbreak : isBreak c = false := by
    refine Bool.eq_false_iff.mpr fun hbreak => ?_
    simp only [isBreak, Bool.or_eq_true, beq_iff_eq] at hbreak
    rcases hbreak with ((rfl | rfl) | rfl) | rfl <;> exact absurd hself (by decide)
  have hblank : isSpaceOrTab c = false := by
    rw [isSpaceOrTab, Bool.or_eq_false_iff, beq_eq_false_iff_ne, beq_eq_false_iff_ne]
    refine ⟨hspace, ?_⟩
    rintro rfl
    exact absurd hself (by decide)
  have hother : ∀ mark, isSelf mark = false → (c == mark) = false := by
    intro mark hmark
    refine beq_eq_false_iff_ne.mpr ?_
    rintro rfl
    exact Bool.noConfusion (hself.symm.trans hmark)
  have hmark := hother '\x22' (by decide)
  have hescape := hother '\\' (by decide)
  refine readsQuoted_cons fun fuel hfuel => ?_
  rw [readQuotationMarks.eq_def]
  simp only [hline, hbreak, hblank, hmark, hescape, Bool.false_and, Bool.false_eq_true, if_false,
    h fuel hfuel, before_ok, List.append_assoc, List.singleton_append]

/-- A backslash and what follows it. -/
theorem readQuotationMarks_backslash {e : Char} (fuel : Nat) :
    readQuotationMarks state (fuel + 1) ('\\' :: e :: text) =
      match escapes.lookup e, codeWidths.lookup e with
      | some meant, _ => before (state.content ++ [meant])
          (readQuotationMarks (.inLine []) fuel text)
      | none, some width => do
        let meant ← charOfCode (text.take width) width
        before (state.content ++ [meant]) (readQuotationMarks (.inLine []) fuel (text.drop width))
      | none, none =>
        if isBreak e then before state.content (readQuotationMarks (.atBreaks none []) fuel text)
        else .error .malformedDocument := by
  have hmarker : atMarker ('\\' :: e :: text) = false := rfl
  have hbreak : isBreak '\\' = false := by decide
  have hblank : isSpaceOrTab '\\' = false := by decide
  have hmark : ('\\' == '\x22') = false := by decide
  have hread := readQuotationMarks.eq_def state (fuel + 1) ('\\' :: e :: text)
  simp only [hmarker, hbreak, hblank, hmark, Bool.and_false, Bool.false_eq_true, if_false,
    beq_self_eq_true, if_true] at hread
  exact hread

theorem readsQuoted_letter {e : Char} (hletter : escapes.lookup e = some c)
    (h : ReadsQuoted (.inLine []) text content rest) :
    ReadsQuoted state ('\\' :: e :: text) (state.content ++ c :: content) rest := by
  refine readsQuoted_cons fun fuel hfuel => ?_
  have hlength : text.length ≤ fuel := Nat.le_of_succ_le hfuel
  rw [readQuotationMarks_backslash, hletter]
  simp only [h fuel hlength, before_ok, List.append_assoc, List.singleton_append]

theorem readsQuoted_code {e : Char} (width : Nat) (hletter : escapes.lookup e = none)
    (hwidth : codeWidths.lookup e = some width) (hcode : c.toNat < 16 ^ width)
    (h : ReadsQuoted (.inLine []) text content rest) :
    ReadsQuoted state ('\\' :: e :: (hexFixedFrom 'A' width c.toNat ++ text))
      (state.content ++ c :: content) rest := by
  refine readsQuoted_cons fun fuel hfuel => ?_
  have hlength : text.length ≤ fuel := by
    rw [List.length_cons, List.length_append] at hfuel
    omega
  rw [readQuotationMarks_backslash, hletter, hwidth]
  simp only [List.take_left' (length_hexFixedFrom 'A' width c.toNat),
    List.drop_left' (length_hexFixedFrom 'A' width c.toNat), charOfCode_hexFixedFrom hcode, ok_bind,
    h fuel hlength, before_ok, List.append_assoc, List.singleton_append]

/-- A line that ends in a backslash goes on in the next one. -/
theorem readsQuoted_fold (state : QuotedState)
    (h : ReadsQuoted (.inIndent none []) text content rest) {indent : Nat} (hindent : 0 < indent) :
    ReadsQuoted state ('\\' :: '\n' :: (indentation indent ++ text)) (state.content ++ content)
      rest := by
  have hindented : ∀ indent, ReadsQuoted (.inIndent none []) (indentation indent ++ text) content
      rest := by
    intro indent
    induction indent with
    | zero => exact h
    | succ indent ih => exact readsQuoted_space ih
  have hline : ReadsQuoted (.atBreaks none []) (indentation indent ++ text) content rest := by
    obtain ⟨indent, rfl⟩ := Nat.exists_eq_add_of_lt hindent
    rw [Nat.zero_add]
    exact readsQuoted_space (hindented indent)
  refine readsQuoted_cons fun fuel hfuel => ?_
  rw [readQuotationMarks_backslash]
  show before state.content (readQuotationMarks (.atBreaks none []) fuel _) = _
  rw [hline fuel (Nat.le_of_succ_le hfuel), before_ok]

/-- A letter that is found for a character stands beside it. -/
theorem mem_letterEscapes {letter : Char} (h : letterEscapes.lookup c = some letter) :
    (c, letter) ∈ letterEscapes := by
  obtain ⟨earlier, later, heq, -⟩ := List.lookup_eq_some_iff.mp h
  exact heq ▸ List.mem_append_right _ List.mem_cons_self

/-- The letters that are written are those that are read. -/
theorem escapes_lookup {letter : Char} (h : letterEscapes.lookup c = some letter) :
    escapes.lookup letter = some c := by
  have hall : letterEscapes.all (fun entry => escapes.lookup entry.2 == some entry.1) = true := by
    decide
  exact beq_iff_eq.mp (List.all_eq_true.mp hall _ (mem_letterEscapes h))

/-- An escape stands for its character. -/
theorem readsQuoted_escape (h : ReadsQuoted (.inLine []) text content rest) :
    ReadsQuoted state (escape c ++ text) (state.content ++ c :: content) rest := by
  rw [escape]
  split
  · next letter hletter => exact readsQuoted_letter (escapes_lookup hletter) h
  · rw [escapeCodeFrom]
    split
    · next hcode => exact readsQuoted_code 2 (by decide) (by decide) hcode h
    · split
      · next hcode => exact readsQuoted_code 4 (by decide) (by decide) hcode h
      · have hcode : c.toNat < 16 ^ 8 := lt_trans (toNat_lt_codes c) (by decide)
        exact readsQuoted_code 8 (by decide) (by decide) hcode h

end Reading

/-! ## There and back -/

section RoundTrip

variable {indent column : Nat} {first afterEscape : Bool} {c : Char} {rest tail : List Char}

theorem isSelf_space : isSelf ' ' = true := by decide

theorem foldedColumn_le (hindent : indent < lineWidth) : foldedColumn indent rest ≤ lineWidth := by
  rw [foldedColumn]
  split <;> omega

/-- In a short line a character that stands for itself is written without a fold. -/
theorem writeQuotationMarks_self (hself : isSelf c = true) (hcolumn : column ≤ lineWidth) :
    writeQuotationMarks indent true first afterEscape column (c :: rest) =
      c :: writeQuotationMarks indent true false false (column + 1) rest := by
  have hshort : ¬ lineWidth < column := Nat.not_lt.mpr hcolumn
  rw [writeQuotationMarks]
  simp only [hself, hshort, if_true, decide_false, Bool.and_false, Bool.false_eq_true, if_false]

/-- What the reader makes of a text in its line, and of one after a fold. -/
structure QuotesBack (indent : Nat) (tail text : List Char) : Prop where
  inLine : ∀ (blanks : List Char) (first afterEscape : Bool) (column : Nat),
    ReadsQuoted (.inLine blanks)
      (writeQuotationMarks indent true first afterEscape column text ++ '\x22' :: tail)
      (blanks ++ text) tail
  afterFold : ∀ (afterEscape : Bool) (column : Nat), column ≤ lineWidth →
    ReadsQuoted (.inIndent none [])
      ((if text.head? == some ' ' then ['\\'] else []) ++
        (writeQuotationMarks indent true false afterEscape column text ++ '\x22' :: tail))
      text tail

theorem quotesBack_nil : QuotesBack indent tail [] where
  inLine blanks _ _ _ := by
    rw [List.append_nil]
    exact readsQuoted_end rfl
  afterFold _ _ _ := readsQuoted_end rfl

/-- A line is folded, and the text goes on in the next one. -/
theorem QuotesBack.foldLine (h : QuotesBack indent tail rest) (hindent : 0 < indent)
    (hwidth : indent < lineWidth) (state : QuotedState) (afterEscape : Bool) :
    ReadsQuoted state (Yaml.foldLine indent rest ++
      (writeQuotationMarks indent true false afterEscape (foldedColumn indent rest) rest ++
        '\x22' :: tail)) (state.content ++ rest) tail := by
  have hread := readsQuoted_fold state
    (h.afterFold afterEscape (foldedColumn indent rest) (foldedColumn_le hwidth)) hindent
  rw [Yaml.foldLine, List.append_assoc, List.cons_append, List.cons_append]
  exact hread

/-- A character that needs an escape is read, and so is what follows it. -/
theorem QuotesBack.escaped (h : QuotesBack indent tail rest) (hindent : 0 < indent)
    (hwidth : indent < lineWidth) (hself : isSelf c = false) (state : QuotedState) :
    ReadsQuoted state
      (writeQuotationMarks indent true first afterEscape column (c :: rest) ++ '\x22' :: tail)
      (state.content ++ c :: rest) tail := by
  rw [writeQuotationMarks]
  simp only [hself, Bool.false_eq_true, if_false]
  split
  · rw [List.append_assoc, List.append_assoc]
    exact readsQuoted_escape (h.foldLine hindent hwidth (.inLine []) true)
  · rw [List.append_assoc]
    exact readsQuoted_escape (h.inLine [] false true _)

theorem QuotesBack.cons (h : QuotesBack indent tail rest) (hindent : 0 < indent)
    (hwidth : indent < lineWidth) : QuotesBack indent tail (c :: rest) := by
  have hfold : ∀ (afterEscape : Bool) (column : Nat), column ≤ lineWidth →
      ReadsQuoted (.inIndent none [])
        ((if (c :: rest).head? == some ' ' then ['\\'] else []) ++
          (writeQuotationMarks indent true false afterEscape column (c :: rest) ++
            '\x22' :: tail)) (c :: rest) tail := by
    intro afterEscape column hcolumn
    by_cases hspace : c = ' '
    · subst hspace
      rw [writeQuotationMarks_self isSelf_space hcolumn]
      exact readsQuoted_letter (by decide) (h.inLine [] false false _)
    · have hhead : ((c :: rest).head? == some ' ') = false :=
        beq_eq_false_iff_ne.mpr fun heq => hspace (Option.some.inj heq)
      rw [hhead]
      cases hself : isSelf c with
      | true =>
          rw [writeQuotationMarks_self hself hcolumn]
          exact readsQuoted_taken rfl hself hspace (h.inLine [] false false _)
      | false => exact h.escaped hindent hwidth hself (.inIndent none [])
  refine ⟨fun blanks first afterEscape column => ?_, hfold⟩
  cases hself : isSelf c with
  | false => exact h.escaped hindent hwidth hself (.inLine blanks)
  | true =>
      rw [writeQuotationMarks]
      simp only [hself, if_true]
      split
      · have hread := readsQuoted_fold (.inLine blanks)
          (hfold false (foldedColumn indent (c :: rest)) (foldedColumn_le hwidth)) hindent
        rw [writeQuotationMarks_self hself (foldedColumn_le hwidth)] at hread
        rw [Yaml.foldLine, List.append_assoc, List.cons_append, List.cons_append, List.append_assoc]
        exact hread
      · by_cases hspace : c = ' '
        · subst hspace
          have hread := h.inLine (blanks ++ [' ']) false false (column + 1)
          rw [List.append_assoc] at hread
          exact readsQuoted_space hread
        · exact readsQuoted_taken rfl hself hspace (h.inLine [] false false _)

/-- A text that is written between quotation marks is read back. -/
theorem readQuotationMarks_write (hindent : 0 < indent) (hwidth : indent < lineWidth)
    (text : List Char) :
    ReadsQuoted (.inLine [])
      (writeQuotationMarks indent true first afterEscape column text ++ '\x22' :: tail) text
      tail := by
  have hback : QuotesBack indent tail text := by
    induction text with
    | nil => exact quotesBack_nil
    | cons c rest ih => exact ih.cons hindent hwidth
  exact hback.inLine [] first afterEscape column

end RoundTrip

end Yaml

end Deferral
