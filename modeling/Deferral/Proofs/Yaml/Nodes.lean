/-
# Deferral.Proofs.Yaml.Nodes -- scalars that were written, as nodes

A scalar that was written after a key is read as a node: a plain one if it was written plain, and
else a quoted one, with the content that its reader gives. The node stands for the value that was
written. Only a text between apostrophes may have lost its next line controls.
-/

import Deferral.Proofs.Yaml.Numerals
import Deferral.Proofs.Yaml.Places
import Deferral.Proofs.Yaml.QuotationMarks
import Deferral.Yaml.Writer

namespace Deferral

namespace Yaml

/-- The text is written between apostrophes, from where no next line control comes back. -/
def losesNextLine (text : List Char) : Bool := text.contains nextLine && allowsApostrophes text

/-- What the node of a scalar may be. -/
inductive ReadAs (s : ScalarText) : Node → Prop
  | plain (h : (s.implicit && allowsPlain s.text) = true) : ReadAs s (.plain s.text)
  | quoted (h : (s.implicit && allowsPlain s.text) = false) (content : List Char)
    (kept : losesNextLine s.text = false → content = s.text)
    (lost : losesNextLine s.text = true → nextLine ∉ content) : ReadAs s (.quoted content)

/-! ## Reading in a block -/

section Inline

variable {fuel parent : Nat} {c : Cursor} {char : Char} {rest : List Char}

/-- A text begins with a scalar, at which nothing is skipped and no collection begins. -/
def BeginsScalar (text : List Char) : Prop := ∃ char rest, text = char :: rest ∧
  isGap char = false ∧ char ≠ '#' ∧ (isHalfIndicator char = true → atGap rest = false)

theorem BeginsScalar.beginsToken {text : List Char} (h : BeginsScalar text) : BeginsToken text := by
  obtain ⟨char, rest, rfl, hgap, hmark, -⟩ := h
  intro c hc
  cases hc
  exact ⟨hgap, hmark⟩

theorem BeginsScalar.atIndicator (h : BeginsScalar c.rest) {indicator : Char}
    (hhalf : isHalfIndicator indicator = true) : c.atIndicator indicator = false := by
  obtain ⟨char, rest, hrest, -, -, hgap⟩ := h
  rw [Cursor.atIndicator, hrest]
  dsimp only
  rw [Bool.and_eq_false_iff, beq_eq_false_iff_ne]
  by_cases hchar : char = indicator
  · exact Or.inr (hgap (hchar ▸ hhalf))
  · exact Or.inl hchar

theorem BeginsScalar.atEnd (h : BeginsScalar c.rest) (hcolumn : c.column ≠ 0) :
    c.atEnd = false := by
  obtain ⟨char, rest, hrest, -⟩ := h
  rw [Cursor.atEnd, hrest, beq_eq_false_iff_ne.mpr hcolumn]
  rfl

theorem BeginsPlain.beginsScalar (h : BeginsPlain char rest) : BeginsScalar (char :: rest) := by
  refine ⟨char, rest, rfl, h.gap, ?_, h.half⟩
  rintro rfl
  cases h.leading

/-- Each indicator is one that no plain scalar begins with, or only before a gap. -/
theorem isIndicator_cases {c : Char} (h : isIndicator c = true) :
    (isHalfIndicator c || isLeadingIndicator c) = true := by
  have hall : ['-', '?', ':', ',', '[', ']', '\x7b', '\x7d', '#', '&', '*', '!', '|', '>', '\x27',
      '\x22', '%', '@', '\x60'].all (fun c => isHalfIndicator c || isLeadingIndicator c) =
        true := by
    decide
  exact List.all_eq_true.mp hall c (List.contains_iff_mem.mp h)

theorem BeginsPlain.beginsPlain (h : BeginsPlain char rest) :
    Yaml.beginsPlain false (char :: rest) = true := by
  rw [Yaml.beginsPlain, h.gap]
  cases hhalf : isHalfIndicator char with
  | false =>
      have hindicator : isIndicator char = false := by
        refine Bool.eq_false_iff.mpr fun hindicator => ?_
        have hcases := isIndicator_cases hindicator
        rw [hhalf, h.leading] at hcases
        cases hcases
      rw [hindicator]
      rfl
  | true =>
      simp only [isHalfIndicator, Bool.or_assoc] at hhalf
      simp only [h.half (by simpa only [isHalfIndicator, Bool.or_assoc] using hhalf), hhalf,
        Bool.not_false, Bool.true_and, Bool.or_true]

/-- What begins with no exclamation mark has no mark of a type. -/
theorem not_isPrefixOf_of_ne (h : char ≠ '!') :
    (timestampMark ++ [' ']).isPrefixOf (char :: rest) = false := by
  have hmark : timestampMark ++ [' '] = '!' :: "!timestamp ".toList := by decide
  rw [hmark, List.isPrefixOf, beq_eq_false_iff_ne.mpr (Ne.symm h), Bool.false_and]

/-- What begins with no bracket and no mark is a scalar without a mark. -/
theorem readInline_unmarked (hrest : c.rest = char :: rest) (hlist : char ≠ '[')
    (hmap : char ≠ '\x7b') (hmark : char ≠ '!') :
    readInline (fuel + 1) parent c = readUnmarked false parent c := by
  have hscalar : readScalar false parent c = readUnmarked false parent c := by
    rw [readScalar, hrest, not_isPrefixOf_of_ne hmark, if_neg Bool.false_ne_true]
  rw [readInline, hrest]
  split
  · next heq => exact absurd (List.cons.inj heq).1 hlist
  · next heq => exact absurd (List.cons.inj heq).1 hmap
  · exact hscalar

theorem readInline_plain (hrest : c.rest = char :: rest) (h : BeginsPlain char rest) :
    readInline (fuel + 1) parent c =
      .ok (.plain (readPlain false parent (.inLine []) c.rest c.rest).1,
        c.advanceTo (readPlain false parent (.inLine []) c.rest c.rest).2) := by
  have hne : ∀ mark, isLeadingIndicator mark = true → char ≠ mark := by
    rintro mark hmark rfl
    exact Bool.noConfusion (hmark.symm.trans h.leading)
  rw [readInline_unmarked hrest (hne _ (by decide)) (hne _ (by decide)) (hne _ (by decide)),
    readUnmarked, hrest]
  split
  · next heq => exact absurd (List.cons.inj heq).1 (hne _ (by decide))
  · next heq => exact absurd (List.cons.inj heq).1 (hne _ (by decide))
  · rw [if_pos h.beginsPlain]

theorem readInline_apostrophes {content tail : List Char} (hrest : c.rest = '\x27' :: rest)
    (h : readApostrophes (.inLine []) rest = .ok (content, tail)) :
    readInline (fuel + 1) parent c = .ok (.quoted content, c.advanceTo tail) := by
  rw [readInline_unmarked hrest (by decide) (by decide) (by decide), readUnmarked, hrest]
  show (readApostrophes (.inLine []) rest >>= fun r =>
    pure (Node.quoted r.1, c.advanceTo r.2)) = _
  rw [h]
  rfl

theorem readInline_quotationMarks {content tail : List Char} (hrest : c.rest = '\x22' :: rest)
    (h : ReadsQuoted (.inLine []) rest content tail) :
    readInline (fuel + 1) parent c = .ok (.quoted content, c.advanceTo tail) := by
  rw [readInline_unmarked hrest (by decide) (by decide) (by decide), readUnmarked, hrest]
  show (readQuotationMarks (.inLine []) (rest.length + 1) rest >>= fun r =>
    pure (Node.quoted r.1, c.advanceTo r.2)) = _
  rw [h _ (Nat.le_succ _)]
  rfl

end Inline

/-! ## Scalars after keys -/

section Written

variable {s : ScalarText} {column : Nat} {c : Cursor} {tail : List Char}

theorem styleOf_value (implicit : Bool) (text : List Char) :
    styleOf implicit false text =
      if implicit && allowsPlain text then .plain
      else if allowsApostrophes text then .apostrophes
      else .quotationMarks := by
  simp only [styleOf, Bool.false_and, Bool.not_false, Bool.and_true]

/-- The text of a scalar as it is written after a key, from a column on. -/
def ScalarText.afterKey (s : ScalarText) (column : Nat) : List Char :=
  writeScalar (styleOf s.implicit false s.text) 2 column true s.text

theorem BeginsPlain.write {char : Char} {rest : List Char} (h : BeginsPlain char rest)
    (htail : EndsLine tail) :
    BeginsPlain char (writePlain 2 true (some char) column rest ++ tail) :=
  ⟨h.gap, h.leading, fun hhalf => (atGap_writePlain htail).trans (h.half hhalf)⟩

/-- A plain text keeps its first character. -/
theorem writePlain_of_allowsPlain {text : List Char} (column : Nat)
    (h : allowsPlain text = true) (hne : text ≠ []) (htail : EndsLine tail) : ∃ char rest,
      writePlain 2 true none column text ++ tail = char :: rest ∧ BeginsPlain char rest := by
  obtain ⟨char, rest, rfl⟩ := List.exists_cons_of_ne_nil hne
  have hbegins := beginsPlain_of_allowsPlain h
  have hspace : char ≠ ' ' := by
    rintro rfl
    cases hbegins.gap
  rw [writePlain_taken hspace]
  exact ⟨char, _, rfl, hbegins.write htail⟩

theorem beginsScalar_afterKey (hne : s.implicit = true → s.text ≠ []) (htail : EndsLine tail) :
    BeginsScalar (s.afterKey column ++ tail) := by
  rw [ScalarText.afterKey, styleOf_value]
  split
  · next hplain =>
      obtain ⟨himplicit, hplain⟩ := Bool.and_eq_true_iff.mp hplain
      obtain ⟨char, rest, hwrite, hbegins⟩ :=
        writePlain_of_allowsPlain column hplain (hne himplicit) htail
      rw [writeScalar, hwrite]
      exact hbegins.beginsScalar
  · split
    · exact ⟨'\x27', _, rfl, by decide, by decide, fun h => absurd h (by decide)⟩
    · exact ⟨'\x22', _, rfl, by decide, by decide, fun h => absurd h (by decide)⟩

/-- A scalar that was written after a key is read up to the end of its line. -/
theorem readInline_afterKey (fuel : Nat) (hrest : c.rest = s.afterKey column ++ tail)
    (hne : s.implicit = true → s.text ≠ []) (htail : EndsLine tail) :
    ∃ node, readInline (fuel + 1) 1 c = .ok (node, c.advanceTo tail) ∧ ReadAs s node := by
  rw [ScalarText.afterKey, styleOf_value] at hrest
  split at hrest
  · next hplain =>
      obtain ⟨himplicit, hallowed⟩ := Bool.and_eq_true_iff.mp hplain
      obtain ⟨char, rest, hwrite, hbegins⟩ :=
        writePlain_of_allowsPlain column hallowed (hne himplicit) htail
      have hread := readPlain_write (show 0 < 1 by decide) (show 1 ≤ 2 by decide) htail
        hallowed (hne himplicit) column
      rw [writeScalar] at hrest
      refine ⟨.plain s.text, ?_, .plain hplain⟩
      rw [readInline_plain (hrest.trans hwrite) hbegins, hrest, hread]
  · next hplain =>
      have hmark : tail.head? ≠ some '\x27' := by
        obtain ⟨next, rfl, -⟩ := htail
        exact fun heq => absurd (Option.some.inj heq) (by decide)
      have hplain : (s.implicit && allowsPlain s.text) = false := Bool.eq_false_iff.mpr hplain
      split at hrest
      · next hallowed =>
          obtain ⟨content, hread, hkept⟩ := readApostrophes_write (show 0 < 2 by decide) hmark
            hallowed (column + 1)
          have hlost := nextLine_not_mem_of_readApostrophes hread List.not_mem_nil
          rw [writeScalar, List.append_assoc, List.cons_append, List.singleton_append] at hrest
          refine ⟨.quoted content, readInline_apostrophes hrest hread, .quoted hplain content ?_ ?_⟩
          · intro hloses
            refine hkept fun hmem => ?_
            rw [losesNextLine, hallowed, List.contains_iff_mem.mpr hmem] at hloses
            cases hloses
          · exact fun _ => hlost
      · next hallowed =>
          rw [writeScalar, List.append_assoc, List.cons_append, List.singleton_append] at hrest
          refine ⟨.quoted s.text, readInline_quotationMarks hrest
            (readQuotationMarks_write (by decide) (by decide) s.text), .quoted hplain _ ?_ ?_⟩
          · exact fun _ => rfl
          · intro hloses
            exact absurd (Bool.and_eq_true_iff.mp hloses).2 hallowed

end Written

end Yaml

/-! ## What the nodes stand for -/

namespace Value

/-- The value is null, a truth value, an integer or a text. -/
def isBasic : Value → Bool
  | null | bool _ | int _ | text _ => true
  | _ => false

/-- The value is a text that is written between apostrophes, from where no next line control
comes back. -/
def losesNextLine : Value → Bool
  | text s => Yaml.losesNextLine s.toList
  | _ => false

/-- The result is the value as it comes back from a document. -/
structure ComesBackAs (value result : Value) : Prop where
  kept : value.losesNextLine = false → result = value
  lost : value.losesNextLine = true → ∃ s : String, result = .text s ∧ Yaml.nextLine ∉ s.toList

theorem comesBackAs_self {value : Value} (h : value.losesNextLine = false) :
    value.ComesBackAs value :=
  ⟨fun _ => rfl, fun hlost => Bool.noConfusion (hlost.symm.trans h)⟩

end Value

namespace Yaml

section Meaning

variable {value : Value} {s : ScalarText}

/-- A text that may be written plain has no next line control. -/
theorem nextLine_not_mem_of_allowsPlain {text : List Char} (h : allowsPlain text = true) :
    nextLine ∉ text := by
  simp only [allowsPlain, Bool.and_eq_true, Bool.not_eq_true'] at h
  exact fun hmem => List.any_eq_false.mp h.1.1.1.1.2 nextLine hmem (by decide)

theorem losesNextLine_of_allowsPlain {text : List Char} (h : allowsPlain text = true) :
    losesNextLine text = false := by
  have hnone : text.contains nextLine = false := Bool.eq_false_iff.mpr fun hmem =>
    nextLine_not_mem_of_allowsPlain h (List.contains_iff_mem.mp hmem)
  rw [losesNextLine, hnone, Bool.false_and]

/-- A text loses its next line controls exactly if it has some and is written between
apostrophes. -/
theorem losesNextLine_iff {text : List Char} (implicit : Bool) :
    losesNextLine text = true ↔ nextLine ∈ text ∧ styleOf implicit false text = .apostrophes := by
  rw [losesNextLine, Bool.and_eq_true, List.contains_iff_mem, and_congr_right_iff]
  intro hmem
  have hplain : allowsPlain text = false := by
    refine Bool.eq_false_iff.mpr fun hplain => ?_
    exact nextLine_not_mem_of_allowsPlain hplain hmem
  rw [styleOf_value, hplain, Bool.and_false, if_neg Bool.false_ne_true]
  split
  · next h => exact ⟨fun _ => rfl, fun _ => h⟩
  · next h => exact ⟨fun hallowed => absurd hallowed h, fun heq => by cases heq⟩

/-- The empty text is none of those that stand for themselves. -/
theorem text_ne_nil (hs : scalarText? value = .ok (some s)) (hbasic : value.isBasic = true)
    (himplicit : s.implicit = true) : s.text ≠ [] := by
  cases value with
  | null =>
      cases hs
      exact List.cons_ne_nil _ _
  | bool b =>
      cases hs
      cases b <;> exact List.cons_ne_nil _ _
  | int n =>
      obtain ⟨digits, hdigits, hs⟩ := map_eq_ok hs
      cases hs
      rw [numeral_eq_ok hdigits]
      exact decimalInt_ne_nil n
  | text t =>
      cases hs
      intro hnil
      have hspecial : isSpecial [] = true := by decide
      rw [show t.toList = [] from hnil, hspecial] at himplicit
      cases himplicit
  | _ => cases hbasic

/-- No mark is written before a basic value. -/
theorem writtenMark_eq_nil (hs : scalarText? value = .ok (some s)) (hbasic : value.isBasic = true) :
    s.writtenMark = [] := by
  cases value with
  | null =>
      cases hs
      rfl
  | bool b =>
      cases hs
      rfl
  | int n =>
      obtain ⟨digits, -, hs⟩ := map_eq_ok hs
      cases hs
      rfl
  | text t =>
      cases hs
      rw [ScalarText.writtenMark, beq_self_eq_true, Bool.or_true]
      rfl
  | _ => cases hbasic

/-- A word that stands for a value is written plain, and it is read as the value. -/
theorem meaning_of_special {node : Node} (hread : ReadAs s node) (himplicit : s.implicit = true)
    (hplain : allowsPlain s.text = true) (hspecial : special? s.text = some (.ok value)) :
    node.meaning = .ok value := by
  cases hread with
  | plain _ => rw [Node.meaning, plainValue, hspecial]; rfl
  | quoted h => rw [himplicit, hplain] at h; cases h

/-- The node of a basic value stands for the value as it comes back. -/
theorem meaning_of_readAs {node : Node} (hs : scalarText? value = .ok (some s))
    (hbasic : value.isBasic = true) (hread : ReadAs s node) :
    ∃ result, node.meaning = .ok result ∧ value.ComesBackAs result := by
  cases value with
  | null =>
      cases hs
      exact ⟨_, meaning_of_special hread rfl (by decide) rfl, Value.comesBackAs_self rfl⟩
  | bool b =>
      cases hs
      refine ⟨.bool b, meaning_of_special hread rfl ?_ ?_, Value.comesBackAs_self rfl⟩
      · cases b <;> decide
      · cases b <;> rfl
  | int n =>
      obtain ⟨digits, hdigits, hs⟩ := map_eq_ok hs
      cases hs
      have hplain : allowsPlain digits = true := by
        rw [numeral_eq_ok hdigits]
        exact allowsPlain_decimalInt n
      exact ⟨_, meaning_of_special hread rfl hplain (special?_numeral hdigits),
        Value.comesBackAs_self rfl⟩
  | text t =>
      cases hs
      cases hread with
      | plain h =>
          obtain ⟨hspecial, hplain⟩ := Bool.and_eq_true_iff.mp h
          refine ⟨.text t, ?_, Value.comesBackAs_self (losesNextLine_of_allowsPlain hplain)⟩
          have hnone : special? t.toList = none := by
            rw [← Option.not_isSome_iff_eq_none]
            simpa only [isSpecial, Bool.not_eq_true', Bool.not_eq_true] using hspecial
          rw [Node.meaning, plainValue, hnone, Option.getD_none, String.ofList_toList]
          rfl
      | quoted _ content kept lost =>
          refine ⟨.text (String.ofList content), rfl, fun hkept => ?_, fun hlost => ?_⟩
          · rw [kept hkept, String.ofList_toList]
          · refine ⟨_, rfl, ?_⟩
            rw [String.toList_ofList]
            exact lost hlost
  | _ => cases hbasic

end Meaning

end Yaml

end Deferral
