/-
# Deferral.Proofs.Yaml.Apostrophes -- scalars between apostrophes

A text that is written between apostrophes is read back. Long lines were folded at a single space,
which the reader makes of the fold again. Of several line breaks a reader drops the first one, if
it is a line feed, so this one was written twice. Only the next line control does not come back:
it is read as a line feed, and so it gets lost like one.
-/

import Deferral.Proofs.Failure.Chain
import Deferral.Yaml.Style

namespace Deferral.Yaml

/-- The next line control, which is read as a line feed. -/
def nextLine : Char := '\u0085'

/-- Line breaks between a text that went before and one that goes on. -/
def glueBreaks (first : Char) (more rest : List Char) : List Char :=
  foldBreaks first (more ++ rest.takeWhile isBreak) ++ rest.dropWhile isBreak

/-! ## Single characters -/

section Classes

variable {c : Char} {rest : List Char}

theorem isBreak_space : isBreak ' ' = false := by decide

theorem isSpaceOrTab_of_isOrdinary (h : isOrdinary c = true) (hc : c ≠ ' ') :
    isSpaceOrTab c = false := by
  refine Bool.eq_false_iff.mpr fun hblank => ?_
  rcases Bool.or_eq_true _ _ ▸ hblank with hspace | htab
  · exact hc (beq_iff_eq.mp hspace)
  · rw [beq_iff_eq.mp htab] at h
    exact absurd h (by decide)

/-- A mark between documents begins with a hyphen or a point. -/
theorem atMarker_of_ne (hhyphen : c ≠ '-') (hpoint : c ≠ '.') : atMarker (c :: rest) = false := by
  unfold atMarker
  split
  · next heq => exact absurd (List.cons.inj heq).1 hhyphen
  · next heq => exact absurd (List.cons.inj heq).1 hpoint
  · rfl

theorem atMarker_of_isGap (h : isGap c = true) : atMarker (c :: rest) = false := by
  refine atMarker_of_ne ?_ ?_
  · rintro rfl
    exact absurd h (by decide)
  · rintro rfl
    exact absurd h (by decide)

theorem readBreak_of_ne (h : c ≠ nextLine) : readBreak c = c :=
  if_neg fun heq => h (beq_iff_eq.mp heq)

end Classes

theorem isGap_of_isBreak {c : Char} (h : isBreak c = true) : isGap c = true := by
  rw [isGap, h, Bool.or_true]

theorem before_ok (content text rest : List Char) :
    before content (.ok (text, rest)) = .ok (content ++ text, rest) := rfl

theorem before_before (first second : List Char)
    (result : Except Failure (List Char × List Char)) :
    before first (before second result) = before (first ++ second) result := by
  cases result with
  | error failure => rfl
  | ok r => rw [before_ok, before_ok, before_ok, List.append_assoc]

/-! ## Reading -/

section Reading

variable {state : QuotedState} {c : Char} {rest : List Char}

theorem readApostrophes_break (h : isBreak c = true) :
    readApostrophes state (c :: rest) = readApostrophes (state.afterBreak c) rest := by
  rw [readApostrophes.eq_def]
  simp only [atMarker_of_isGap (isGap_of_isBreak h), Bool.and_false, Bool.false_eq_true, if_false,
    h, if_true]

theorem readApostrophes_space :
    readApostrophes state (' ' :: rest) = readApostrophes (state.afterBlank ' ') rest := by
  have hgap : isGap ' ' = true := by decide
  have hblank : isSpaceOrTab ' ' = true := by decide
  rw [readApostrophes.eq_def]
  simp only [atMarker_of_isGap hgap, Bool.and_false, Bool.false_eq_true, if_false, isBreak_space,
    hblank, if_true]

/-- What stands before a character that is taken comes before the rest. -/
theorem readApostrophes_resume (hline : state.atLineStart = false) (hbreak : isBreak c = false)
    (hblank : isSpaceOrTab c = false) :
    readApostrophes state (c :: rest) =
      before state.content (readApostrophes (.inLine []) (c :: rest)) := by
  have hstart : (QuotedState.inLine []).atLineStart = false := rfl
  have hempty : (QuotedState.inLine []).content = [] := rfl
  rw [readApostrophes.eq_def, readApostrophes.eq_def (.inLine [])]
  simp only [hline, hstart, hbreak, hblank, hempty, Bool.false_and, Bool.false_eq_true, if_false,
    List.nil_append]
  split
  · split
    · rw [before_before]
    · rw [before_ok, List.append_nil]
  · rw [before_before]

theorem readApostrophes_taken (hbreak : isBreak c = false) (hblank : isSpaceOrTab c = false)
    (hmark : c ≠ '\x27') :
    readApostrophes (.inLine []) (c :: rest) = before [c] (readApostrophes (.inLine []) rest) := by
  have hstart : (QuotedState.inLine []).atLineStart = false := rfl
  have hempty : (QuotedState.inLine []).content = [] := rfl
  rw [readApostrophes.eq_def]
  simp only [hstart, hbreak, hblank, hempty, beq_eq_false_iff_ne.mpr hmark, Bool.false_and,
    Bool.false_eq_true, if_false, List.nil_append]

theorem readApostrophes_twice :
    readApostrophes (.inLine []) ('\x27' :: '\x27' :: rest) =
      before ['\x27'] (readApostrophes (.inLine []) rest) := by
  rw [readApostrophes.eq_def]
  rfl

theorem readApostrophes_end (h : rest.head? ≠ some '\x27') :
    readApostrophes (.inLine []) ('\x27' :: rest) = .ok ([], rest) := by
  cases rest with
  | nil => rfl
  | cons c rest =>
      rw [readApostrophes.eq_def]
      have hstart : (QuotedState.inLine []).atLineStart = false := rfl
      have hbreak : isBreak '\x27' = false := by decide
      have hblank : isSpaceOrTab '\x27' = false := by decide
      simp only [hstart, hbreak, hblank, Bool.false_and, Bool.false_eq_true, if_false,
        beq_self_eq_true, if_true]
      split
      · next heq =>
          cases heq
          exact absurd rfl h
      · rfl

/-- The blanks at the beginning of a line are passed. -/
theorem readApostrophes_inIndent {first : Option Char} {more : List Char} (indent : Nat) :
    readApostrophes (.inIndent first more) (indentation indent ++ rest) =
      readApostrophes (.inIndent first more) rest := by
  induction indent with
  | zero => rfl
  | succ indent ih =>
      rw [indentation, List.replicate_succ, List.cons_append, readApostrophes_space]
      exact ih

theorem readApostrophes_indentation {first : Option Char} {more : List Char} {indent : Nat}
    (h : 0 < indent) :
    readApostrophes (.atBreaks first more) (indentation indent ++ rest) =
      readApostrophes (.inIndent first more) rest := by
  obtain ⟨indent, rfl⟩ := Nat.exists_eq_add_of_lt h
  rw [Nat.zero_add, indentation, List.replicate_succ, List.cons_append, readApostrophes_space]
  exact readApostrophes_inIndent indent

end Reading

/-! ## There and back -/

section RoundTrip

variable {indent : Nat} {tail : List Char}

/-- What is written after a line break: more breaks, or an indented line. -/
def writeAfterBreak (indent : Nat) (previous : Char) (text : List Char) : List Char :=
  if text.head?.any isBreak then writeApostrophes indent true (some previous) 0 text
  else indentation indent ++ writeApostrophes indent true (some previous) indent text

theorem hasSpaceAtBreak_cons_cons {c d : Char} {rest : List Char}
    (h : hasSpaceAtBreak (c :: d :: rest) = false) :
    ¬ (c = ' ' ∧ isBreak d = true) ∧ ¬ (isBreak c = true ∧ d = ' ') ∧
      hasSpaceAtBreak (d :: rest) = false := by
  simp only [hasSpaceAtBreak, Bool.or_eq_false_iff, Bool.and_eq_false_iff, beq_eq_false_iff_ne] at h
  obtain ⟨⟨hfirst, hsecond⟩, hrest⟩ := h
  refine ⟨?_, ?_, hrest⟩
  · rintro ⟨hc, hd⟩
    rcases hfirst with hne | hbreak
    · exact hne hc
    · rw [hd] at hbreak
      cases hbreak
  · rintro ⟨hc, hd⟩
    rcases hsecond with hbreak | hne
    · rw [hc] at hbreak
      cases hbreak
    · exact hne hd

/-- What the reader makes of a text in its line, and of one after line breaks. -/
structure ReadsBack (indent : Nat) (tail text : List Char) : Prop where
  inLine : ∀ (blanks : List Char) (previous : Option Char) (column : Nat),
    hasSpaceAtBreak (previous.toList ++ text) = false →
    (previous.any isBreak = true → text.head?.any isBreak = false) →
    (blanks ≠ [] → previous = some ' ') →
    ∃ content, readApostrophes (.inLine blanks)
        (writeApostrophes indent true previous column text ++ '\x27' :: tail) =
          .ok (content, tail) ∧
      (nextLine ∉ text → content = blanks ++ text)
  afterBreak : ∀ (previous first : Char) (more : List Char), isBreak previous = true →
    hasSpaceAtBreak (previous :: text) = false →
    ∃ content, readApostrophes (.atBreaks (some first) more)
        (writeAfterBreak indent previous text ++ '\x27' :: tail) = .ok (content, tail) ∧
      (nextLine ∉ text → content = glueBreaks first more text)

theorem readsBack_nil (hindent : 0 < indent) (htail : tail.head? ≠ some '\x27') :
    ReadsBack indent tail [] where
  inLine blanks previous column _ _ _ := by
    refine ⟨blanks, ?_, fun _ => (List.append_nil _).symm⟩
    show readApostrophes (.inLine blanks) ('\x27' :: tail) = _
    rw [readApostrophes_resume rfl (by decide) (by decide), readApostrophes_end htail]
    exact before_ok ..  |>.trans (by rw [List.append_nil]; rfl)
  afterBreak previous first more _ _ := by
    refine ⟨foldBreaks first more, ?_, fun _ => ?_⟩
    · show readApostrophes _ (indentation indent ++ [] ++ '\x27' :: tail) = _
      rw [List.append_nil, readApostrophes_indentation hindent,
        readApostrophes_resume rfl (by decide) (by decide), readApostrophes_end htail, before_ok,
        List.append_nil]
      rfl
    · rw [glueBreaks, List.takeWhile_nil, List.dropWhile_nil, List.append_nil, List.append_nil]

variable {previous : Option Char} {column : Nat} {c : Char} {rest : List Char}

theorem writeApostrophes_break (h : isBreak c = true) :
    writeApostrophes indent true previous column (c :: rest) =
      (if c == '\n' && !previous.any isBreak then ['\n'] else []) ++
        c :: writeAfterBreak indent c rest := by
  have hspace : ¬ c = ' ' := by
    rintro rfl
    cases h
  simp only [writeApostrophes, beq_eq_false_iff_ne.mpr hspace, Bool.false_and, Bool.false_eq_true,
    if_false, h, if_true, writeAfterBreak]

theorem writeApostrophes_space :
    writeApostrophes indent true previous column (' ' :: rest) =
      if foldsBetween previous rest && lineWidth < column then
        '\n' :: indentation indent ++ writeApostrophes indent true (some ' ') indent rest
      else ' ' :: writeApostrophes indent true (some ' ') (column + 1) rest := by
  rw [writeApostrophes]
  simp only [beq_self_eq_true, Bool.true_and, isBreak_space, Bool.false_eq_true, if_false]
  rfl

theorem writeApostrophes_mark :
    writeApostrophes indent true previous column ('\x27' :: rest) =
      '\x27' :: '\x27' :: writeApostrophes indent true (some '\x27') (column + 2) rest := by
  rw [writeApostrophes]
  rfl

theorem writeApostrophes_other (hspace : c ≠ ' ') (hbreak : isBreak c = false)
    (hmark : c ≠ '\x27') :
    writeApostrophes indent true previous column (c :: rest) =
      c :: writeApostrophes indent true (some c) (column + 1) rest := by
  rw [writeApostrophes]
  simp only [beq_eq_false_iff_ne.mpr hspace, beq_eq_false_iff_ne.mpr hmark, hbreak, Bool.false_and,
    Bool.false_eq_true, if_false]

/-- A character of a line is written at its beginning. -/
theorem exists_writeApostrophes_cons (indent : Nat) (previous : Option Char) (column : Nat)
    (rest : List Char) (hspace : c ≠ ' ') (hbreak : isBreak c = false) :
    ∃ written, writeApostrophes indent true previous column (c :: rest) = c :: written := by
  by_cases hmark : c = '\x27'
  · subst hmark
    exact ⟨_, writeApostrophes_mark⟩
  · exact ⟨_, writeApostrophes_other hspace hbreak hmark⟩

/-- A line break is read, and so is what follows it. -/
theorem ReadsBack.inLine_break (ih : ReadsBack indent tail rest) (hbreak : isBreak c = true)
    (hspaces : hasSpaceAtBreak (c :: rest) = false) (hprevious : previous.any isBreak = false) :
    ∃ content, readApostrophes (.inLine [])
        (writeApostrophes indent true previous column (c :: rest) ++ '\x27' :: tail) =
          .ok (content, tail) ∧
      (nextLine ∉ c :: rest → content = c :: rest) := by
  rw [writeApostrophes_break hbreak, hprevious]
  by_cases hfeed : c = '\n'
  · subst hfeed
    obtain ⟨content, hread, hcontent⟩ := ih.afterBreak '\n' '\n' ['\n'] hbreak hspaces
    refine ⟨content, ?_, fun hnext => ?_⟩
    · show readApostrophes (.inLine [])
        ('\n' :: '\n' :: (writeAfterBreak indent '\n' rest ++ _)) = _
      rw [readApostrophes_break hbreak, readApostrophes_break hbreak]
      exact hread
    · rw [hcontent (mt (List.mem_cons_of_mem _) hnext), glueBreaks]
      show '\n' :: (rest.takeWhile isBreak) ++ _ = _
      rw [List.cons_append, List.takeWhile_append_dropWhile]
  · obtain ⟨content, hread, hcontent⟩ := ih.afterBreak c (readBreak c) [] hbreak hspaces
    refine ⟨content, ?_, fun hnext => ?_⟩
    · rw [beq_eq_false_iff_ne.mpr hfeed]
      show readApostrophes (.inLine []) (c :: (writeAfterBreak indent c rest ++ _)) = _
      rw [readApostrophes_break hbreak]
      exact hread
    · obtain ⟨hc, hrest⟩ := not_or.mp (mt List.mem_cons.mpr hnext)
      rw [hcontent hrest, readBreak_of_ne (Ne.symm hc), glueBreaks, foldBreaks,
        if_pos (bne_iff_ne.mpr hfeed), List.nil_append, List.cons_append,
        List.takeWhile_append_dropWhile]

/-- A space is read, whether it stays in its line or the line ends in its place. -/
theorem ReadsBack.inLine_space (ih : ReadsBack indent tail rest) (hindent : 0 < indent)
    (hordinary : rest.all isOrdinary = true) (hspaces : hasSpaceAtBreak (' ' :: rest) = false)
    {blanks : List Char} (hblanks : blanks ≠ [] → previous = some ' ') :
    ∃ content, readApostrophes (.inLine blanks)
        (writeApostrophes indent true previous column (' ' :: rest) ++ '\x27' :: tail) =
          .ok (content, tail) ∧
      (nextLine ∉ rest → content = blanks ++ ' ' :: rest) := by
  have hbefore : (some ' ').any isBreak = true → rest.head?.any isBreak = false := fun h => by
    cases h
  rw [writeApostrophes_space]
  split
  · next hfold =>
      obtain ⟨hbetween, -⟩ := Bool.and_eq_true_iff.mp hfold
      obtain ⟨hprevious, hnext⟩ := Bool.and_eq_true_iff.mp hbetween
      have hnil : blanks = [] := by
        refine Classical.not_not.mp fun hne => ?_
        rw [hblanks hne] at hprevious
        cases hprevious
      cases rest with
      | nil => cases hnext
      | cons d rest =>
          have hd : d ≠ ' ' := bne_iff_ne.mp hnext
          have hdBreak : isBreak d = false := Bool.eq_false_iff.mpr fun hd' =>
            (hasSpaceAtBreak_cons_cons hspaces).1 ⟨rfl, hd'⟩
          have hdBlank := isSpaceOrTab_of_isOrdinary (List.all_eq_true.mp hordinary d
            List.mem_cons_self) hd
          obtain ⟨content, hread, hcontent⟩ := ih.inLine [] (some ' ') indent hspaces hbefore
            fun h => absurd rfl h
          obtain ⟨written, hwritten⟩ :=
            exists_writeApostrophes_cons indent (some ' ') indent rest hd hdBreak
          refine ⟨' ' :: content, ?_, fun hnextLine => ?_⟩
          · rw [hwritten, List.cons_append] at hread
            rw [hnil, hwritten, List.cons_append, List.cons_append,
              readApostrophes_break (by decide), List.append_assoc, List.cons_append]
            show readApostrophes (.atBreaks (some '\n') []) _ = _
            rw [readApostrophes_indentation hindent, readApostrophes_resume rfl hdBreak hdBlank,
              hread]
            rfl
          · rw [hnil, hcontent hnextLine]
            rfl
  · obtain ⟨content, hread, hcontent⟩ := ih.inLine (blanks ++ [' ']) (some ' ') (column + 1) hspaces
      hbefore fun _ => rfl
    refine ⟨content, ?_, fun hnextLine => ?_⟩
    · rw [List.cons_append, readApostrophes_space]
      exact hread
    · rw [hcontent hnextLine, List.append_assoc]
      rfl

/-- A character that is neither a space nor a break is read, and so is what follows it. -/
theorem ReadsBack.inLine_taken (ih : ReadsBack indent tail rest) (hspace : c ≠ ' ')
    (hbreak : isBreak c = false) (hordinary : isOrdinary c = true)
    (hspaces : hasSpaceAtBreak (c :: rest) = false) (blanks : List Char) :
    ∃ content, readApostrophes (.inLine blanks)
        (writeApostrophes indent true previous column (c :: rest) ++ '\x27' :: tail) =
          .ok (content, tail) ∧
      (nextLine ∉ rest → content = blanks ++ c :: rest) := by
  have hblank := isSpaceOrTab_of_isOrdinary hordinary hspace
  have hbefore : (some c).any isBreak = true → rest.head?.any isBreak = false := fun h =>
    absurd (hbreak.symm.trans h) Bool.false_ne_true
  have hread : ∀ column, ∃ content, readApostrophes (.inLine [])
      (writeApostrophes indent true (some c) column rest ++ '\x27' :: tail) = .ok (content, tail) ∧
      (nextLine ∉ rest → content = rest) := fun column =>
    ih.inLine [] (some c) column hspaces hbefore fun h => absurd rfl h
  by_cases hmark : c = '\x27'
  · subst hmark
    obtain ⟨content, hread, hcontent⟩ := hread (column + 2)
    refine ⟨blanks ++ '\x27' :: content, ?_, fun hnext => by rw [hcontent hnext]⟩
    rw [writeApostrophes_mark, List.cons_append, readApostrophes_resume rfl hbreak hblank,
      List.cons_append, readApostrophes_twice, hread]
    rfl
  · obtain ⟨content, hread, hcontent⟩ := hread (column + 1)
    refine ⟨blanks ++ c :: content, ?_, fun hnext => by rw [hcontent hnext]⟩
    rw [writeApostrophes_other hspace hbreak hmark, List.cons_append,
      readApostrophes_resume rfl hbreak hblank, readApostrophes_taken hbreak hblank hmark, hread]
    rfl

/-- A line that begins with another character goes on after the breaks before it. -/
theorem ReadsBack.afterBreak_of_inLine (hindent : 0 < indent) (hspace : c ≠ ' ')
    (hbreak : isBreak c = false) (hordinary : isOrdinary c = true) {before : Char}
    {first : Char} {more : List Char}
    (h : ∃ content, readApostrophes (.inLine [])
        (writeApostrophes indent true (some before) indent (c :: rest) ++ '\x27' :: tail) =
          .ok (content, tail) ∧ (nextLine ∉ rest → content = c :: rest)) :
    ∃ content, readApostrophes (.atBreaks (some first) more)
        (writeAfterBreak indent before (c :: rest) ++ '\x27' :: tail) = .ok (content, tail) ∧
      (nextLine ∉ c :: rest → content = glueBreaks first more (c :: rest)) := by
  have hblank := isSpaceOrTab_of_isOrdinary hordinary hspace
  obtain ⟨content, hread, hcontent⟩ := h
  obtain ⟨written, hwritten⟩ :=
    exists_writeApostrophes_cons indent (some before) indent rest hspace hbreak
  have hhead : ((c :: rest).head?.any isBreak) = false := hbreak
  refine ⟨foldBreaks first more ++ content, ?_, fun hnext => ?_⟩
  · rw [hwritten, List.cons_append] at hread
    rw [writeAfterBreak, hhead, if_neg Bool.false_ne_true, hwritten, List.append_assoc,
      List.cons_append, readApostrophes_indentation hindent,
      readApostrophes_resume rfl hbreak hblank, hread]
    rfl
  · rw [hcontent (mt (List.mem_cons_of_mem _) hnext), glueBreaks, List.takeWhile_cons, hbreak,
      List.dropWhile_cons, hbreak]
    simp only [Bool.false_eq_true, if_false, List.append_nil]

/-- More breaks are read one by one. -/
theorem ReadsBack.afterBreak_break (ih : ReadsBack indent tail rest) (hbreak : isBreak c = true)
    (hspaces : hasSpaceAtBreak (c :: rest) = false) {before first : Char} {more : List Char}
    (hbefore : isBreak before = true) :
    ∃ content, readApostrophes (.atBreaks (some first) more)
        (writeAfterBreak indent before (c :: rest) ++ '\x27' :: tail) = .ok (content, tail) ∧
      (nextLine ∉ c :: rest → content = glueBreaks first more (c :: rest)) := by
  have hhead : ((c :: rest).head?.any isBreak) = true := hbreak
  have hany : (some before).any isBreak = true := hbefore
  obtain ⟨content, hread, hcontent⟩ := ih.afterBreak c first (more ++ [readBreak c]) hbreak hspaces
  refine ⟨content, ?_, fun hnext => ?_⟩
  · rw [writeAfterBreak, if_pos hhead, writeApostrophes_break hbreak, hany, Bool.not_true,
      Bool.and_false, if_neg Bool.false_ne_true, List.nil_append, List.cons_append,
      readApostrophes_break hbreak]
    exact hread
  · obtain ⟨hc, hrest⟩ := not_or.mp (mt List.mem_cons.mpr hnext)
    rw [hcontent hrest, readBreak_of_ne (Ne.symm hc), glueBreaks, glueBreaks, List.takeWhile_cons,
      if_pos hbreak, List.dropWhile_cons, if_pos hbreak, List.append_assoc]
    rfl

theorem readsBack (hindent : 0 < indent) (htail : tail.head? ≠ some '\x27') {text : List Char}
    (hordinary : text.all isOrdinary = true) (hspaces : hasSpaceAtBreak text = false) :
    ReadsBack indent tail text := by
  induction text with
  | nil => exact readsBack_nil hindent htail
  | cons c rest ih =>
      rw [List.all_cons, Bool.and_eq_true] at hordinary
      obtain ⟨hc, hrest⟩ := hordinary
      have hspaces' : hasSpaceAtBreak rest = false := by
        cases rest with
        | nil => rfl
        | cons d rest => exact (hasSpaceAtBreak_cons_cons hspaces).2.2
      have ih := ih hrest hspaces'
      cases hbreak : isBreak c with
      | true =>
          refine ⟨fun blanks previous column hprevious hhead hblanks => ?_,
            fun before first more hbefore _ => ih.afterBreak_break hbreak hspaces hbefore⟩
          have hnil : blanks = [] := by
            refine Classical.not_not.mp fun hne => ?_
            rw [hblanks hne] at hprevious
            exact (hasSpaceAtBreak_cons_cons hprevious).1 ⟨rfl, hbreak⟩
          have hno : previous.any isBreak = false := Bool.eq_false_iff.mpr fun hany =>
            Bool.noConfusion (hbreak.symm.trans (hhead hany))
          rw [hnil]
          exact ih.inLine_break hbreak hspaces hno
      | false =>
          refine ⟨fun blanks previous column hprevious _ hblanks => ?_,
            fun before first more hbefore hspaces'' => ?_⟩
          · by_cases hspace : c = ' '
            · subst hspace
              obtain ⟨content, hread, hcontent⟩ := ih.inLine_space hindent hrest hspaces hblanks
              exact ⟨content, hread, fun hnext => hcontent (mt (List.mem_cons_of_mem _) hnext)⟩
            · obtain ⟨content, hread, hcontent⟩ := ih.inLine_taken hspace hbreak hc hspaces blanks
              exact ⟨content, hread, fun hnext => hcontent (mt (List.mem_cons_of_mem _) hnext)⟩
          · have hspace : c ≠ ' ' := fun heq =>
              (hasSpaceAtBreak_cons_cons hspaces'').2.1 ⟨hbefore, heq⟩
            exact ReadsBack.afterBreak_of_inLine hindent hspace hbreak hc
              (ih.inLine_taken hspace hbreak hc hspaces [])

/-- A text between apostrophes is read to its end. Unless it holds a next line control it is
read as it is. -/
theorem readApostrophes_write (hindent : 0 < indent) (htail : tail.head? ≠ some '\x27')
    {text : List Char} (h : allowsApostrophes text = true) (column : Nat) :
    ∃ content, readApostrophes (.inLine [])
        (writeApostrophes indent true none column text ++ '\x27' :: tail) = .ok (content, tail) ∧
      (nextLine ∉ text → content = text) := by
  obtain ⟨hordinary, hspaces⟩ := Bool.and_eq_true_iff.mp h
  exact (readsBack hindent htail hordinary (by simpa using hspaces)).inLine [] none column
    (by simpa using hspaces) (fun hnone => by cases hnone) fun hne => absurd rfl hne

end RoundTrip

/-! ## What is lost -/

/-- No next line control was passed as content. -/
def QuotedState.Clear : QuotedState → Prop
  | .inLine blanks => nextLine ∉ blanks
  | .atBreaks first more | .inIndent first more => first ≠ some nextLine ∧ nextLine ∉ more

namespace QuotedState

variable {state : QuotedState} {c : Char}

theorem Clear.content (h : state.Clear) : nextLine ∉ state.content := by
  have hbreaks : ∀ {first : Option Char} {more : List Char}, first ≠ some nextLine →
      nextLine ∉ more → nextLine ∉ (atBreaks first more).content := by
    intro first more hfirst hmore
    cases first with
    | none => exact hmore
    | some first =>
        show nextLine ∉ foldBreaks first more
        unfold foldBreaks
        split
        · exact mt List.mem_cons.mp (not_or.mpr ⟨fun heq => hfirst (congrArg some heq.symm), hmore⟩)
        · split
          · decide
          · exact hmore
  cases state with
  | inLine blanks => exact h
  | atBreaks first more => exact hbreaks h.1 h.2
  | inIndent first more => exact hbreaks h.1 h.2

theorem readBreak_ne (c : Char) : readBreak c ≠ nextLine := by
  rw [readBreak]
  split
  · decide
  · next hne => exact fun heq => hne (beq_iff_eq.mpr heq)

theorem Clear.afterBreak (h : state.Clear) : (state.afterBreak c).Clear := by
  have hmore : ∀ {more : List Char}, nextLine ∉ more → nextLine ∉ more ++ [readBreak c] := by
    intro more hmore hmem
    rcases List.mem_append.mp hmem with hmem | hmem
    · exact hmore hmem
    · exact readBreak_ne c (List.mem_singleton.mp hmem).symm
  cases state with
  | inLine blanks => exact ⟨fun heq => readBreak_ne c (Option.some.inj heq), List.not_mem_nil⟩
  | atBreaks first more => exact ⟨h.1, hmore h.2⟩
  | inIndent first more => exact ⟨h.1, hmore h.2⟩

theorem Clear.afterBlank (h : state.Clear) (hc : c ≠ nextLine) : (state.afterBlank c).Clear := by
  cases state with
  | inLine blanks =>
      intro hmem
      rcases List.mem_append.mp hmem with hmem | hmem
      · exact h hmem
      · exact hc (List.mem_singleton.mp hmem).symm
  | atBreaks first more => exact h
  | inIndent first more => exact h

end QuotedState

/-- What is read between apostrophes has no next line control. -/
theorem nextLine_not_mem_of_readApostrophes {state : QuotedState} {text content rest : List Char}
    (h : readApostrophes state text = .ok (content, rest)) (hstate : state.Clear) :
    nextLine ∉ content := by
  have hbreak : isBreak nextLine = true := by decide
  have hbefore : ∀ {c : Char} {passed : List Char}
      {result : Except Failure (List Char × List Char)} {content rest : List Char},
      isBreak c ≠ true → nextLine ∉ passed →
      (∀ content, result = .ok (content, rest) → nextLine ∉ content) →
      before (passed ++ [c]) result = .ok (content, rest) → nextLine ∉ content := by
    intro c passed result content rest hc hpassed hresult h
    obtain ⟨⟨content', rest'⟩, hr, heq⟩ := map_eq_ok h
    cases heq
    intro hmem
    rcases List.mem_append.mp hmem with hmem | hmem
    · rcases List.mem_append.mp hmem with hmem | hmem
      · exact hpassed hmem
      · exact hc (List.mem_singleton.mp hmem ▸ hbreak)
    · exact hresult content' hr hmem
  have hempty : (QuotedState.inLine []).Clear := List.not_mem_nil
  fun_induction readApostrophes state text generalizing content with
  | case1 => cases h
  | case2 => cases h
  | case3 state c rest' _ hc ih => exact ih h hstate.afterBreak
  | case4 state c rest' _ hc hblank ih =>
      exact ih h (hstate.afterBlank fun heq => hc (heq ▸ hbreak))
  | case5 state c hc _ _ rest' _ ih =>
      exact hbefore hc hstate.content (fun content hread => ih hread hempty) h
  | case6 state c rest' _ _ _ hmark _ =>
      cases h
      exact hstate.content
  | case7 state c rest' _ hc _ _ ih =>
      exact hbefore hc hstate.content (fun content hread => ih hread hempty) h

end Deferral.Yaml
