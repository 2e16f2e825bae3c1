/-
# Deferral.Proofs.Yaml.PlainScalars -- scalars without quotes

A text that may be written plain is read back as it was. Where its line was folded at a single
space, the reader makes a space of the fold. Nothing in the text ends the scalar: this takes a
colon before a gap or a number sign after one, and neither is there. The scalar ends with its
line, if the next line is not indented.
-/

import Deferral.Proofs.Yaml.Apostrophes

namespace Deferral.Yaml

/-- A line ends here, and the next one is not indented. -/
def EndsLine (text : List Char) : Prop :=
  ∃ next, text = '\n' :: next ∧ ∀ c ∈ next.head?, isGap c = false

/-! ## Reading -/

section Reading

variable {indent : Nat} {state : PlainState} {c : Char} {stop rest : List Char}

theorem readPlain_break (h : isBreak c = true) :
    readPlain false indent state stop (c :: rest) =
      readPlain false indent (state.afterBreak c) stop rest := by
  rw [readPlain, if_pos h]

theorem readPlain_space :
    readPlain false indent state stop (' ' :: rest) =
      readPlain false indent state.afterSpace stop rest := by
  rw [readPlain, if_neg (by decide), if_pos (by decide)]

/-- A character that does not end the scalar is taken, and what was passed before it. -/
theorem readPlain_taken (hbreak : isBreak c = false) (hspace : c ≠ ' ')
    (hstops : state.stops false indent (c :: rest) = false)
    (hends : endsPlain false (c :: rest) = false) :
    readPlain false indent state stop (c :: rest) =
      (state.content ++ c :: (readPlain false indent (.inLine []) rest rest).1,
        (readPlain false indent (.inLine []) rest rest).2) := by
  rw [readPlain, hbreak, hstops, hends]
  simp only [Bool.false_eq_true, if_false, beq_eq_false_iff_ne.mpr hspace, Bool.or_false]

/-- At the end of its line the scalar ends. -/
theorem readPlain_endsLine (hindent : 0 < indent) (h : EndsLine rest) :
    readPlain false indent (.inLine []) rest rest = ([], rest) := by
  obtain ⟨next, rfl, hnext⟩ := h
  rw [readPlain_break (by decide)]
  cases next with
  | nil => rfl
  | cons c next =>
      have hgap : isGap c = false := hnext c rfl
      obtain ⟨hblank, hbreak⟩ := Bool.or_eq_false_iff.mp hgap
      have hspace : (c == ' ') = false := (Bool.or_eq_false_iff.mp hblank).1
      have hstops : (PlainState.inIndent (readBreak '\n') [] 0).stops false indent (c :: next) =
          true := by
        simp only [PlainState.stops, Bool.not_false, Bool.true_and, decide_eq_true hindent,
          Bool.or_true]
      show readPlain false indent (.inIndent (readBreak '\n') [] 0) _ (c :: next) = _
      rw [readPlain, hbreak, hspace, hstops]
      rfl

/-- The blanks at the beginning of a line are passed. -/
theorem readPlain_indentation {first : Char} {more : List Char} (column width : Nat) :
    readPlain false indent (.inIndent first more column) stop (indentation width ++ rest) =
      readPlain false indent (.inIndent first more (column + width)) stop rest := by
  induction width generalizing column with
  | zero => rfl
  | succ width ih =>
      rw [indentation, List.replicate_succ, List.cons_append, readPlain_space]
      have hnext := ih (column + 1)
      rw [Nat.add_assoc, Nat.add_comm 1] at hnext
      exact hnext

end Reading

/-! ## There and back -/

section RoundTrip

variable {indent width column : Nat} {folds : Bool} {previous : Option Char} {c : Char}
  {rest tail : List Char}

theorem hasInnerIndicator_cons_cons {p : Char} (h : hasInnerIndicator (p :: c :: rest) = false) :
    (c = ':' → atGap rest = false) ∧ (isGap p = true → c ≠ '#') ∧
      hasInnerIndicator (c :: rest) = false := by
  simp only [hasInnerIndicator, Bool.or_eq_false_iff, Bool.and_eq_false_iff,
    beq_eq_false_iff_ne] at h
  obtain ⟨⟨hcolon, hmark⟩, hrest⟩ := h
  refine ⟨fun hc => hcolon.resolve_left fun hne => hne hc, fun hp hc => ?_, hrest⟩
  rw [hp] at hmark
  exact hmark.elim (fun hne => hne hc) fun hfalse => Bool.noConfusion hfalse

theorem writePlain_space :
    writePlain width true previous column (' ' :: rest) =
      if foldsBetween previous rest && lineWidth < column then
        '\n' :: indentation width ++ writePlain width true (some ' ') width rest
      else ' ' :: writePlain width true (some ' ') (column + 1) rest := by
  rw [writePlain]
  simp only [beq_self_eq_true, Bool.true_and]

theorem writePlain_taken (h : c ≠ ' ') :
    writePlain width folds previous column (c :: rest) =
      c :: writePlain width folds (some c) (column + 1) rest := by
  rw [writePlain]
  simp only [beq_eq_false_iff_ne.mpr h, Bool.false_and, Bool.false_eq_true, if_false]

/-- Nothing but a fold changes a text that is written plain. -/
theorem writePlain_of_not_folds (text : List Char) :
    writePlain width false previous column text = text := by
  induction text generalizing previous column with
  | nil => rfl
  | cons c rest ih =>
      rw [writePlain]
      simp only [Bool.and_false, Bool.false_and, Bool.false_eq_true, if_false, ih]

/-- What is written has a gap where the text has one, or ends. -/
theorem atGap_writePlain (htail : EndsLine tail) :
    atGap (writePlain width true previous column rest ++ tail) = atGap rest := by
  cases rest with
  | nil =>
      obtain ⟨next, rfl, -⟩ := htail
      rfl
  | cons d rest =>
      by_cases hspace : d = ' '
      · subst hspace
        rw [writePlain_space]
        split <;> rfl
      · rw [writePlain_taken hspace]
        rfl

/-- A character of a plain text is taken, unless it is a space. -/
theorem readPlain_writePlain_cons {state : PlainState} {stop : List Char} (htail : EndsLine tail)
    (hordinary : isOrdinary c = true) (hbreak : isBreak c = false) (hspace : c ≠ ' ')
    (hcolon : c = ':' → atGap rest = false)
    (hstops : ∀ text, state.stops false indent (c :: text) = false) :
    readPlain false indent state stop
        (c :: (writePlain width true previous column rest ++ tail)) =
      (state.content ++ c :: (readPlain false indent (.inLine [])
          (writePlain width true previous column rest ++ tail)
          (writePlain width true previous column rest ++ tail)).1,
        (readPlain false indent (.inLine [])
          (writePlain width true previous column rest ++ tail)
          (writePlain width true previous column rest ++ tail)).2) := by
  refine readPlain_taken hbreak hspace (hstops _) ?_
  have hgap : isGap c = false := by
    rw [isGap, isSpaceOrTab_of_isOrdinary hordinary hspace, hbreak]
    rfl
  simp only [endsPlain, hgap, Bool.false_and, Bool.or_false, Bool.false_or, atGap_writePlain htail]
  rw [Bool.and_eq_false_iff, beq_eq_false_iff_ne]
  by_cases hc : c = ':'
  · exact Or.inr (hcolon hc)
  · exact Or.inl hc

/-- A reader can go on with a text after the character `p`: it has passed nothing but spaces, or
the text begins with a character that does not stop it. -/
structure CanGoOn (indent : Nat) (p : Char) (text : List Char) (state : PlainState) : Prop where
  ofNil : text = [] → state = .inLine []
  ofSpace : text.head? = some ' ' → ∃ spaces, state = .inLine spaces ∧ (spaces ≠ [] → p = ' ')
  ofTaken : ∀ c ∈ text.head?, c ≠ ' ' → ∀ rest, state.stops false indent (c :: rest) = false

theorem canGoOn_inLine {p : Char} {text spaces : List Char} (hnil : text = [] → spaces = [])
    (hspaces : spaces ≠ [] → p = ' ') (hinner : hasInnerIndicator (p :: text) = false) :
    CanGoOn indent p text (.inLine spaces) where
  ofNil htext := by rw [hnil htext]
  ofSpace _ := ⟨spaces, rfl, hspaces⟩
  ofTaken c hc _ rest := by
    cases text with
    | nil => cases hc
    | cons d text =>
        cases hc
        cases spaces with
        | nil => rfl
        | cons s spaces =>
            have hp : p = ' ' := hspaces (List.cons_ne_nil _ _)
            have hmark := (hasInnerIndicator_cons_cons hinner).2.1 (hp ▸ rfl)
            exact beq_eq_false_iff_ne.mpr fun heq => hmark (Option.some.inj heq)

theorem canGoOn_inIndent {text : List Char} (hne : text ≠ [])
    (hhead : text.head?.any (· != ' ') = true) (hwidth : indent ≤ width) (hindent : 0 < indent)
    (hinner : hasInnerIndicator (' ' :: text) = false) :
    CanGoOn indent ' ' text (.inIndent '\n' [] width) where
  ofNil htext := absurd htext hne
  ofSpace hspace := by
    rw [hspace] at hhead
    cases hhead
  ofTaken c hc _ rest := by
    cases text with
    | nil => cases hc
    | cons d text =>
        cases hc
        have hmark : c ≠ '#' := (hasInnerIndicator_cons_cons hinner).2.1 rfl
        have hcolumn : (width == 0) = false := beq_eq_false_iff_ne.mpr (by omega)
        have hmark' : ((c :: rest).head? == some '#') = false :=
          beq_eq_false_iff_ne.mpr fun heq => hmark (Option.some.inj heq)
        simp only [PlainState.stops, hcolumn, hmark', Bool.false_and, Bool.not_false, Bool.true_and,
          Bool.false_or, decide_eq_false_iff_not, Nat.not_lt, hwidth]

/-- The rest of a plain text is read back. -/
theorem readPlain_write_rest (hindent : 0 < indent) (hwidth : indent ≤ width)
    (htail : EndsLine tail) {p : Char} {text : List Char} (hordinary : text.all isOrdinary = true)
    (hbreaks : text.any isBreak = false) (hinner : hasInnerIndicator (p :: text) = false)
    (hlast : text.getLast? ≠ some ' ') {state : PlainState} (hstate : CanGoOn indent p text state)
    (stop : List Char) (hstop : text = [] → stop = tail) (column : Nat) :
    readPlain false indent state stop
      (writePlain width true (some p) column text ++ tail) = (state.content ++ text, tail) := by
  induction text generalizing p state stop column with
  | nil =>
      rw [hstate.ofNil rfl, hstop rfl]
      exact readPlain_endsLine hindent htail
  | cons c rest ih =>
      obtain ⟨hcOrdinary, hordinary⟩ := Bool.and_eq_true_iff.mp hordinary
      obtain ⟨hcBreak, hbreaks⟩ := Bool.or_eq_false_iff.mp hbreaks
      obtain ⟨hcolon, hmark, hinner⟩ := hasInnerIndicator_cons_cons hinner
      have hlast' : rest.getLast? ≠ some ' ' := fun h =>
        hlast (by rw [List.getLast?_cons, h, Option.getD_some])
      by_cases hspace : c = ' '
      · subst hspace
        obtain ⟨spaces, rfl, hspaces⟩ := hstate.ofSpace rfl
        have hne : rest ≠ [] := fun hnil => hlast (by rw [hnil]; rfl)
        rw [writePlain_space]
        split
        · next hfold =>
            obtain ⟨hbetween, -⟩ := Bool.and_eq_true_iff.mp hfold
            obtain ⟨hprevious, hnext⟩ := Bool.and_eq_true_iff.mp hbetween
            have hnil : spaces = [] :=
              Classical.not_not.mp fun hne => bne_iff_ne.mp hprevious (hspaces hne)
            have hgo : CanGoOn indent ' ' rest (.inIndent '\n' [] width) :=
              canGoOn_inIndent hne hnext hwidth hindent hinner
            have hread := ih hordinary hbreaks hinner hlast' hgo stop
              (fun hnil => absurd hnil hne) width
            rw [hnil, List.cons_append, List.cons_append, readPlain_break (by decide),
              List.append_assoc]
            show readPlain false indent (.inIndent '\n' [] 0) stop _ = _
            rw [readPlain_indentation, Nat.zero_add, hread]
            rfl
        · rw [List.cons_append, readPlain_space]
          have hgo : CanGoOn indent ' ' rest (.inLine (spaces ++ [' '])) :=
            canGoOn_inLine (fun hnil => absurd hnil hne) (fun _ => rfl) hinner
          have hread := ih hordinary hbreaks hinner hlast' hgo stop
            (fun hnil => absurd hnil hne) (column + 1)
          rw [PlainState.content, List.append_assoc] at hread
          exact hread
      · have hgo : CanGoOn indent c rest (.inLine []) :=
          canGoOn_inLine (fun _ => rfl) (fun hne => absurd rfl hne) hinner
        have hread := ih hordinary hbreaks hinner hlast' hgo
          (writePlain width true (some c) (column + 1) rest ++ tail)
          (fun hnil => by rw [hnil]; rfl) (column + 1)
        rw [writePlain_taken hspace, List.cons_append,
          readPlain_writePlain_cons htail hcOrdinary hcBreak hspace hcolon
            (hstate.ofTaken c rfl hspace), hread]
        rfl

/-- What is known of the first character of a plain text. -/
structure BeginsPlain (c : Char) (rest : List Char) : Prop where
  gap : isGap c = false
  leading : isLeadingIndicator c = false
  half : isHalfIndicator c = true → atGap rest = false

theorem beginsPlain_of_allowsPlain (h : allowsPlain (c :: rest) = true) : BeginsPlain c rest := by
  simp only [allowsPlain, Bool.and_eq_true, Bool.not_eq_true', hasLeadingIndicator,
    Bool.or_eq_false_iff, Bool.and_eq_false_iff] at h
  obtain ⟨⟨⟨⟨⟨hordinary, hbreaks⟩, houter⟩, -⟩, hleading, hhalf⟩, -⟩ := h
  have hspace : c ≠ ' ' := by
    rintro rfl
    exact Bool.noConfusion (show true = false from (Bool.or_eq_false_iff.mp houter).1)
  have hblank := isSpaceOrTab_of_isOrdinary (Bool.and_eq_true_iff.mp hordinary).1 hspace
  have hbreak := (Bool.or_eq_false_iff.mp hbreaks).1
  exact ⟨by rw [isGap, hblank, hbreak, Bool.or_false], hleading, fun hc =>
    hhalf.resolve_left fun hfalse => Bool.noConfusion (hc.symm.trans hfalse)⟩

/-- A text that may be written plain is read back. -/
theorem readPlain_write (hindent : 0 < indent) (hwidth : indent ≤ width) (htail : EndsLine tail)
    {text : List Char} (h : allowsPlain text = true) (hne : text ≠ []) (column : Nat) :
    readPlain false indent (.inLine []) (writePlain width true none column text ++ tail)
      (writePlain width true none column text ++ tail) = (text, tail) := by
  cases text with
  | nil => exact absurd rfl hne
  | cons c rest =>
      obtain ⟨hgap, -, hhalf⟩ := beginsPlain_of_allowsPlain h
      obtain ⟨hblank, hbreak⟩ := Bool.or_eq_false_iff.mp hgap
      have hspace : c ≠ ' ' := beq_eq_false_iff_ne.mp (Bool.or_eq_false_iff.mp hblank).1
      simp only [allowsPlain, Bool.and_eq_true, Bool.not_eq_true'] at h
      obtain ⟨⟨⟨⟨⟨hordinary, hbreaks⟩, houter⟩, -⟩, -⟩, hinner⟩ := h
      obtain ⟨hcOrdinary, hordinary⟩ := Bool.and_eq_true_iff.mp hordinary
      obtain ⟨-, hbreaks⟩ := Bool.or_eq_false_iff.mp hbreaks
      have hlast : rest.getLast? ≠ some ' ' := by
        intro hlast
        rw [hasOuterGap, List.getLast?_cons, hlast] at houter
        exact Bool.noConfusion (show true = false from (Bool.or_eq_false_iff.mp houter).2)
      have hgo : CanGoOn indent c rest (.inLine []) :=
        canGoOn_inLine (fun _ => rfl) (fun hne => absurd rfl hne) hinner
      have hcolon : c = ':' → atGap rest = false := fun hc => hhalf (by rw [hc]; rfl)
      rw [writePlain_taken hspace, List.cons_append,
        readPlain_writePlain_cons htail hcOrdinary hbreak hspace hcolon fun _ => rfl,
        readPlain_write_rest hindent hwidth htail hordinary hbreaks hinner hlast hgo
          _ (fun hnil => by rw [hnil]; rfl)]
      rfl

end RoundTrip

end Deferral.Yaml
