/-
# Deferral.Proofs.Directive.Rewriting -- a pinned publication and the deletions around it

When a delay becomes a timestamp, the deletions that the text mentions stay what they are. No
phrase of a deletion reaches into that of the publication or beyond it, since both begin with
an `@`, and the phrase itself mentions no deletion. Only the place right behind it needs care,
because a token counts only after a character that is no part of a word. The timestamp ends in
a letter of ASCII, and so does the delay, unless its last letter is written as the Kelvin sign:
then a token that follows at once was a mention, and is none any more.
-/

import Deferral.Proofs.Directive.Delays
import Deferral.Proofs.Directive.Pinning
import Deferral.Proofs.Directive.Totality

namespace Deferral

/-- What the mention of a deletion asks for: nothing, if the phrase is not complete. -/
def askedAt (place : Nat × List Char) : Option Delay :=
  (readDelay? deleteToken place.2).map Prod.fst

/-- What the mentions of deletions in a text ask for, in their order. -/
def deletions (text : List Char) : List (Option Delay) := (mentions deleteToken text).map askedAt

/-- A token of a deletion stands right behind the first delay of a publication, which ends in
the Kelvin sign. -/
def HidesDeletion (text : List Char) (stop : Nat) : Prop :=
  text[stop - 1]? = some '\u212a' ∧ startsWithWord deleteToken (text.drop stop) = true

theorem deleteToken_eq_cons : deleteToken = '@' :: "delete".toList := by decide

theorem deleteWord_at : '@' ∉ "delete".toList := by decide

/-! ## What decides about deletions -/

/-- The token is mentioned if there are mentions. -/
theorem mentionsToken_deleteToken (text : List Char) :
    mentionsToken deleteToken text = !(deletions text).isEmpty := by
  rw [mentionsToken, deletions, List.isEmpty_map]

/-- The first mention that asks for a delay decides. -/
theorem findSome?_deletions (text : List Char) :
    (∃ delay start stop, matchDelete text = .found delay start stop ∧
      (deletions text).findSome? id = some delay) ∨
    (∀ delay start stop, matchDelete text ≠ .found delay start stop) ∧
      (deletions text).findSome? id = none := by
  have hasked : (deletions text).findSome? id = (mentions deleteToken text).findSome? askedAt := by
    rw [deletions, List.findSome?_map]
    rfl
  rw [hasked]
  rcases firstMatch_cases deleteToken (readDelay? deleteToken) delayForm text with
    ⟨delay, start, stop, hfound, hsome⟩ | ⟨hnot, hnone⟩
  · refine Or.inl ⟨delay, start, stop, hfound, ?_⟩
    obtain ⟨before, place, after, hplaces, hplace, hbefore⟩ :=
      List.findSome?_eq_some_iff.mp hsome
    refine List.findSome?_eq_some_iff.mpr ⟨before, place, after, hplaces, ?_, ?_⟩
    · obtain ⟨phrase, hread, heq⟩ := Option.map_eq_some_iff.mp hplace
      cases heq
      rw [askedAt, hread, Option.map_some]
    · intro earlier hearlier
      rw [askedAt, matchAt_eq_none_iff.mp (hbefore earlier hearlier), Option.map_none]
  · refine Or.inr ⟨hnot, List.findSome?_eq_none_iff.mpr fun place hplace => ?_⟩
    rw [askedAt, matchAt_eq_none_iff.mp (List.findSome?_eq_none_iff.mp hnone place hplace),
      Option.map_none]

/-- The timestamp of a deletion is the instant after the first delay that is asked for. -/
theorem timestamp_of_resolveDelete {text : List Char} {now : DateTime} {r : Resolution}
    {i : Instant} (hnow : now.toInstant = .ok i) (h : resolveDelete (some text) now = .ok r) :
    r.timestamp = ((deletions text).findSome? id).bind (·.after? i) := by
  rcases findSome?_deletions text with ⟨delay, start, stop, hfound, hsome⟩ | ⟨hnot, hnone⟩
  · rw [hsome, Option.bind_some]
    rcases resolveDelete_cases (some text) now with ⟨delay', hdelay, hresult⟩ | ⟨hnot, -⟩
    · obtain ⟨chars, start', stop', heq, hmatch⟩ := hdelay
      cases heq
      cases hmatch.symm.trans hfound
      rw [hresult, hnow] at h
      cases h
      rfl
    · exact absurd ⟨text, start, stop, rfl, hfound⟩ (hnot delay)
  · rw [hnone, Option.bind_none]
    rcases resolveDelete_cases (some text) now with ⟨delay, hdelay, -⟩ | ⟨-, hresult⟩
    · obtain ⟨chars, start, stop, heq, hmatch⟩ := hdelay
      cases heq
      exact absurd hmatch (hnot delay start stop)
    · rw [hresult] at h
      cases h
      rfl

/-! ## Mentions in parts of a text -/

section Parts

variable {before : Option Char} {index : Nat} {rest : List Char}

/-- What is asked for does not depend on how places are counted. -/
theorem map_askedAt_mentionsFrom (before : Option Char) (i j : Nat) (text : List Char) :
    (mentionsFrom deleteToken before i text).map askedAt =
      (mentionsFrom deleteToken before j text).map askedAt := by
  induction text generalizing before i j with
  | nil => rfl
  | cons c rest ih =>
      rw [mentionsFrom, mentionsFrom]
      split
      · rw [List.map_cons, List.map_cons, ih (some c) (i + 1) (j + 1)]
        rfl
      · exact ih (some c) (i + 1) (j + 1)

/-- Two texts that begin alike and go on with an `@` have mentions of the same kind before it. -/
theorem mentionsFrom_meet (before : Option Char) (index : Nat) (p t u : List Char) :
    ∃ earlier earlier',
      mentionsFrom deleteToken before index (p ++ '@' :: t) =
        earlier ++ mentionsFrom deleteToken (charBefore before p) (index + p.length) ('@' :: t) ∧
      mentionsFrom deleteToken before index (p ++ '@' :: u) =
        earlier' ++ mentionsFrom deleteToken (charBefore before p) (index + p.length) ('@' :: u) ∧
      earlier.map askedAt = earlier'.map askedAt := by
  induction p generalizing before index with
  | nil => exact ⟨[], [], rfl, rfl, rfl⟩
  | cons c p ih =>
      obtain ⟨earlier, earlier', ht, hu, hasked⟩ := ih (some c) (index + 1)
      have hlength : index + (c :: p).length = index + 1 + p.length := by
        rw [List.length_cons]
        omega
      obtain ⟨t', u', hmeet⟩ := MeetAt.of_append p t u
      have hstarts : startsWithWord deleteToken (c :: (p ++ '@' :: t)) =
          startsWithWord deleteToken (c :: (p ++ '@' :: u)) := by
        rw [deleteToken_eq_cons]
        exact isSome_eq_of_rel (dropToken?_rel deleteWord_at c hmeet)
      have hread : askedAt (index, c :: (p ++ '@' :: t)) =
          askedAt (index, c :: (p ++ '@' :: u)) := by
        have hrel := readDelay?_rel deleteWord_at c hmeet
        rw [askedAt, askedAt, deleteToken_eq_cons]
        generalize readDelay? ('@' :: "delete".toList) (c :: (p ++ '@' :: t)) = x at hrel ⊢
        generalize readDelay? ('@' :: "delete".toList) (c :: (p ++ '@' :: u)) = y at hrel ⊢
        cases hrel with
        | none => rfl
        | some hsame => exact congrArg some hsame.1
      simp only [List.cons_append, mentionsFrom, hstarts, charBefore, hlength, ht, hu]
      split
      · exact ⟨_ :: earlier, _ :: earlier', rfl, rfl, by simp only [List.map_cons, hasked, hread]⟩
      · exact ⟨earlier, earlier', rfl, rfl, hasked⟩

/-- No token begins where there is no `@`. -/
theorem mentionsFrom_skip {w : List Char} (hat : '@' ∉ w) :
    mentionsFrom deleteToken before index (w ++ rest) =
      mentionsFrom deleteToken (charBefore before w) (index + w.length) rest := by
  induction w generalizing before index with
  | nil => rfl
  | cons c w ih =>
      obtain ⟨hc, hw⟩ := not_or.mp (mt List.mem_cons.mpr hat)
      have hnot : startsWithWord deleteToken (c :: (w ++ rest)) = false := by
        by_contra hstarts
        rw [Bool.not_eq_false, deleteToken_eq_cons] at hstarts
        obtain ⟨rest', heq⟩ := eq_cons_of_startsWithWord hstarts
        exact hc (List.cons.inj heq).1.symm
      have hlength : index + (c :: w).length = index + 1 + w.length := by
        rw [List.length_cons]
        omega
      rw [List.cons_append, mentionsFrom, hnot, Bool.and_false, hlength]
      exact ih hw

/-- Neither does one begin at the `@` of a publication. -/
theorem mentionsFrom_publication {c : Char} {w : List Char} (hc : lowerToAscii c = 's')
    (hat : '@' ∉ c :: w) :
    mentionsFrom deleteToken before index ('@' :: c :: w ++ rest) =
      mentionsFrom deleteToken (charBefore before ('@' :: c :: w))
        (index + ('@' :: c :: w).length) rest := by
  have hd : ¬ lowerToAscii c = 'd' := by
    rw [hc]
    decide
  have hnot : startsWithWord deleteToken ('@' :: c :: (w ++ rest)) = false := by
    rw [deleteToken_eq_cons, startsWithWord, dropWord?, if_pos (by decide)]
    show (dropWord? ('d' :: "elete".toList) (c :: (w ++ rest))).isSome = false
    rw [dropWord?, if_neg hd]
    rfl
  have hlength : index + ('@' :: c :: w).length = index + 1 + (c :: w).length := by
    rw [List.length_cons]
    omega
  rw [List.cons_append, List.cons_append, mentionsFrom, hnot, Bool.and_false, hlength]
  exact mentionsFrom_skip hat

/-- Only whether it can be followed by a token matters of the character before a text. -/
theorem mentionsFrom_congr_before {before before' : Option Char}
    (h : isBoundary before = isBoundary before' ∨ startsWithWord deleteToken rest = false) :
    mentionsFrom deleteToken before index rest = mentionsFrom deleteToken before' index rest := by
  cases rest with
  | nil => rfl
  | cons c rest =>
      rw [mentionsFrom, mentionsFrom]
      rcases h with h | h
      · rw [h]
      · rw [h, Bool.and_false, Bool.and_false]

/-- A token after a boundary is a mention more than the same text has after a word. -/
theorem mentionsFrom_boundary {before before' : Option Char} (h : isBoundary before = true)
    (h' : isBoundary before' = false) (hstarts : startsWithWord deleteToken rest = true) :
    mentionsFrom deleteToken before index rest =
      (index, rest) :: mentionsFrom deleteToken before' index rest := by
  cases rest with
  | nil =>
      rw [deleteToken_eq_cons] at hstarts
      cases hstarts
  | cons c rest =>
      rw [mentionsFrom, mentionsFrom, h, h', hstarts]
      rfl

end Parts

/-! ## The phrase before and after -/

/-- No word without an `@` is spelled with one. -/
theorem not_at_of_spells {word taken : List Char} (hword : word.all isWordLetter = true)
    (hat : '@' ∉ word) (h : Spells word taken) : '@' ∉ taken := by
  have hmap := (spells_iff_map hword).mp h
  have hsame : lowerToAscii '@' = '@' := by decide
  intro hmem
  exact hat (hmap ▸ List.mem_map.mpr ⟨'@', hmem, hsame⟩)

theorem not_at_of_gap {gap : List Char} (h : IsGap gap) : '@' ∉ gap := fun hmem =>
  absurd (h.2 _ hmem) (by decide)

/-- What lowers to a small letter is a letter of ASCII or the Kelvin sign. -/
theorem eq_kelvin_of_isBoundary {c w : Char} (h : lowerToAscii c = w) (hw : w.isAlpha = true)
    (hboundary : isBoundary (some c) = true) : c = '\u212a' := by
  have hnot := (isBoundary_some_iff.mp hboundary).2.1
  have halphanum : c.isAlphanum = (c.isUpper || c.isLower || c.isDigit) := rfl
  rw [lowerToAscii] at h
  split at h
  · next hcapital =>
      have hupper : c.isUpper = true := decide_eq_true hcapital
      rw [halphanum, hupper] at hnot
      cases hnot
  · split at h
    · assumption
    · subst h
      have hletter : (c.isUpper || c.isLower) = true := hw
      rw [halphanum, hletter] at hnot
      cases hnot

theorem unitName_isAlpha (unit : TimeUnit) : unit.name.toList.all Char.isAlpha = true := by
  cases unit <;> decide

/-- A spelled word ends in a letter of it. -/
theorem eq_kelvin_of_spells {word taken : List Char} (hword : word.all isWordLetter = true)
    (halpha : word.all Char.isAlpha = true) (h : Spells word taken) {c : Char} (hc : c ∈ taken)
    (hboundary : isBoundary (some c) = true) : c = '\u212a' := by
  have hmap := (spells_iff_map hword).mp h
  have hmem : lowerToAscii c ∈ word := hmap ▸ List.mem_map.mpr ⟨c, hc, rfl⟩
  exact eq_kelvin_of_isBoundary rfl (List.all_eq_true.mp halpha _ hmem) hboundary

namespace DelayPhrase

variable {delay : Delay}

/-- The phrase of a publication after a delay has one `@`, at its beginning. -/
theorem text_eq_cons (p : DelayPhrase scheduleToken delay) :
    ∃ c w, p.text = '@' :: c :: w ∧ lowerToAscii c = 's' ∧ '@' ∉ c :: w := by
  have hmark := ((spells_iff_map isWordLetter_scheduleToken).mp p.mark_spells).trans
    scheduleToken_eq_cons
  obtain ⟨a, mark, hmarkText, ha, hrest⟩ := List.map_eq_cons_iff.mp hmark
  obtain ⟨c, word, rfl, hc, hword⟩ := List.map_eq_cons_iff.mp hrest
  obtain rfl : a = '@' := eq_of_lowerToAscii ha (by decide)
  have hdigits : '@' ∉ p.digits := fun hmem => absurd (p.isDigit _ hmem) (by decide)
  have hunit := not_at_of_spells (unitName_all_isWordLetter delay.unit)
    (by cases delay.unit <;> decide) p.unit_spells
  have hplural : '@' ∉ p.plural := by
    rcases p.plural_spells with hnil | hs
    · rw [hnil]
      exact List.not_mem_nil
    · exact not_at_of_spells isWordLetter_plural (by decide) hs
  have hmarkAt : '@' ∉ c :: word := by
    intro hmem
    have hat : lowerToAscii '@' ∈ "schedule".toList :=
      hrest ▸ List.mem_map.mpr ⟨'@', hmem, rfl⟩
    exact absurd hat (by decide)
  refine ⟨c, word ++ (p.beforeWord ++ (p.word ++ (p.beforeDigits ++ (p.digits ++
    (p.beforeUnit ++ (p.unit ++ p.plural)))))), ?_, hc, ?_⟩
  · rw [text, hmarkText]
    rfl
  · rw [← List.cons_append]
    simp only [List.mem_append, not_or]
    exact ⟨hmarkAt, not_at_of_gap p.beforeWord_gap,
      not_at_of_spells isWordLetter_in (by decide) p.word_spells,
      not_at_of_gap p.beforeDigits_gap, hdigits, not_at_of_gap p.beforeUnit_gap, hunit, hplural⟩

/-- A phrase ends in a letter of ASCII or in the Kelvin sign. -/
theorem eq_kelvin_of_getLast? (p : DelayPhrase scheduleToken delay) {c : Char}
    (h : p.text.getLast? = some c) (hboundary : isBoundary (some c) = true) : c = '\u212a' := by
  have hunitNe : p.unit ≠ [] := by
    intro hnil
    have hlength := p.unit_spells.1
    rw [hnil] at hlength
    exact unitName_ne_nil delay.unit (List.length_eq_zero_iff.mp hlength.symm)
  have hlast : c ∈ p.unit ++ p.plural := by
    have hne : p.unit ++ p.plural ≠ [] := List.append_ne_nil_of_left_ne_nil hunitNe _
    have htext : p.text = (p.mark ++ (p.beforeWord ++ (p.word ++ (p.beforeDigits ++ (p.digits ++
        p.beforeUnit))))) ++ (p.unit ++ p.plural) := by
      simp only [text, List.append_assoc]
    rw [htext, List.getLast?_append, List.getLast?_eq_some_getLast hne, Option.some_or] at h
    cases h
    exact List.getLast_mem hne
  rcases List.mem_append.mp hlast with hc | hc
  · exact eq_kelvin_of_spells (unitName_all_isWordLetter _) (unitName_isAlpha _) p.unit_spells hc
      hboundary
  · rcases p.plural_spells with hnil | hs
    · rw [hnil] at hc
      cases hc
    · exact eq_kelvin_of_spells isWordLetter_plural (by decide) hs hc hboundary

end DelayPhrase

/-- A timestamp has no `@`. -/
theorem not_at_isoMillis (i : Instant) : '@' ∉ i.isoMillis := by
  have hdigits : ∀ width n, '@' ∉ decimalFixed width n := fun width n hmem =>
    absurd (isDigit_of_mem_decimalFixed hmem) (by decide)
  simp [Instant.isoMillis, Date.iso, isoClock, hdigits]

/-- The phrase of a timestamp has one `@`, at its beginning, and ends in a letter. -/
theorem publicationPhrase_parts (i : Instant) :
    ∃ c w, publicationPhrase i = '@' :: c :: w ∧ lowerToAscii c = 's' ∧ '@' ∉ c :: w ∧
      (publicationPhrase i).getLast? = some 'Z' := by
  refine ⟨'s', "chedule".toList ++ " on ".toList ++ i.isoMillis, ?_, by decide, ?_, ?_⟩
  · rw [publicationPhrase, scheduleToken_eq_cons]
    rfl
  · have hword : '@' ∉ 's' :: ("chedule".toList ++ " on ".toList) := by decide
    rw [← List.cons_append, List.mem_append, not_or]
    exact ⟨hword, not_at_isoMillis i⟩
  · rw [publicationPhrase, Instant.isoMillis, ← List.append_assoc, List.getLast?_concat]

/-! ## Rewriting a text -/

/-- A text cut at the phrase of a delay. -/
structure DelaySetting (delay : Delay) where
  opening : List Char
  phrase : DelayPhrase scheduleToken delay
  rest : List Char

namespace DelaySetting

variable {delay : Delay}

def text (s : DelaySetting delay) : List Char :=
  s.opening ++ (s.phrase.text ++ s.rest)

def stop (s : DelaySetting delay) : Nat :=
  s.opening.length + s.phrase.text.length

theorem exists_of_matchScheduleDelay {text : List Char} {start stop : Nat}
    (h : matchScheduleDelay text = .found delay start stop) :
    ∃ s : DelaySetting delay, text = s.text ∧ start = s.opening.length ∧ stop = s.stop := by
  obtain ⟨-, ⟨rest, hread, hstop⟩, -⟩ :=
    (firstMatch_eq_found_iff (by decide) isWordLetter_scheduleToken).mp h
  obtain ⟨phrase, hphrase⟩ := exists_delayPhrase_of_readDelay? isWordLetter_scheduleToken hread
  have hlength := congrArg List.length hphrase
  rw [List.length_drop, List.length_append] at hlength
  have hpos : 0 < phrase.text.length := by
    obtain ⟨c, w, hw, -⟩ := phrase.text_eq_cons
    rw [hw]
    exact Nat.succ_pos _
  have hstart : (text.take start).length = start := List.length_take_of_le (by omega)
  refine ⟨⟨text.take start, phrase, rest⟩, ?_, hstart.symm, ?_⟩
  · rw [DelaySetting.text, ← hphrase, List.take_append_drop]
  · show stop = (text.take start).length + phrase.text.length
    rw [hstart, hstop, hphrase, List.length_append]
    omega

variable (s : DelaySetting delay)

theorem drop_stop : s.text.drop s.stop = s.rest := by
  rw [stop, text, ← List.append_assoc, ← List.length_append, List.drop_left]

theorem splice_eq (phrase : List Char) :
    splice s.text s.opening.length s.stop phrase = s.opening ++ (phrase ++ s.rest) := by
  rw [splice, s.drop_stop, text, List.take_left, List.append_assoc]

/-- The last character of the phrase stands before the rest. -/
theorem exists_last :
    ∃ c, s.phrase.text.getLast? = some c ∧ s.text[s.stop - 1]? = some c := by
  obtain ⟨c, w, hw, -⟩ := s.phrase.text_eq_cons
  have hne : s.phrase.text ≠ [] := by
    rw [hw]
    exact List.cons_ne_nil _ _
  have hpos := List.length_pos_iff.mpr hne
  refine ⟨_, List.getLast?_eq_some_getLast hne, ?_⟩
  have hindex : s.stop - 1 = s.opening.length + (s.phrase.text.length - 1) := by
    rw [stop]
    omega
  rw [hindex, text, List.getElem?_append_right (Nat.le_add_right _ _), Nat.add_sub_cancel_left,
    List.getElem?_append_left (by omega), ← List.getLast?_eq_getElem?,
    List.getLast?_eq_some_getLast hne]

/-- The mentions of a text, and of one with a timestamp in the place of the delay: those before
the phrase are alike, and those after it depend on the character that they follow. -/
theorem exists_mentions (i : Instant) {c : Char} (hc : s.phrase.text.getLast? = some c) :
    ∃ earlier,
      mentions deleteToken s.text = earlier ++ mentionsFrom deleteToken (some c) s.stop s.rest ∧
      deletions (splice s.text s.opening.length s.stop (publicationPhrase i)) =
        (earlier ++ mentionsFrom deleteToken (some 'Z') s.stop s.rest).map askedAt := by
  obtain ⟨x, w, hw, hx, hat⟩ := s.phrase.text_eq_cons
  obtain ⟨x', w', hw', hx', hat', hlast'⟩ := publicationPhrase_parts i
  obtain ⟨earlier, earlier', hbefore, hbefore', hasked⟩ :=
    mentionsFrom_meet none 0 s.opening (x :: w ++ s.rest) (x' :: w' ++ s.rest)
  rw [← List.cons_append, mentionsFrom_publication hx hat, ← hw, charBefore_eq, hc,
    Option.some_or, Nat.zero_add] at hbefore
  rw [← List.cons_append, mentionsFrom_publication hx' hat', ← hw', ← s.splice_eq, charBefore_eq,
    hlast', Option.some_or] at hbefore'
  refine ⟨earlier, hbefore, ?_⟩
  rw [deletions, mentions, hbefore', List.map_append, List.map_append, hasked,
    map_askedAt_mentionsFrom _ _ s.stop]

end DelaySetting

/-- A text whose first delay has become a timestamp mentions the deletions that it mentioned
before. A token right behind a delay that ended in the Kelvin sign is the only exception. -/
theorem deletions_splice {text : List Char} {delay : Delay} {start stop : Nat}
    (h : matchScheduleDelay text = .found delay start stop) (i : Instant) :
    (¬ HidesDeletion text stop →
      deletions (splice text start stop (publicationPhrase i)) = deletions text) ∧
    (HidesDeletion text stop → ∃ earlier later,
      mentions deleteToken text = earlier ++ (stop, text.drop stop) :: later ∧
      deletions (splice text start stop (publicationPhrase i)) =
        (earlier ++ later).map askedAt) := by
  obtain ⟨s, rfl, rfl, rfl⟩ := DelaySetting.exists_of_matchScheduleDelay h
  obtain ⟨c, hlast, hat⟩ := s.exists_last
  obtain ⟨earlier, hmentions, hdeletions⟩ := s.exists_mentions i hlast
  have hz : isBoundary (some 'Z') = false := by decide
  rw [HidesDeletion, s.drop_stop, hat]
  refine ⟨fun hshown => ?_, ?_⟩
  · have hsame : isBoundary (some c) = isBoundary (some 'Z') ∨
        startsWithWord deleteToken s.rest = false := by
      cases hboundary : isBoundary (some c) with
      | false => exact Or.inl hz.symm
      | true =>
          refine Or.inr (Bool.eq_false_iff.mpr fun hstarts => hshown ⟨?_, hstarts⟩)
          rw [s.phrase.eq_kelvin_of_getLast? hlast hboundary]
    rw [hdeletions, deletions, hmentions, mentionsFrom_congr_before hsame]
  · rintro ⟨hkelvin, hstarts⟩
    cases hkelvin
    exact ⟨earlier, _, by rw [hmentions, mentionsFrom_boundary (by decide) hz hstarts], hdeletions⟩

/-- A publication changes a text only where it puts a timestamp in the place of a delay. -/
theorem exists_splice_of_resolveSchedule {text : Option (List Char)} {now : DateTime}
    {r : Resolution} (h : resolveSchedule text now = .ok r) (hr : r.text ≠ text) :
    ∃ chars delay start stop due, text = some chars ∧
      matchScheduleDelay chars = .found delay start stop ∧
      r.text = some (splice chars start stop (publicationPhrase due)) := by
  rcases resolveSchedule_cases text now with
    ⟨moment, -, hmoment⟩ | ⟨-, ⟨chars, delay, start, stop, rfl, hmatch, hdelay⟩ | ⟨-, hnone⟩⟩
  · rw [hmoment] at h
    cases h
    exact absurd rfl hr
  · rw [hdelay] at h
    obtain ⟨i, -, rfl⟩ := map_eq_ok h
    refine ⟨chars, delay, start, stop, ?_⟩
    unfold pinnedAt at hr ⊢
    cases hdue : delay.after? i with
    | none =>
        rw [hdue] at hr
        exact absurd rfl hr
    | some due => exact ⟨due.truncateToMillis, rfl, hmatch, rfl⟩
  · rw [hnone] at h
    cases h
    exact absurd rfl hr

/-- Resolving a text as a publication has rewritten its first delay, which ends at `stop`, and
this hides the deletion that stood there. -/
structure LosesDeletion (text after : Option (List Char)) (chars : List Char) (stop : Nat) :
    Prop where
  text_eq : text = some chars
  rewritten : after ≠ text
  found : ∃ delay start, matchScheduleDelay chars = .found delay start stop
  hides : HidesDeletion chars stop

/-- **Pinning a publication does not touch the deletions.** A text is resolved as a publication,
and both the text and the one that this returns are then resolved as a deletion. Unless the
delay that was rewritten ended in the Kelvin sign and a token of a deletion stood right behind
it, the timestamps are the same, and so is the answer whether a deletion is mentioned. With such
a token, the deletions that the returned text mentions are all others, in their order. -/
theorem rewriting_keeps_deletions (text : Option (List Char)) {now later : DateTime}
    (hnow : now.OnCalendar) (hlater : later.OnCalendar) :
    ∃ r d d', resolveSchedule text now = .ok r ∧ resolveDelete text later = .ok d ∧
      resolveDelete r.text later = .ok d' ∧
      ((¬ ∃ chars stop, LosesDeletion text r.text chars stop) →
        d'.timestamp = d.timestamp ∧ mentionsDelete r.text = mentionsDelete text) ∧
      ∀ chars stop, LosesDeletion text r.text chars stop →
        ∃ chars' earlier hidden, r.text = some chars' ∧
          mentions deleteToken chars = earlier ++ (stop, chars.drop stop) :: hidden ∧
          deletions chars' = (earlier ++ hidden).map askedAt := by
  obtain ⟨r, hr⟩ := (resolves_of_onCalendar text hnow).schedule
  obtain ⟨d, hd⟩ := (resolves_of_onCalendar text hlater).delete
  obtain ⟨d', hd'⟩ := (resolves_of_onCalendar r.text hlater).delete
  obtain ⟨i, hi, -⟩ := map_toInstant_of_onCalendar hlater id
  refine ⟨r, d, d', hr, hd, hd', fun hkeeps => ?_, fun chars stop hloses => ?_⟩
  · by_cases hsame : r.text = text
    · rw [hsame, hd] at hd'
      cases hd'
      exact ⟨rfl, by rw [hsame]⟩
    · obtain ⟨chars, delay, start, stop, due, rfl, hmatch, hrText⟩ :=
        exists_splice_of_resolveSchedule hr hsame
      have hshown : ¬ HidesDeletion chars stop := fun hhides =>
        hkeeps ⟨chars, stop, rfl, hsame, ⟨delay, start, hmatch⟩, hhides⟩
      have hdeletions := (deletions_splice hmatch due).1 hshown
      rw [hrText] at hd'
      refine ⟨?_, ?_⟩
      · rw [timestamp_of_resolveDelete hi hd', timestamp_of_resolveDelete hi hd, hdeletions]
      · simp only [hrText, mentionsDelete, Option.any_some, mentionsToken_deleteToken, hdeletions]
  · obtain ⟨rfl, hrewritten, ⟨delay, start, hmatch⟩, hhides⟩ := hloses
    obtain ⟨chars', delay', start', stop', due, heq, hmatch', hrText⟩ :=
      exists_splice_of_resolveSchedule hr hrewritten
    cases heq
    cases hmatch'.symm.trans hmatch
    obtain ⟨earlier, hidden, hmentions, hdeletions⟩ := (deletions_splice hmatch due).2 hhides
    exact ⟨_, earlier, hidden, hrText, hmentions, hdeletions⟩

/-- A token that is part of a word stays one. Of two tokens behind a Kelvin sign the first is lost,
although the timestamps are the same. -/
theorem rewriting_keeps_deletions_firstMidnight :
    firstMidnight.OnCalendar ∧
    (∃ r d d',
      resolveSchedule (some "@delete in 2 days @schedule in 3 hours@delete".toList)
        firstMidnight = .ok r ∧
      resolveDelete (some "@delete in 2 days @schedule in 3 hours@delete".toList)
        firstMidnight = .ok d ∧
      resolveDelete r.text firstMidnight = .ok d' ∧ d'.timestamp = d.timestamp) ∧
    ∃ r chars' earlier hidden,
      resolveSchedule (some "@schedule in 3 wee\u212a@delete in 3 days @delete in 3 days".toList)
        firstMidnight = .ok r ∧
      r.text = some chars' ∧
      mentions deleteToken "@schedule in 3 wee\u212a@delete in 3 days @delete in 3 days".toList =
        earlier ++ (19, "@delete in 3 days @delete in 3 days".toList) :: hidden ∧
      deletions chars' = (earlier ++ hidden).map askedAt := by
  have hnow : firstMidnight.OnCalendar := DateTime.onCalendar_of_offset_none rfl
  refine ⟨hnow, ?_, ?_⟩
  · obtain ⟨r, d, d', hr, hd, hd', hsame, -⟩ := rewriting_keeps_deletions
      (some "@delete in 2 days @schedule in 3 hours@delete".toList) hnow hnow
    refine ⟨r, d, d', hr, hd, hd', (hsame ?_).1⟩
    rintro ⟨chars, stop, heq, -, ⟨delay, start, hmatch⟩, hhides⟩
    have hfound : matchScheduleDelay "@delete in 2 days @schedule in 3 hours@delete".toList =
        .found ⟨3, .hour⟩ 18 38 := by decide +kernel
    cases heq
    cases hmatch.symm.trans hfound
    exact absurd hhides.1 (by decide +kernel)
  · obtain ⟨r, d, d', hr, -, -, -, hlost⟩ := rewriting_keeps_deletions
      (some "@schedule in 3 wee\u212a@delete in 3 days @delete in 3 days".toList) hnow hnow
    have hrewritten : r.text ≠
        some "@schedule in 3 wee\u212a@delete in 3 days @delete in 3 days".toList := by
      cases hr
      decide +kernel
    have hdrop : "@schedule in 3 wee\u212a@delete in 3 days @delete in 3 days".toList.drop 19 =
        "@delete in 3 days @delete in 3 days".toList := by decide +kernel
    obtain ⟨chars', earlier, hidden, h⟩ := hlost _ 19 ⟨rfl, hrewritten,
      ⟨⟨3, .week⟩, 0, by decide +kernel⟩, by decide +kernel, by decide +kernel⟩
    rw [hdrop] at h
    exact ⟨r, chars', earlier, hidden, hr, h⟩

/-- Weeks may be spelled with the Kelvin sign, and a token right behind it is mentioned only as
long as the sign is there. -/
theorem kelvin_sign_hides_deletion :
    ∃ r d d', resolveSchedule (some "@schedule in 3 wee\u212a@delete in 3 days".toList)
        firstMidnight = .ok r ∧
      resolveDelete (some "@schedule in 3 wee\u212a@delete in 3 days".toList) firstMidnight =
        .ok d ∧
      resolveDelete r.text firstMidnight = .ok d' ∧
      d.timestamp ≠ none ∧ d'.timestamp = none ∧
      mentionsDelete (some "@schedule in 3 wee\u212a@delete in 3 days".toList) = true ∧
      mentionsDelete r.text = false := by
  refine ⟨_, _, _, rfl, rfl, rfl, ?_, ?_, ?_, ?_⟩ <;> decide +kernel

end Deferral
