/-
# Deferral.Proofs.Directive.Surroundings -- a directive means the same wherever it stands

A search does not look at the text in front of a directive, beyond the one character that tells
whether a token may follow: other text without an `@` only moves the positions. Nor does it look
at what follows the phrase, except that the name of a unit takes an `s` with it. What failed
before the phrase still fails, since no phrase reaches beyond the `@` of the next one.
-/

import Deferral.Proofs.Directive.Acceptance
import Deferral.Proofs.Directive.Renumbering

namespace Deferral

variable {α : Type} {token word before after text : List Char}
  {read : List Char → Option (α × List Char)} {expected : String}

/-! ## Text in front -/

/-- A text that mentions no token, and that a token may follow. -/
structure MayPrecede (before : List Char) : Prop where
  noMark : '@' ∉ before
  boundary : before = [] ∨
    ∃ c, before.getLast? = some c ∧ c ≠ '\x60' ∧ c.isAlphanum = false ∧ c ≠ '_'

theorem MayPrecede.isBoundary (h : MayPrecede before) :
    isBoundary (charBefore none before) = true := by
  rw [charBefore_eq, Option.or_none]
  rcases h.boundary with rfl | ⟨c, hlast, hc⟩
  · rfl
  · rw [hlast]
    exact isBoundary_some_iff.mpr hc

/-- A search sees of the character before a text only whether it is a boundary. -/
theorem mentionsFrom_congr {c? d? : Option Char} (h : isBoundary c? = isBoundary d?)
    (index : Nat) (text : List Char) :
    mentionsFrom token c? index text = mentionsFrom token d? index text := by
  cases text with
  | nil => rfl
  | cons c text => rw [mentionsFrom, mentionsFrom, h]

theorem mentionsFrom_add (c? : Option Char) (index n : Nat) (text : List Char) :
    mentionsFrom token c? (index + n) text =
      (mentionsFrom token c? index text).map fun place => (place.1 + n, place.2) := by
  induction text generalizing c? index with
  | nil => rfl
  | cons c text ih =>
      have hnext : index + n + 1 = index + 1 + n := by omega
      rw [mentionsFrom, mentionsFrom, hnext, ih]
      split
      · rfl
      · rfl

/-- No token begins where there is no `@`. -/
theorem mentionsFrom_append (h : '@' ∉ before) (c? : Option Char) (index : Nat)
    (text : List Char) :
    mentionsFrom ('@' :: word) c? index (before ++ text) =
      mentionsFrom ('@' :: word) (charBefore c? before) (index + before.length) text := by
  induction before generalizing c? index with
  | nil => rfl
  | cons c before ih =>
      obtain ⟨hc, hbefore⟩ := not_or.mp (mt List.mem_cons.mpr h)
      have hnone : startsWithWord ('@' :: word) (c :: (before ++ text)) = false := by
        rw [startsWithWord, dropWord?, if_neg]
        · rfl
        · intro hlower
          exact hc (eq_of_lowerToAscii hlower (by decide)).symm
      have hnext : index + 1 + before.length = index + (c :: before).length := by
        rw [List.length_cons]
        omega
      rw [List.cons_append, mentionsFrom, hnone, Bool.and_false, if_neg Bool.false_ne_true,
        ih hbefore, hnext, charBefore]

theorem mentions_append (h : MayPrecede before) (text : List Char) :
    mentions ('@' :: word) (before ++ text) =
      (mentions ('@' :: word) text).map fun place => (place.1 + before.length, place.2) := by
  have hboundary : isBoundary (charBefore none before) = isBoundary none := h.isBoundary
  rw [mentions, mentions, mentionsFrom_append h.noMark, mentionsFrom_congr hboundary,
    mentionsFrom_add]

/-- What a text says when it stands behind another one. -/
def Match.moved (n : Nat) : Match α → Match α
  | .found value start stop => .found value (start + n) (stop + n)
  | .malformed reason => .malformed reason
  | .absent => .absent

theorem matchAt_moved (read : List Char → Option (α × List Char)) (n : Nat)
    (place : Nat × List Char) :
    matchAt read (place.1 + n, place.2) = (matchAt read place).map (Match.moved n) := by
  rw [matchAt, matchAt, Option.map_map]
  cases read place.2 with
  | none => rfl
  | some phrase =>
      simp only [Option.map_some, Function.comp_apply, Match.moved, Option.some.injEq,
        Match.found.injEq, true_and]
      omega

theorem findSome?_map_moved (n : Nat) (places : List (Nat × List Char)) :
    (places.map fun place => (place.1 + n, place.2)).findSome? (matchAt read) =
      (places.findSome? (matchAt read)).map (Match.moved n) := by
  induction places with
  | nil => rfl
  | cons place places ih =>
      rw [List.map_cons, List.findSome?_cons, List.findSome?_cons, matchAt_moved, ih]
      cases matchAt read place with
      | none => rfl
      | some m => rfl

/-- **Text in front of a text moves what is found in it**, and changes nothing else. -/
theorem firstMatch_append_left (h : MayPrecede before) (text : List Char) :
    firstMatch ('@' :: word) read expected (before ++ text) =
      (firstMatch ('@' :: word) read expected text).moved before.length := by
  rw [firstMatch, firstMatch, mentions_append h]
  cases mentions ('@' :: word) text with
  | nil => rfl
  | cons place places =>
      show Option.getD (((place :: places).map _).findSome? (matchAt read)) _ =
        Match.moved _ (Option.getD _ _)
      rw [findSome?_map_moved]
      cases (place :: places).findSome? (matchAt read) with
      | none => rfl
      | some m => rfl

/-! ## Other text on both sides -/

section Surrounded

variable (hat : '@' ∉ word) (hword : ('@' :: word).all isWordLetter = true)
include hat hword

/-- The first phrase of a text is the first one between two others as well, if it is still read
there. -/
theorem firstMatch_surrounded (hlocal : ∀ c t u a b, MeetAt t u a b →
      read (c :: a) = none → read (c :: b) = none)
    (hbefore : MayPrecede before) {phrase tail rest : List Char} {value : α} {start stop : Nat}
    (hfound : firstMatch ('@' :: word) read expected text = .found value start stop)
    (htail : text.drop start = phrase ++ tail)
    (hspelled : startsWithWord ('@' :: word) (phrase ++ after) = true)
    (hread : read (phrase ++ after) = some (value, rest)) :
    firstMatch ('@' :: word) read expected
        (before ++ text.take (start + phrase.length) ++ after) =
      .found value (start + before.length)
        (start + ((phrase ++ after).length - rest.length) + before.length) := by
  have hstart : (text.take start).length = start := by
    obtain ⟨hmention, -⟩ := (firstMatch_eq_found_iff (List.cons_ne_nil _ _) hword).mp hfound
    obtain ⟨taken, later, hdrop, hspells⟩ := hmention.spelled
    apply List.length_take_of_le
    by_contra hlt
    rw [List.drop_eq_nil_of_le (by omega)] at hdrop
    rw [(List.append_eq_nil_iff.mp hdrop.symm).1] at hspells
    cases hspells.1
  have htext : text = text.take start ++ (phrase ++ tail) := by
    rw [← htail, List.take_append_drop]
  have htake : text.take (start + phrase.length) = text.take start ++ phrase := by
    rw [List.take_add, htail, List.take_left]
  have hplaced : firstMatch ('@' :: word) read expected (text.take start ++ (phrase ++ tail)) =
      .found value (text.take start).length stop := by
    rw [← htext, hstart]
    exact hfound
  have hrenewed := firstMatch_renew hat hword hlocal hplaced hspelled hread
  rw [hstart] at hrenewed
  rw [htake, List.append_assoc, List.append_assoc, firstMatch_append_left hbefore, hrenewed]
  rfl

end Surrounded

/-! ## Delays -/

/-- The letter of a plural. -/
def isPluralMark (c? : Option Char) : Bool := c? == some 's' || c? == some 'S'

/-- An `s` stands after a phrase that has none yet. -/
def gainsPlural (phrase after : List Char) : Bool :=
  !isPluralMark phrase.getLast? && isPluralMark after.head?

theorem lowerToAscii_eq_plural_iff {c : Char} :
    lowerToAscii c = 's' ↔ isPluralMark (some c) = true := by
  simp only [isPluralMark, Bool.or_eq_true, beq_iff_eq, Option.some.injEq]
  constructor
  · intro h
    rcases lowerToAscii_cases h with hc | ⟨hcode, -, -⟩ | hk
    · exact Or.inl hc
    · have hsmall : 's'.toNat = 'S'.toNat + 32 := rfl
      exact Or.inr (Char.toNat_inj.mp (by omega))
    · exact absurd hk (by decide)
  · rintro (rfl | rfl) <;> decide

theorem length_dropPlural (text : List Char) :
    (dropPlural text).length + (isPluralMark text.head?).toNat = text.length := by
  cases text with
  | nil => rfl
  | cons c text =>
      rw [dropPlural, dropWord?, List.head?_cons]
      by_cases hc : lowerToAscii c = 's'
      · rw [if_pos hc, lowerToAscii_eq_plural_iff.mp hc]
        rfl
      · rw [if_neg hc, Bool.eq_false_iff.mpr (mt lowerToAscii_eq_plural_iff.mpr hc)]
        rfl

namespace DelayPhrase

variable {delay : Delay}

/-- The name of a unit does not end like a plural. -/
theorem not_isPluralMark_unit (p : DelayPhrase token delay) :
    isPluralMark p.unit.getLast? = false := by
  have hmap := (spells_iff_map (unitName_all_isWordLetter delay.unit)).mp p.unit_spells
  have hname : ∀ unit : TimeUnit, unit.name.toList.getLast? ≠ some 's' := by
    intro unit
    cases unit <;> decide
  cases hlast : p.unit.getLast? with
  | none => rfl
  | some c =>
      refine Bool.eq_false_iff.mpr fun hc => hname delay.unit ?_
      rw [← hmap, List.getLast?_map, hlast, Option.map_some, lowerToAscii_eq_plural_iff.mpr hc]

theorem unit_ne_nil (p : DelayPhrase token delay) : p.unit ≠ [] := by
  intro hnil
  have hlength := p.unit_spells.1
  rw [hnil] at hlength
  exact unitName_ne_nil delay.unit (List.length_eq_zero_iff.mp hlength.symm)

theorem getLast?_text (p : DelayPhrase token delay) :
    p.text.getLast? = p.plural.getLast?.or p.unit.getLast? := by
  obtain ⟨c, hc⟩ := Option.ne_none_iff_exists'.mp (mt List.getLast?_eq_none_iff.mp p.unit_ne_nil)
  simp only [text, List.getLast?_append, hc, Option.or_assoc, Option.some_or]

/-- After a phrase the reader takes nothing but an `s` that the phrase does not have. -/
theorem length_rest (p : DelayPhrase token delay) (after : List Char) :
    (dropPlural (p.plural ++ after)).length + (gainsPlural p.text after).toNat =
      after.length := by
  have hrest := length_dropPlural (p.plural ++ after)
  rw [gainsPlural, p.getLast?_text]
  rcases p.plural_spells with hnone | hplural
  · rw [hnone] at hrest ⊢
    rw [List.getLast?_nil, Option.none_or, p.not_isPluralMark_unit]
    exact hrest
  · have hmap := (spells_iff_map isWordLetter_plural).mp hplural
    obtain ⟨c, hc, hlower⟩ := List.map_eq_singleton_iff.mp hmap
    have hmark := lowerToAscii_eq_plural_iff.mp hlower
    rw [hc, List.cons_append, List.head?_cons, hmark, List.nil_append] at hrest
    rw [hc, List.getLast?_singleton, Option.some_or, hmark]
    have hlength := Nat.succ.inj hrest
    exact hlength

end DelayPhrase

/-- A delay that is found in a text is found between two others. It takes an `s` with it if it has
none yet. -/
theorem firstMatch_delay_surrounded (hat : '@' ∉ word)
    (hword : ('@' :: word).all isWordLetter = true) (hbefore : MayPrecede before)
    (after : List Char) {delay : Delay} {start stop : Nat}
    (h : firstMatch ('@' :: word) (readDelay? ('@' :: word)) expected text =
      .found delay start stop) :
    firstMatch ('@' :: word) (readDelay? ('@' :: word)) expected
        (before ++ text.take stop ++ after) =
      .found delay (start + before.length) (stop + before.length +
        (gainsPlural ((text.take stop).drop start) after).toNat) := by
  obtain ⟨-, ⟨rest, hread, hstop⟩, -⟩ :=
    (firstMatch_eq_found_iff (List.cons_ne_nil _ _) hword).mp h
  obtain ⟨p, hp⟩ := exists_delayPhrase_of_readDelay? hword hread
  have hend : stop = start + p.text.length := by
    rw [hstop, hp, List.length_append, Nat.add_sub_cancel]
  have hphrase : (text.take stop).drop start = p.text := by
    rw [List.drop_take, hp, hend, Nat.add_sub_cancel_left, List.take_left]
  have hlocal : ∀ c t u a b, MeetAt t u a b → readDelay? ('@' :: word) (c :: a) = none →
      readDelay? ('@' :: word) (c :: b) = none :=
    fun c t u a b hmeet => (none_iff_of_rel (readDelay?_rel hat c hmeet)).mp
  have hmoved := firstMatch_surrounded hat hword hlocal hbefore h hp
    (p.startsWithWord_text hword after) (readDelay?_text hword p after)
  have hlength := p.length_rest after
  rw [hphrase, hend, hmoved, List.length_append]
  congr 1
  omega

/-! ## Timestamps -/

theorem momentWords_apart : ∀ a ∈ momentWords, ∀ b ∈ momentWords, a.1 <+: b.1 → a = b := by
  decide

/-- A publication is read where its timestamp is. -/
theorem readPublication?_text {timestamp rest : List Char} {i : Instant}
    (p : PublicationPhrase timestamp) (hfirst : ∀ c ∈ timestamp.head?, isBlank c = false)
    (hne : timestamp ≠ []) (h : readMoment? (timestamp ++ rest) = some (i, rest)) :
    readPublication? (p.text ++ rest) = some (⟨timestamp, i⟩, rest) := by
  have hmark : ∀ after, dropWord? scheduleToken (p.mark ++ after) = some after :=
    dropWord?_spelling isWordLetter_scheduleToken p.mark_spells
  obtain ⟨name, hname, hspells⟩ : ∃ name, (name, ()) ∈ momentWords ∧ Spells name p.word := by
    rcases p.word_spells with hword | hword | hword
    · exact ⟨_, by decide, hword⟩
    · exact ⟨_, by decide, hword⟩
    · exact ⟨_, by decide, hword⟩
  have hnames : ∀ word ∈ momentWords, word.1 ≠ [] ∧ word.1.any isBlank = false := by decide
  obtain ⟨hnameNe, hnameBlank⟩ := hnames _ hname
  have hgap : ∀ after, dropBlanks? (p.beforeWord ++ (p.word ++ after)) = some (p.word ++ after) :=
    fun after => dropBlanks?_gap p.beforeWord_gap (not_blank_of_spells
      (isWordLetter_of_mem_momentWords _ hname) hnameNe hnameBlank hspells after)
  have hword : ∀ after, dropOneOf? momentWords (p.word ++ after) = some ((), after) :=
    fun after => (dropOneOf?_eq_some_iff isWordLetter_of_mem_momentWords momentWords_apart).mpr
      ⟨name, hname, p.word, rfl, hspells⟩
  have hgap' : dropBlanks? (p.beforeTimestamp ++ (timestamp ++ rest)) =
      some (timestamp ++ rest) := by
    refine dropBlanks?_gap p.beforeTimestamp_gap ?_
    obtain ⟨c, timestamp, rfl⟩ := List.exists_cons_of_ne_nil hne
    exact hfirst
  have htaken : (timestamp ++ rest).take ((timestamp ++ rest).length - rest.length) =
      timestamp := by
    rw [List.length_append, Nat.add_sub_cancel, List.take_left]
  simp only [readPublication?, PublicationPhrase.text, List.append_assoc, hmark, hgap, hword, hgap',
    h, htaken, Option.bind_eq_bind, Option.bind_some]

namespace Stamp

/-- A timestamp begins with a digit. -/
theorem text_eq_cons (s : Stamp) : ∃ c rest, s.text = c :: rest ∧ isBlank c = false := by
  obtain ⟨c, digits, hyear⟩ := List.exists_cons_of_ne_nil (s.year.digits_ne_nil (by decide))
  refine ⟨c, _, by rw [text, hyear]; rfl, s.year.isBlank_of_mem (hyear ▸ List.mem_cons_self)⟩

/-- The letter of UTC is not the end of an offset with minutes. -/
theorem zone_eq_utc (s : Stamp) {c : Char} (hlast : s.text.getLast? = some c)
    (hc : c = 'Z' ∨ c = 'z') : ∃ mark hmark, s.zone = .utc mark hmark := by
  cases hzone : s.zone with
  | utc mark hmark => exact ⟨mark, hmark, rfl⟩
  | offset ahead hours colon minutes =>
      have hne := minutes.digits_ne_nil Nat.one_pos
      have hdigits : minutes.digits.getLast? = some (minutes.digits.getLast hne) :=
        List.getLast?_eq_some_getLast hne
      have hdigit := minutes.admissible.isDigit _ (List.getLast_mem hne)
      simp only [text, hzone, StampZone.text, List.getLast?_append, List.getLast?_cons, hdigits,
        Option.some_or, Option.getD_some, Option.some.injEq] at hlast
      rw [hlast] at hdigit
      rcases hc with rfl | rfl <;> cases hdigit

/-- After the letter of UTC the reader looks at nothing more. -/
theorem readMoment?_of_utc (s : Stamp) {mark : Char} {hmark : mark = 'z' ∨ mark = 'Z'}
    (hzone : s.zone = .utc mark hmark) {rest : List Char} {i : Instant}
    (h : readMoment? (s.text ++ rest) = some (i, rest)) (after : List Char) :
    readMoment? (s.text ++ after) = some (i, after) := by
  have hutc : ∀ after, readZone? (s.zone.text ++ after) = some (0, after) := by
    intro after
    rw [hzone]
    rcases hmark with rfl | rfl <;> rfl
  rw [readMoment?_append, hutc, Option.bind_some] at h ⊢
  obtain ⟨wall, hwall, h⟩ := Option.bind_eq_some_iff.mp h
  obtain ⟨j, hj, h⟩ := Option.bind_eq_some_iff.mp h
  cases h
  rw [hwall, Option.bind_some, hj, Option.bind_some]

end Stamp

/-- A publication at a timestamp in UTC is found between two other texts. -/
theorem matchScheduleMoment_surrounded (hbefore : MayPrecede before) (after : List Char)
    {moment : Moment} {start stop : Nat} (h : matchScheduleMoment text = .found moment start stop)
    {c : Char} (hlast : moment.timestamp.getLast? = some c) (hc : c = 'Z' ∨ c = 'z') :
    matchScheduleMoment (before ++ text.take stop ++ after) =
      .found moment (start + before.length) (stop + before.length) := by
  obtain ⟨-, ⟨rest, hread, hstop⟩, -⟩ :=
    (firstMatch_eq_found_iff (by decide) isWordLetter_scheduleToken).mp h
  obtain ⟨⟨p, hp⟩, hmoment⟩ := exists_publicationPhrase_of_readPublication? hread
  obtain ⟨s, hs, -⟩ := exists_stamp_of_readMoment? hmoment
  have htimestamp : moment.timestamp = s.text := List.append_cancel_right hs
  rw [htimestamp] at hmoment hlast
  obtain ⟨mark, hmark, hzone⟩ := s.zone_eq_utc hlast hc
  obtain ⟨d, digits, hfirst, hblank⟩ := s.text_eq_cons
  have hreadAfter : readPublication? (p.text ++ after) = some (moment, after) := by
    refine readPublication?_text p ?_ ?_ ?_
    · rw [htimestamp, hfirst]
      rintro _ ⟨rfl⟩
      exact hblank
    · rw [htimestamp, hfirst]
      exact List.cons_ne_nil _ _
    · rw [htimestamp]
      exact s.readMoment?_of_utc hzone hmoment after
  have hspelled : startsWithWord scheduleToken (p.text ++ after) = true := by
    rw [startsWithWord_iff isWordLetter_scheduleToken, PublicationPhrase.text, List.append_assoc]
    exact ⟨p.mark, _, rfl, p.mark_spells⟩
  have hlocal : ∀ c t u a b, MeetAt t u a b → readPublication? (c :: a) = none →
      readPublication? (c :: b) = none :=
    fun c t u a b hmeet => (none_iff_of_rel (readPublication?_rel c hmeet)).mp
  have hat : '@' ∉ "schedule".toList := by decide
  have hmoved := firstMatch_surrounded hat isWordLetter_scheduleToken hlocal hbefore h hp hspelled
    hreadAfter
  have hend : stop = start + p.text.length := by
    rw [hstop, hp, List.length_append, Nat.add_sub_cancel]
  rw [hend, matchScheduleMoment]
  refine hmoved.trans ?_
  rw [List.length_append, Nat.add_sub_cancel]

/-! ## All directives -/

/-- **A directive means the same wherever it stands.** What is found in a text is also found when
the text is cut after it, and put between any other texts, as long as the one in front has no `@`
and does not end in a character that belongs to words, or in an accent. Delays keep their number
and their unit, and timestamps that end in the letter of UTC their characters and their instant.
The positions move by the length of the text in front. Only a delay whose unit has no `s` takes
one with it that follows. -/
theorem directives_anywhere {before : List Char} (h : MayPrecede before) (after : List Char) :
    (∀ text delay start stop, matchDelete text = .found delay start stop →
      matchDelete (before ++ text.take stop ++ after) =
        .found delay (start + before.length) (stop + before.length +
          (gainsPlural ((text.take stop).drop start) after).toNat)) ∧
    (∀ text delay start stop, matchScheduleDelay text = .found delay start stop →
      matchScheduleDelay (before ++ text.take stop ++ after) =
        .found delay (start + before.length) (stop + before.length +
          (gainsPlural ((text.take stop).drop start) after).toNat)) ∧
    ∀ text moment start stop, matchScheduleMoment text = .found moment start stop →
      (∃ c, moment.timestamp.getLast? = some c ∧ (c = 'Z' ∨ c = 'z')) →
        matchScheduleMoment (before ++ text.take stop ++ after) =
          .found moment (start + before.length) (stop + before.length) := by
  refine ⟨?_, ?_, ?_⟩
  · intro text delay start stop hfound
    have hat : '@' ∉ "delete".toList := by decide
    exact firstMatch_delay_surrounded hat isWordLetter_deleteToken h after hfound
  · intro text delay start stop hfound
    have hat : '@' ∉ "schedule".toList := by decide
    exact firstMatch_delay_surrounded hat isWordLetter_scheduleToken h after hfound
  · rintro text moment start stop hfound ⟨c, hlast, hc⟩
    exact matchScheduleMoment_surrounded h after hfound hlast hc

/-- A deletion in a day that is put after a name, before the `s` of another word. -/
theorem directives_anywhere_day :
    MayPrecede "to: ".toList ∧
      matchDelete "@delete in 1 day or @delete in 2 days".toList = .found ⟨1, .day⟩ 0 16 ∧
      matchDelete "to: @delete in 1 daysome".toList = .found ⟨1, .day⟩ 4 21 := by
  have hbefore : MayPrecede "to: ".toList :=
    ⟨by decide, Or.inr ⟨' ', by decide, by decide, by decide, by decide⟩⟩
  have hday : matchDelete "@delete in 1 day or @delete in 2 days".toList =
      .found ⟨1, .day⟩ 0 16 := by decide +kernel
  exact ⟨hbefore, hday, (directives_anywhere hbefore "some".toList).1 _ _ _ _ hday⟩

end Deferral
