/-
# Deferral.Proofs.Directive.Delays -- delays are recognised exactly

A directive after a delay is a token, `in`, a number and a unit of time, with blanks between
them. `DelayPhrase` describes the written form without the reader. The reader takes every
such phrase and nothing else, and of the phrases that begin at one place the longest, so that
a search finds a delay if and only if a phrase stands at a mention of its token.
-/

import Deferral.Directive.Resolve
import Deferral.Proofs.Directive.Mentions
import Deferral.Proofs.Directive.Parts
import Deferral.Proofs.Directive.Timestamp

namespace Deferral

variable {token : List Char} {delay : Delay}

/-- What a token and a delay are written with. -/
structure DelayPhrase (token : List Char) (delay : Delay) where
  mark : List Char
  mark_spells : Spells token mark
  beforeWord : List Char
  beforeWord_gap : IsGap beforeWord
  word : List Char
  word_spells : Spells "in".toList word
  beforeDigits : List Char
  beforeDigits_gap : IsGap beforeDigits
  digits : List Char
  digits_ne_nil : digits ≠ []
  isDigit : ∀ c ∈ digits, c.isDigit = true
  length_le : digits.length ≤ maxDigits
  value_eq : valueOfAscii digits = delay.number
  beforeUnit : List Char
  beforeUnit_gap : IsGap beforeUnit
  unit : List Char
  unit_spells : Spells delay.unit.name.toList unit
  plural : List Char
  plural_spells : plural = [] ∨ Spells ['s'] plural

/-- The phrase as it is written. -/
def DelayPhrase.text (p : DelayPhrase token delay) : List Char :=
  p.mark ++ (p.beforeWord ++ (p.word ++ (p.beforeDigits ++ (p.digits ++
    (p.beforeUnit ++ (p.unit ++ p.plural))))))

/-! ## The reader of delays -/

theorem mem_unitWords_iff {word : List Char} {unit : TimeUnit} :
    (word, unit) ∈ unitWords ↔ word = unit.name.toList := by
  have hall : unit ∈ TimeUnit.all := by cases unit <;> decide
  rw [unitWords, List.mem_map]
  constructor
  · rintro ⟨unit', -, heq⟩
    cases heq
    rfl
  · rintro rfl
    exact ⟨unit, hall, rfl⟩

theorem isWordLetter_of_mem_unitWords : ∀ word ∈ unitWords, word.1.all isWordLetter = true := by
  decide

/-- No unit has a name that begins the name of another one. -/
theorem unitWords_apart : ∀ a ∈ unitWords, ∀ b ∈ unitWords, a.1 <+: b.1 → a = b := by
  decide

/-- A unit is found where its name is spelled. -/
theorem dropUnit?_eq_some_iff {text rest : List Char} {unit : TimeUnit} :
    dropOneOf? unitWords text = some (unit, rest) ↔
      ∃ taken, text = taken ++ rest ∧ Spells unit.name.toList taken := by
  rw [dropOneOf?_eq_some_iff isWordLetter_of_mem_unitWords unitWords_apart]
  simp only [mem_unitWords_iff, exists_eq_left]

theorem isWordLetter_in : "in".toList.all isWordLetter = true := by decide

theorem isWordLetter_plural : ['s'].all isWordLetter = true := by decide

/-- An `s` is dropped, and nothing else is. -/
theorem dropPlural_split (text : List Char) :
    ∃ plural, text = plural ++ dropPlural text ∧ (plural = [] ∨ Spells ['s'] plural) := by
  rw [dropPlural]
  cases h : dropWord? ['s'] text with
  | none => exact ⟨[], rfl, Or.inl rfl⟩
  | some rest =>
      obtain ⟨plural, htext, hspells⟩ := (dropWord?_eq_some_iff isWordLetter_plural).mp h
      exact ⟨plural, htext, Or.inr hspells⟩

/-- At least the `s` of a phrase is dropped. -/
theorem length_dropPlural_le {plural : List Char} (h : plural = [] ∨ Spells ['s'] plural)
    (rest : List Char) : (dropPlural (plural ++ rest)).length ≤ rest.length := by
  rcases h with rfl | h
  · obtain ⟨plural, htext, -⟩ := dropPlural_split rest
    have hlength := congrArg List.length htext
    rw [List.length_append] at hlength
    rw [List.nil_append]
    omega
  · rw [dropPlural, dropWord?_spelling isWordLetter_plural h, Option.getD_some]

/-- What the reader takes is a phrase. -/
theorem exists_delayPhrase_of_readDelay? (htoken : token.all isWordLetter = true)
    {text rest : List Char} (h : readDelay? token text = some (delay, rest)) :
    ∃ p : DelayPhrase token delay, text = p.text ++ rest := by
  obtain ⟨afterMark, dropMark, h⟩ := Option.bind_eq_some_iff.mp h
  obtain ⟨fromWord, dropGap, h⟩ := Option.bind_eq_some_iff.mp h
  obtain ⟨afterWord, dropIn, h⟩ := Option.bind_eq_some_iff.mp h
  obtain ⟨fromDigits, dropGap', h⟩ := Option.bind_eq_some_iff.mp h
  obtain ⟨⟨digits, afterDigits⟩, takeDigits, h⟩ := Option.bind_eq_some_iff.mp h
  obtain ⟨fromUnit, dropGap'', h⟩ := Option.bind_eq_some_iff.mp h
  obtain ⟨⟨unit, afterUnit⟩, dropUnit, h⟩ := Option.bind_eq_some_iff.mp h
  dsimp only at h
  split at h
  · next hlength =>
      cases h
      obtain ⟨mark, rfl, hmark⟩ := (dropWord?_eq_some_iff htoken).mp dropMark
      obtain ⟨beforeWord, rfl, hgap, -⟩ := dropBlanks?_eq_some_iff.mp dropGap
      obtain ⟨word, rfl, hword⟩ := (dropWord?_eq_some_iff isWordLetter_in).mp dropIn
      obtain ⟨beforeDigits, rfl, hgap', -⟩ := dropBlanks?_eq_some_iff.mp dropGap'
      obtain ⟨rfl, hne, hdigits, -⟩ := takeDigits?_eq_some_iff.mp takeDigits
      obtain ⟨beforeUnit, rfl, hgap'', -⟩ := dropBlanks?_eq_some_iff.mp dropGap''
      obtain ⟨name, rfl, hname⟩ := dropUnit?_eq_some_iff.mp dropUnit
      obtain ⟨plural, hsplit, hplural⟩ := dropPlural_split afterUnit
      refine ⟨⟨mark, hmark, beforeWord, hgap, word, hword, beforeDigits, hgap', digits, hne,
        hdigits, hlength, rfl, beforeUnit, hgap'', name, hname, plural, hplural⟩, ?_⟩
      simp only [DelayPhrase.text, List.append_assoc, ← hsplit]
  · cases h

theorem unitName_ne_nil (unit : TimeUnit) : unit.name.toList ≠ [] := by
  cases unit <;> decide

theorem unitName_any_isBlank (unit : TimeUnit) : unit.name.toList.any isBlank = false := by
  cases unit <;> decide

theorem unitName_all_isWordLetter (unit : TimeUnit) :
    unit.name.toList.all isWordLetter = true := by
  cases unit <;> decide

/-- After a gap the reader goes on at the word that follows. -/
theorem dropBlanks?_gap {gap rest : List Char} (h : IsGap gap)
    (hrest : ∀ c ∈ rest.head?, isBlank c = false) : dropBlanks? (gap ++ rest) = some rest :=
  dropBlanks?_eq_some_iff.mpr ⟨gap, rfl, h, hrest⟩

/-- Digits end at a gap. -/
theorem not_digit_of_gap {gap : List Char} (h : IsGap gap) (rest : List Char) :
    ∀ c ∈ (gap ++ rest).head?, c.isDigit = false := by
  obtain ⟨hne, hblank⟩ := h
  obtain ⟨c, gap, rfl⟩ := List.exists_cons_of_ne_nil hne
  intro c' hc'
  cases hc'
  by_contra hdigit
  have hc := isBlank_of_isDigit (by simpa using hdigit : c.isDigit = true)
  rw [hblank c List.mem_cons_self] at hc
  cases hc

/-- A gap ends at digits. -/
theorem not_blank_of_digits {digits : List Char} (hne : digits ≠ [])
    (h : ∀ c ∈ digits, c.isDigit = true) (rest : List Char) :
    ∀ c ∈ (digits ++ rest).head?, isBlank c = false := by
  obtain ⟨c, digits, rfl⟩ := List.exists_cons_of_ne_nil hne
  intro c' hc'
  cases hc'
  exact isBlank_of_isDigit (h c List.mem_cons_self)

/-- Every phrase is read, whatever follows it. Only an `s` that follows may be taken as well. -/
theorem readDelay?_text (htoken : token.all isWordLetter = true)
    (p : DelayPhrase token delay) (rest : List Char) :
    readDelay? token (p.text ++ rest) = some (delay, dropPlural (p.plural ++ rest)) := by
  have hmark : ∀ after, dropWord? token (p.mark ++ after) = some after :=
    dropWord?_spelling htoken p.mark_spells
  have hgap : ∀ after, dropBlanks? (p.beforeWord ++ (p.word ++ after)) = some (p.word ++ after) :=
    fun after => dropBlanks?_gap p.beforeWord_gap
      (not_blank_of_spells isWordLetter_in (by decide) (by decide) p.word_spells after)
  have hword : ∀ after, dropWord? "in".toList (p.word ++ after) = some after :=
    dropWord?_spelling isWordLetter_in p.word_spells
  have hgap' : ∀ after,
      dropBlanks? (p.beforeDigits ++ (p.digits ++ after)) = some (p.digits ++ after) :=
    fun after => dropBlanks?_gap p.beforeDigits_gap
      (not_blank_of_digits p.digits_ne_nil p.isDigit after)
  have hdigits : ∀ after, takeDigits? (p.digits ++ (p.beforeUnit ++ after)) =
      some (p.digits, p.beforeUnit ++ after) :=
    fun after => takeDigits?_eq_some_iff.mpr
      ⟨rfl, p.digits_ne_nil, p.isDigit, not_digit_of_gap p.beforeUnit_gap after⟩
  have hgap'' : ∀ after, dropBlanks? (p.beforeUnit ++ (p.unit ++ after)) = some (p.unit ++ after) :=
    fun after => dropBlanks?_gap p.beforeUnit_gap
      (not_blank_of_spells (unitName_all_isWordLetter _) (unitName_ne_nil _)
        (unitName_any_isBlank _) p.unit_spells after)
  have hunit : ∀ after, dropOneOf? unitWords (p.unit ++ after) = some (delay.unit, after) :=
    fun after => dropUnit?_eq_some_iff.mpr ⟨p.unit, rfl, p.unit_spells⟩
  simp only [readDelay?, DelayPhrase.text, List.append_assoc, hmark, hgap, hword, hgap', hdigits,
    hgap'', hunit, p.length_le, p.value_eq, Option.bind_eq_bind, Option.bind_some, if_true]

/-- Nothing of a phrase is left. -/
theorem readDelay?_delayPhrase (htoken : token.all isWordLetter = true)
    (p : DelayPhrase token delay) (rest : List Char) :
    ∃ rest', readDelay? token (p.text ++ rest) = some (delay, rest') ∧
      rest'.length ≤ rest.length :=
  ⟨_, readDelay?_text htoken p rest, length_dropPlural_le p.plural_spells rest⟩

/-! ## Searching for delays -/

/-- A delay is written at a mention of its token, from `start` up to `stop`. -/
def DelayAt (token text : List Char) (start stop : Nat) (delay : Delay) : Prop :=
  MentionedAt token text start ∧ ∃ p : DelayPhrase token delay, ∃ rest,
    text.drop start = p.text ++ rest ∧ stop = start + p.text.length

/-- What a search for the delays of a token says of a text. -/
structure Recognises (token text : List Char) (result : Match Delay) (mentioned : Bool) :
    Prop where
  found_iff : (∃ delay start stop, result = .found delay start stop) ↔
    ∃ start stop delay, DelayAt token text start stop delay
  found : ∀ {delay start stop}, result = .found delay start stop →
    DelayAt token text start stop delay ∧
    (∀ earlier < start, ∀ stop delay, ¬ DelayAt token text earlier stop delay) ∧
    ∀ stop' delay', DelayAt token text start stop' delay' → stop' ≤ stop ∧ delay' = delay
  malformed_iff : (∃ reason, result = .malformed reason) ↔
    (∃ index, MentionedAt token text index) ∧
      ∀ start stop delay, ¬ DelayAt token text start stop delay
  absent_iff : result = .absent ↔ ∀ index, ¬ MentionedAt token text index
  mentioned_iff : mentioned = true ↔ ∃ index, MentionedAt token text index

section Search

variable (htoken : token.all isWordLetter = true) {text : List Char}
include htoken

/-- A delay is written at a mention if and only if the reader takes it there. -/
theorem exists_delayAt_iff {start : Nat} :
    (∃ stop delay, DelayAt token text start stop delay) ↔
      MentionedAt token text start ∧ readDelay? token (text.drop start) ≠ none := by
  constructor
  · rintro ⟨stop, delay, hmention, p, rest, htext, -⟩
    obtain ⟨rest', hread, -⟩ := readDelay?_delayPhrase htoken p rest
    refine ⟨hmention, ?_⟩
    rw [htext, hread]
    exact Option.some_ne_none _
  · rintro ⟨hmention, hsome⟩
    obtain ⟨⟨delay, rest⟩, hread⟩ := Option.ne_none_iff_exists'.mp hsome
    obtain ⟨p, htext⟩ := exists_delayPhrase_of_readDelay? htoken hread
    exact ⟨_, delay, hmention, p, rest, htext, rfl⟩

theorem forall_not_delayAt_iff {start : Nat} (h : MentionedAt token text start) :
    (∀ stop delay, ¬ DelayAt token text start stop delay) ↔
      readDelay? token (text.drop start) = none := by
  have hiff : (¬ ∃ stop delay, DelayAt token text start stop delay) ↔
      ¬ (MentionedAt token text start ∧ readDelay? token (text.drop start) ≠ none) :=
    not_congr (exists_delayAt_iff htoken)
  simp only [not_exists, not_and, ne_eq, not_not] at hiff
  exact hiff.trans ⟨fun hnone => hnone h, fun hnone _ => hnone⟩

/-- What the reader leaves tells where the longest phrase ends, and all phrases at a place
are those of one delay. -/
theorem delayAt_of_readDelay? {start : Nat} {rest : List Char}
    (hmention : MentionedAt token text start)
    (h : readDelay? token (text.drop start) = some (delay, rest)) :
    DelayAt token text start (start + ((text.drop start).length - rest.length)) delay ∧
      ∀ stop' delay', DelayAt token text start stop' delay' →
        stop' ≤ start + ((text.drop start).length - rest.length) ∧ delay' = delay := by
  obtain ⟨p, htext⟩ := exists_delayPhrase_of_readDelay? htoken h
  refine ⟨⟨hmention, p, rest, htext, ?_⟩, ?_⟩
  · rw [htext, List.length_append]
    omega
  · rintro stop' delay' ⟨-, p', after, htext', rfl⟩
    obtain ⟨rest', hread, hle⟩ := readDelay?_delayPhrase htoken p' after
    rw [htext', hread] at h
    cases h
    rw [htext', List.length_append]
    exact ⟨by omega, rfl⟩

theorem recognises_firstMatch (hne : token ≠ []) (expected : String) :
    Recognises token text (firstMatch token (readDelay? token) expected text)
      (mentionsToken token text) where
  found_iff := by
    constructor
    · rintro ⟨delay, start, stop, hfound⟩
      obtain ⟨hmention, ⟨rest, hread, -⟩, -⟩ := (firstMatch_eq_found_iff hne htoken).mp hfound
      exact ⟨start, _, delay, (delayAt_of_readDelay? htoken hmention hread).1⟩
    · rintro ⟨start, stop, delay, hdelay⟩
      rcases firstMatch_cases token (readDelay? token) expected text with
        ⟨value, a, b, hfound, -⟩ | ⟨-, hnone⟩
      · exact ⟨value, a, b, hfound⟩
      · obtain ⟨hmention, hsome⟩ := (exists_delayAt_iff htoken).mp ⟨stop, delay, hdelay⟩
        have hfails := List.findSome?_eq_none_iff.mp hnone _ (mem_mentions hne htoken hmention)
        exact absurd (matchAt_eq_none_iff.mp hfails) hsome
  found := by
    intro delay start stop hfound
    obtain ⟨hmention, ⟨rest, hread, rfl⟩, hearlier⟩ :=
      (firstMatch_eq_found_iff hne htoken).mp hfound
    obtain ⟨hdelay, hlongest⟩ := delayAt_of_readDelay? htoken hmention hread
    refine ⟨hdelay, fun earlier hlt stop' delay' hbefore => ?_, hlongest⟩
    exact (forall_not_delayAt_iff htoken hbefore.1).mpr (hearlier earlier hlt hbefore.1) stop'
      delay' hbefore
  malformed_iff := by
    simp only [firstMatch_eq_malformed_iff hne htoken, exists_and_left, exists_eq, and_true]
    refine and_congr_right fun _ => forall_congr' fun start => ?_
    constructor
    · intro hnone stop delay hdelay
      exact (forall_not_delayAt_iff htoken hdelay.1).mpr (hnone hdelay.1) stop delay hdelay
    · intro hnone hmention
      exact (forall_not_delayAt_iff htoken hmention).mp hnone
  absent_iff := firstMatch_eq_absent_iff hne htoken
  mentioned_iff := mentionsToken_iff hne htoken

end Search

/-- Deletions and publications after a delay are found in every text exactly where they are
written: at the least mention of the token that a phrase follows, up to the end of the
longest phrase there, and with its number and its unit. Otherwise a mention is malformed. -/
theorem delays_recognised (text : List Char) :
    Recognises deleteToken text (matchDelete text) (mentionsDelete (some text)) ∧
      Recognises scheduleToken text (matchScheduleDelay text) (mentionsSchedule (some text)) :=
  ⟨recognises_firstMatch isWordLetter_deleteToken (by decide) delayForm,
    recognises_firstMatch isWordLetter_scheduleToken (by decide) delayForm⟩

end Deferral
