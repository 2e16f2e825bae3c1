/-
# Deferral.Proofs.Directive.Stamps -- a timestamp denotes what is written

A publication at a timestamp is a token, `on`, `at` or `for`, and a date with a clock reading
and an offset. `Stamp` describes how a timestamp is written, and `Stamp.Denotes` which instant
it stands for, both without the reader. Whatever the reader takes is written in this way and
denotes the instant that the reader gives, and it is the same instant when the timestamp
stands alone.
-/

import Deferral.Proofs.Calendar.Fields
import Deferral.Proofs.Directive.Mentions
import Deferral.Proofs.Directive.Steady
import Deferral.Proofs.Directive.Timestamp
import Mathlib.Tactic.Ring

namespace Deferral

/-! ## How timestamps are written -/

/-- Digits that are written for a number. -/
structure Numeral (maximum shortest longest : Nat) where
  digits : List Char
  admissible : Admissible maximum shortest longest digits

/-- The number. -/
def Numeral.value {maximum shortest longest : Nat} (n : Numeral maximum shortest longest) : Nat :=
  valueOfAscii n.digits

/-- A second, and the digits after its point if it has one. -/
structure StampSecond where
  second : Numeral 59 1 2
  fraction : Option (List Char)
  isDigit : ∀ digits ∈ fraction, ∀ c ∈ digits, c.isDigit = true

namespace StampSecond

/-- The second with its colon. -/
def text (s : StampSecond) : List Char :=
  ':' :: (s.second.digits ++ (s.fraction.map ('.' :: ·)).getD [])

/-- The six digits that count of a fraction: as many as there are, and zeros. -/
def sixDigits (fraction : List Char) : List Char := (fraction ++ List.replicate 6 '0').take 6

/-- The microseconds since the beginning of the minute. -/
def micros (s : StampSecond) : Nat :=
  s.second.value * microsPerSecond + (s.fraction.map (valueOfAscii ∘ sixDigits)).getD 0

end StampSecond

/-- The offset of a timestamp. -/
inductive StampZone where
  /-- No offset at all. -/
  | utc (mark : Char) (mark_eq : mark = 'z' ∨ mark = 'Z')
  /-- The hours and minutes by which the clock is ahead or behind. -/
  | offset (ahead : Bool) (hours : Numeral 23 1 2) (colon : Bool) (minutes : Numeral 59 1 2)

namespace StampZone

def text : StampZone → List Char
  | utc mark _ => [mark]
  | offset ahead hours colon minutes => (if ahead then '+' else '-') ::
      (hours.digits ++ ((if colon then [':'] else []) ++ minutes.digits))

/-- The minutes by which the clock is ahead of UTC. -/
def minutesAhead : StampZone → Int
  | utc _ _ => 0
  | offset ahead hours _ minutes =>
    let size : Int := hours.value * 60 + minutes.value
    if ahead then size else -size

end StampZone

/-- A date, a clock reading and an offset, as they are written. -/
structure Stamp where
  year : Numeral 9999 4 4
  month : Numeral 12 2 2
  dayOfMonth : Numeral 31 2 2
  mark : Char
  mark_eq : mark = 't' ∨ mark = 'T'
  hour : Numeral 23 1 2
  minute : Numeral 59 1 2
  second : Option StampSecond
  zone : StampZone

namespace Stamp

def text (s : Stamp) : List Char :=
  s.year.digits ++ '-' :: (s.month.digits ++ '-' :: (s.dayOfMonth.digits ++ s.mark ::
    (s.hour.digits ++ ':' :: (s.minute.digits ++
      ((s.second.map StampSecond.text).getD [] ++ s.zone.text)))))

/-- The microseconds since midnight on the clock of the timestamp. -/
def sinceMidnight (s : Stamp) : Nat :=
  s.hour.value * microsPerHour + s.minute.value * microsPerMinute +
    (s.second.map StampSecond.micros).getD 0

/-- The date is one of the calendar, and the instant is what the clock shows less the offset. -/
def Denotes (s : Stamp) (i : Instant) : Prop :=
  ∃ d : Date, d.year = s.year.value ∧ d.month = s.month.value ∧
    d.dayOfMonth = s.dayOfMonth.value ∧
    (i.micros : Int) = (d.day * microsPerDay + s.sinceMidnight : Nat) -
      s.zone.minutesAhead * microsPerMinute

end Stamp

/-! ## Marks between numbers -/

/-- A mark that is no letter is written in one way only. -/
theorem dropMark?_eq_some {mark : Char} {text rest : List Char}
    (hmark : mark.toNat < 0x61 ∨ 0x7A < mark.toNat) (h : dropWord? [mark] text = some rest) :
    text = mark :: rest := by
  obtain ⟨taken, rfl, htaken⟩ := dropWord?_eq_some_iff_map.mp h
  obtain ⟨c, rfl, hc⟩ := List.map_eq_singleton_iff.mp htaken
  rw [eq_of_lowerToAscii hc hmark]
  rfl

/-- A letter other than `k` is written in two ways. -/
theorem dropLetter?_eq_some {small : Char} (capital : Char) {text rest : List Char}
    (hcapital : capital.toNat + 32 = small.toNat) (hk : small ≠ 'k')
    (h : dropWord? [small] text = some rest) :
    ∃ c, (c = small ∨ c = capital) ∧ text = c :: rest := by
  obtain ⟨taken, rfl, htaken⟩ := dropWord?_eq_some_iff_map.mp h
  obtain ⟨c, rfl, hc⟩ := List.map_eq_singleton_iff.mp htaken
  refine ⟨c, ?_, rfl⟩
  rcases lowerToAscii_cases hc with hc | ⟨hcode, -, -⟩ | hc
  · exact Or.inl hc
  · exact Or.inr (Char.toNat_inj.mp (by omega))
  · exact absurd hc hk

/-! ## The reader of timestamps -/

theorem exists_numeral_of_takeBounded? {maximum shortest longest n : Nat} {text rest : List Char}
    (hshortest : 0 < shortest) (h : takeBounded? maximum shortest longest text = some (n, rest)) :
    ∃ number : Numeral maximum shortest longest, text = number.digits ++ rest ∧
      number.value = n := by
  obtain ⟨digits, htext, hadmissible, hvalue, -⟩ := (takeBounded?_eq_some_iff hshortest).mp h
  exact ⟨⟨digits, hadmissible⟩, htext, hvalue⟩

theorem exists_numeral_of_takeFixed? {maximum width n : Nat} {text rest : List Char}
    (h : takeFixed? width text = some (n, rest)) (hn : n ≤ maximum) :
    ∃ number : Numeral maximum width width, text = number.digits ++ rest ∧ number.value = n := by
  obtain ⟨digits, htext, hlength, hdigits, rfl⟩ := takeFixed?_eq_some_iff.mp h
  exact ⟨⟨digits, hdigits, hlength.ge, hlength.le, hn⟩, htext, rfl⟩

/-- Zeros at the end of a numeral multiply by ten. -/
theorem valueOfAscii_append_zeros (digits : List Char) (n : Nat) :
    valueOfAscii (digits ++ List.replicate n '0') = valueOfAscii digits * tenTo n := by
  have hzero : asciiDigitValue '0' = 0 := rfl
  induction n with
  | zero => simp [tenTo]
  | succ n ih =>
      rw [List.replicate_succ', ← List.append_assoc, valueOfAscii_concat, ih, hzero, tenTo_succ]
      ring

/-- A fraction counts as its first six digits, with zeros where there are fewer. -/
theorem fractionMicros_eq (fraction : List Char) :
    fractionMicros fraction = valueOfAscii (StampSecond.sixDigits fraction) := by
  have hlength : 6 - (fraction.take 6).length = 6 - fraction.length := by
    rw [List.length_take]
    omega
  have hzeros : min (6 - fraction.length) 6 = 6 - fraction.length := by omega
  rw [fractionMicros, hlength, StampSecond.sixDigits, List.take_append, List.take_replicate, hzeros,
    valueOfAscii_append_zeros]

/-- The reader of seconds takes a colon and a second, or nothing. -/
theorem exists_second_of_readSeconds {text rest : List Char} {second micros : Nat}
    (h : readSeconds text = (second, micros, rest)) :
    ∃ s : Option StampSecond, text = (s.map StampSecond.text).getD [] ++ rest ∧
      (s.map StampSecond.micros).getD 0 = second * microsPerSecond + micros := by
  cases hsecond : (dropWord? [':'] text).bind takeSixtieth? with
  | none =>
      rw [readSeconds_none hsecond] at h
      cases h
      refine ⟨none, rfl, ?_⟩
      simp
  | some found =>
      obtain ⟨n, after⟩ := found
      obtain ⟨afterColon, hcolon, hnumber⟩ := Option.bind_eq_some_iff.mp hsecond
      obtain ⟨number, rfl, hvalue⟩ := exists_numeral_of_takeBounded? Nat.one_pos hnumber
      have htext := dropMark?_eq_some (by decide) hcolon
      rcases point_cases after with ⟨fraction, rfl⟩ | hpoint
      · rw [readSeconds_point hsecond] at h
        cases h
        refine ⟨some ⟨number, some (fraction.takeWhile Char.isDigit), ?_⟩, ?_, ?_⟩
        · rintro _ ⟨rfl⟩ c hc
          exact List.mem_takeWhile_imp hc
        · rw [htext]
          simp [StampSecond.text]
        · simp [StampSecond.micros, hvalue, fractionMicros_eq]
      · rw [readSeconds_whole hsecond hpoint] at h
        cases h
        refine ⟨some ⟨number, none, by simp⟩, ?_, ?_⟩
        · rw [htext]
          simp [StampSecond.text]
        · simp [StampSecond.micros, hvalue]

/-- Hours and minutes with a colon between them or without one. -/
theorem exists_size_of_readOffsetSize? {text rest : List Char} {size : Nat}
    (h : readOffsetSize? text = some (size, rest)) :
    ∃ (hours : Numeral 23 1 2) (colon : Bool) (minutes : Numeral 59 1 2),
      text = hours.digits ++ ((if colon then [':'] else []) ++ minutes.digits) ++ rest ∧
        size = hours.value * 60 + minutes.value := by
  obtain ⟨⟨hours, afterHours⟩, hhours, h⟩ := Option.bind_eq_some_iff.mp h
  obtain ⟨⟨minutes, afterMinutes⟩, hminutes, h⟩ := Option.bind_eq_some_iff.mp h
  cases h
  obtain ⟨hour, rfl, rfl⟩ := exists_numeral_of_takeBounded? Nat.one_pos hhours
  obtain ⟨minute, hrest, rfl⟩ := exists_numeral_of_takeBounded? Nat.one_pos hminutes
  cases hcolon : dropWord? [':'] afterHours with
  | none =>
      rw [hcolon, Option.getD_none] at hrest
      exact ⟨hour, false, minute, by simp [hrest], rfl⟩
  | some after =>
      rw [hcolon, Option.getD_some] at hrest
      rw [dropMark?_eq_some (by decide) hcolon, hrest]
      exact ⟨hour, true, minute, by simp, rfl⟩

/-- The reader of offsets takes a `Z`, or a sign with hours and minutes. -/
theorem exists_zone_of_readZone? {text rest : List Char} {offset : Int}
    (h : readZone? text = some (offset, rest)) :
    ∃ zone : StampZone, text = zone.text ++ rest ∧ zone.minutesAhead = offset := by
  cases hutc : dropWord? ['z'] text with
  | some after =>
      simp only [readZone?, hutc] at h
      cases h
      obtain ⟨mark, hmark, rfl⟩ := dropLetter?_eq_some 'Z' rfl (by decide) hutc
      exact ⟨.utc mark hmark, rfl, rfl⟩
  | none =>
      simp only [readZone?, hutc] at h
      split at h
      · obtain ⟨⟨size, after⟩, hsize, heq⟩ := Option.map_eq_some_iff.mp h
        cases heq
        obtain ⟨hours, colon, minutes, rfl, rfl⟩ := exists_size_of_readOffsetSize? hsize
        exact ⟨.offset true hours colon minutes, rfl, by simp [StampZone.minutesAhead]⟩
      · obtain ⟨⟨size, after⟩, hsize, heq⟩ := Option.map_eq_some_iff.mp h
        cases heq
        obtain ⟨hours, colon, minutes, rfl, rfl⟩ := exists_size_of_readOffsetSize? hsize
        exact ⟨.offset false hours colon minutes, rfl, by simp [StampZone.minutesAhead]⟩
      · cases h

/-- What the reader takes is a timestamp, and the instant that it gives is the one denoted. -/
theorem exists_stamp_of_readMoment? {text rest : List Char} {i : Instant}
    (h : readMoment? text = some (i, rest)) :
    ∃ s : Stamp, text = s.text ++ rest ∧ s.Denotes i := by
  obtain ⟨⟨year, afterYear⟩, takeYear, h⟩ := Option.bind_eq_some_iff.mp h
  obtain ⟨fromMonth, dropHyphen, h⟩ := Option.bind_eq_some_iff.mp h
  obtain ⟨⟨month, afterMonth⟩, takeMonth, h⟩ := Option.bind_eq_some_iff.mp h
  obtain ⟨fromDay, dropHyphen', h⟩ := Option.bind_eq_some_iff.mp h
  obtain ⟨⟨day, afterDay⟩, takeDay, h⟩ := Option.bind_eq_some_iff.mp h
  obtain ⟨fromHour, dropMark, h⟩ := Option.bind_eq_some_iff.mp h
  obtain ⟨⟨hour, afterHour⟩, takeHour, h⟩ := Option.bind_eq_some_iff.mp h
  obtain ⟨fromMinute, dropColon, h⟩ := Option.bind_eq_some_iff.mp h
  obtain ⟨⟨minute, afterMinute⟩, takeMinute, h⟩ := Option.bind_eq_some_iff.mp h
  rcases hseconds : readSeconds afterMinute with ⟨second, micros, afterSeconds⟩
  simp only [hseconds] at h
  obtain ⟨⟨offset, afterZone⟩, readZone, h⟩ := Option.bind_eq_some_iff.mp h
  obtain ⟨wall, hwall, h⟩ := Option.bind_eq_some_iff.mp h
  obtain ⟨j, hshift, h⟩ := Option.bind_eq_some_iff.mp h
  cases h
  obtain ⟨d, rfl, rfl, rfl, hmicros⟩ := Instant.micros_of_ofFields? hwall
  obtain ⟨yearDigits, rfl, hyear⟩ := exists_numeral_of_takeFixed? takeYear d.year_le
  obtain ⟨monthDigits, rfl, hmonth⟩ := exists_numeral_of_takeFixed? takeMonth d.month_le
  obtain ⟨dayDigits, rfl, hday⟩ := exists_numeral_of_takeFixed? takeDay
    (Nat.le_trans d.dayOfMonth_le (Date.daysInMonth_le d.year d.month))
  obtain ⟨mark, hmark, rfl⟩ := dropLetter?_eq_some 'T' rfl (by decide) dropMark
  obtain ⟨hourDigits, rfl, rfl⟩ := exists_numeral_of_takeBounded? Nat.one_pos takeHour
  obtain ⟨minuteDigits, rfl, rfl⟩ := exists_numeral_of_takeBounded? Nat.one_pos takeMinute
  obtain ⟨seconds, rfl, hsum⟩ := exists_second_of_readSeconds hseconds
  obtain ⟨zone, rfl, rfl⟩ := exists_zone_of_readZone? readZone
  refine ⟨⟨yearDigits, monthDigits, dayDigits, mark, hmark, hourDigits, minuteDigits, seconds,
    zone⟩, ?_, d, hyear.symm, hmonth.symm, hday.symm, ?_⟩
  · rw [dropMark?_eq_some (by decide) dropHyphen, dropMark?_eq_some (by decide) dropHyphen',
      dropMark?_eq_some (by decide) dropColon]
    simp [Stamp.text]
  · rw [Instant.micros_of_shift? hshift, hmicros, Stamp.sinceMidnight, hsum]
    push_cast
    ring

/-! ## Timestamps that stand alone -/

theorem Numeral.isBlank_of_mem {maximum shortest longest : Nat}
    (n : Numeral maximum shortest longest) {c : Char} (h : c ∈ n.digits) : isBlank c = false :=
  isBlank_of_isDigit (n.admissible.isDigit c h)

theorem Numeral.digits_ne_nil {maximum shortest longest : Nat} (hshortest : 0 < shortest)
    (n : Numeral maximum shortest longest) : n.digits ≠ [] :=
  List.length_pos_iff.mp (Nat.lt_of_lt_of_le hshortest n.admissible.shortest_le)

/-- An offset ends with a letter or with a digit. -/
theorem StampZone.last_not_blank (zone : StampZone) :
    ∃ c, zone.text.getLast? = some c ∧ isBlank c = false := by
  cases zone with
  | utc mark hmark =>
      refine ⟨mark, rfl, ?_⟩
      rcases hmark with rfl | rfl <;> decide
  | offset ahead hours colon minutes =>
      have hne := minutes.digits_ne_nil Nat.one_pos
      have hlast : minutes.digits.getLast? = some (minutes.digits.getLast hne) :=
        List.getLast?_eq_some_getLast hne
      refine ⟨minutes.digits.getLast hne, ?_, minutes.isBlank_of_mem (List.getLast_mem hne)⟩
      simp [StampZone.text, List.getLast?_cons, hlast]

theorem Stamp.stripBlanks_text (s : Stamp) : stripBlanks s.text = s.text := by
  show stripOf isBlank s.text = s.text
  refine stripOf_of_ends ?_ ?_
  · obtain ⟨c, digits, hyear⟩ := List.exists_cons_of_ne_nil (s.year.digits_ne_nil (by decide))
    intro c' hc'
    rw [Stamp.text, hyear] at hc'
    cases hc'
    exact s.year.isBlank_of_mem (hyear ▸ List.mem_cons_self)
  · obtain ⟨c, hlast, hblank⟩ := s.zone.last_not_blank
    intro c' hc'
    simp only [Stamp.text, List.getLast?_append, List.getLast?_cons, hlast, Option.some_or,
      Option.getD_some, Option.mem_def, Option.some.injEq] at hc'
    exact hc' ▸ hblank

/-- A timestamp that was taken from a text denotes the same instant alone. -/
theorem parseTimestamp?_of_readMoment? {taken rest : List Char} {i : Instant}
    (h : readMoment? (taken ++ rest) = some (i, rest)) : parseTimestamp? taken = some i := by
  obtain ⟨s, htext, -⟩ := exists_stamp_of_readMoment? h
  obtain ⟨taken', htaken, hsteady⟩ := steady_moment h
  obtain rfl := List.append_cancel_right htext
  obtain rfl := List.append_cancel_right htaken
  have halone := hsteady [] List.nil_prefix
  rw [List.append_nil] at halone
  rw [parseTimestamp?, s.stripBlanks_text, halone]

/-! ## Publications -/

/-- What a token and a timestamp are written with. -/
structure PublicationPhrase (timestamp : List Char) where
  mark : List Char
  mark_spells : Spells scheduleToken mark
  beforeWord : List Char
  beforeWord_gap : IsGap beforeWord
  word : List Char
  word_spells : Spells "on".toList word ∨ Spells "at".toList word ∨ Spells "for".toList word
  beforeTimestamp : List Char
  beforeTimestamp_gap : IsGap beforeTimestamp

/-- The phrase as it is written. -/
def PublicationPhrase.text {timestamp : List Char} (p : PublicationPhrase timestamp) :
    List Char :=
  p.mark ++ (p.beforeWord ++ (p.word ++ (p.beforeTimestamp ++ timestamp)))

theorem isWordLetter_of_mem_momentWords : ∀ word ∈ momentWords, word.1.all isWordLetter = true := by
  decide

/-- What the reader of publications takes ends with the timestamp. -/
theorem exists_publicationPhrase_of_readPublication? {text rest : List Char} {moment : Moment}
    (h : readPublication? text = some (moment, rest)) :
    (∃ p : PublicationPhrase moment.timestamp, text = p.text ++ rest) ∧
      readMoment? (moment.timestamp ++ rest) = some (moment.instant, rest) := by
  obtain ⟨afterMark, dropMark, h⟩ := Option.bind_eq_some_iff.mp h
  obtain ⟨fromWord, dropGap, h⟩ := Option.bind_eq_some_iff.mp h
  obtain ⟨⟨_, afterWord⟩, dropWord, h⟩ := Option.bind_eq_some_iff.mp h
  obtain ⟨timestamp, dropGap', h⟩ := Option.bind_eq_some_iff.mp h
  obtain ⟨⟨i, after⟩, readMoment, h⟩ := Option.bind_eq_some_iff.mp h
  cases h
  obtain ⟨taken, rfl, -⟩ := steady_moment readMoment
  have htaken : (taken ++ rest).take ((taken ++ rest).length - rest.length) = taken := by
    rw [List.length_append, Nat.add_sub_cancel, List.take_left]
  obtain ⟨mark, rfl, hmark⟩ := (dropWord?_eq_some_iff isWordLetter_scheduleToken).mp dropMark
  obtain ⟨beforeWord, rfl, hgap, -⟩ := dropBlanks?_eq_some_iff.mp dropGap
  obtain ⟨name, hname, word, rfl, hword⟩ :=
    spells_of_dropOneOf? isWordLetter_of_mem_momentWords dropWord
  obtain ⟨beforeTimestamp, rfl, hgap', -⟩ := dropBlanks?_eq_some_iff.mp dropGap'
  have hword : Spells "on".toList word ∨ Spells "at".toList word ∨ Spells "for".toList word := by
    simp only [momentWords, List.mem_cons, Prod.mk.injEq, and_true, List.not_mem_nil, or_false]
      at hname
    rcases hname with rfl | rfl | rfl
    · exact Or.inl hword
    · exact Or.inr (Or.inl hword)
    · exact Or.inr (Or.inr hword)
  dsimp only
  rw [htaken]
  refine ⟨⟨⟨mark, hmark, beforeWord, hgap, word, hword, beforeTimestamp, hgap'⟩, ?_⟩, readMoment⟩
  simp only [PublicationPhrase.text, List.append_assoc]

/-- A publication that is found at a timestamp stands at the first mention where the reader
succeeds. Its text is the token, `on`, `at` or `for` and the timestamp, with blanks between
them; the timestamp is written as timestamps are, and its instant is what it denotes, also
when it stands alone. -/
theorem matchScheduleMoment_found {text : List Char} {moment : Moment} {start stop : Nat}
    (h : matchScheduleMoment text = .found moment start stop) :
    (MentionedAt scheduleToken text start ∧ (readPublication? (text.drop start)).isSome = true ∧
      ∀ earlier < start, MentionedAt scheduleToken text earlier →
        readPublication? (text.drop earlier) = none) ∧
    (∃ p : PublicationPhrase moment.timestamp,
      (text.take stop).drop start = p.text ∧ stop = start + p.text.length) ∧
    (∃ s : Stamp, moment.timestamp = s.text ∧ s.Denotes moment.instant) ∧
    parseTimestamp? moment.timestamp = some moment.instant := by
  obtain ⟨hmention, ⟨rest, hread, rfl⟩, hearlier⟩ :=
    (firstMatch_eq_found_iff (by decide) isWordLetter_scheduleToken).mp h
  obtain ⟨⟨p, htext⟩, hmoment⟩ := exists_publicationPhrase_of_readPublication? hread
  obtain ⟨s, hstamp, hdenotes⟩ := exists_stamp_of_readMoment? hmoment
  have hlength : (text.drop start).length - rest.length = p.text.length := by
    rw [htext, List.length_append, Nat.add_sub_cancel]
  refine ⟨⟨hmention, by rw [hread]; rfl, hearlier⟩, ⟨p, ?_, by rw [hlength]⟩,
    ⟨s, List.append_cancel_right hstamp, hdenotes⟩, parseTimestamp?_of_readMoment? hmoment⟩
  rw [hlength, List.drop_take, Nat.add_sub_cancel_left, htext, List.take_left]

/-- A publication on a leap day, with numbers of one digit and an offset without a colon. -/
def leapDayText : List Char := "see @Schedule  at 2024-02-29t5:7:9.25-0130 ok".toList

/-- The moment of `leapDayText`, which is 06:37:09.25 in UTC. -/
def leapDayMoment : Moment where
  timestamp := "2024-02-29t5:7:9.25-0130".toList
  instant := ⟨63844785429250000, by decide⟩

theorem matchScheduleMoment_leapDayText :
    matchScheduleMoment leapDayText = .found leapDayMoment 4 42 := by decide +kernel

theorem matchScheduleMoment_found_leapDay :
    matchScheduleMoment leapDayText = .found leapDayMoment 4 42 ∧
      parseTimestamp? leapDayMoment.timestamp = some leapDayMoment.instant :=
  ⟨matchScheduleMoment_leapDayText,
    (matchScheduleMoment_found matchScheduleMoment_leapDayText).2.2.2⟩

end Deferral
