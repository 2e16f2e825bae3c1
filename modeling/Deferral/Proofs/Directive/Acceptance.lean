/-
# Deferral.Proofs.Directive.Acceptance -- which timestamps are accepted

The reader takes each number of a timestamp as long as it can be. The marks between the fields
say where a number ends, except between the hours and the minutes of an offset that has no colon.
Such an offset may have several readings, and it is read with hours of two digits wherever they
are hours. Hence a timestamp of the calendar is accepted unless its offset has two digits that
look like hours, after which no minutes are left.
-/

import Deferral.Proofs.Calendar.Shifts
import Deferral.Proofs.Directive.Stamps

namespace Deferral

/-! ## Numbers before marks -/

/-- What a number has to be, as a check of its digits. -/
theorem Admissible.of_all {maximum shortest longest : Nat} {digits : List Char}
    (h : digits.all Char.isDigit = true ∧ shortest ≤ digits.length ∧ digits.length ≤ longest ∧
      valueOfAscii digits ≤ maximum) : Admissible maximum shortest longest digits :=
  ⟨List.all_eq_true.mp h.1, h.2.1, h.2.2.1, h.2.2.2⟩

/-- A prefix that is no shorter than the first of two parts continues it in the second one. -/
theorem exists_more_of_prefix {first second other : List Char} (h : other <+: first ++ second)
    (hlength : first.length ≤ other.length) :
    ∃ more, other = first ++ more ∧ more <+: second := by
  obtain ⟨more, rfl⟩ := List.prefix_of_prefix_length_le (List.prefix_append first second) h hlength
  exact ⟨more, rfl, (List.prefix_append_right_inj first).mp h⟩

/-- Digits that end before another character are as many as there are. -/
theorem length_le_of_digits_prefix {digits other rest : List Char}
    (hrest : ∀ c ∈ rest.head?, c.isDigit = false) (hother : other <+: digits ++ rest)
    (hdigits : ∀ c ∈ other, c.isDigit = true) : other.length ≤ digits.length := by
  by_contra hlonger
  obtain ⟨more, rfl, hmore⟩ := exists_more_of_prefix hother (by omega)
  cases more with
  | nil => simp at hlonger
  | cons c more =>
      obtain ⟨after, rfl⟩ := hmore
      have hc : c.isDigit = true := hdigits c (by simp)
      rw [hrest c rfl] at hc
      cases hc

namespace Numeral

variable {maximum shortest longest : Nat} (n : Numeral maximum shortest longest)

/-- A number before a mark is taken whole. -/
theorem takeBounded?_append (hshortest : 0 < shortest) {rest : List Char}
    (hrest : ∀ c ∈ rest.head?, c.isDigit = false) :
    takeBounded? maximum shortest longest (n.digits ++ rest) = some (n.value, rest) :=
  (takeBounded?_eq_some_iff hshortest).mpr ⟨n.digits, rfl, n.admissible, rfl,
    fun _ hother hadmissible => length_le_of_digits_prefix hrest hother hadmissible.isDigit⟩

theorem takeBounded?_self (hshortest : 0 < shortest) :
    takeBounded? maximum shortest longest n.digits = some (n.value, []) := by
  have htake := n.takeBounded?_append hshortest
    (show ∀ c ∈ ([] : List Char).head?, c.isDigit = false by simp)
  rwa [List.append_nil] at htake

theorem takeFixed?_append {width : Nat} (n : Numeral maximum width width) (rest : List Char) :
    takeFixed? width (n.digits ++ rest) = some (n.value, rest) :=
  takeFixed?_eq_some_iff.mpr ⟨n.digits, rfl,
    Nat.le_antisymm n.admissible.le_longest n.admissible.shortest_le, n.admissible.isDigit, rfl⟩

theorem value_le : n.value ≤ maximum := n.admissible.value_le

end Numeral

/-! ## Seconds -/

namespace StampSecond

/-- The microseconds of the fraction. -/
def part (s : StampSecond) : Nat := (s.fraction.map (valueOfAscii ∘ sixDigits)).getD 0

theorem micros_eq (s : StampSecond) : s.micros = s.second.value * microsPerSecond + s.part := rfl

theorem part_lt (s : StampSecond) : s.part < microsPerSecond := by
  rw [part]
  cases hfraction : s.fraction with
  | none => decide
  | some digits =>
      have hlength : (sixDigits digits).length = 6 := by
        simp [sixDigits]
      have hdigits : ∀ c ∈ sixDigits digits, c.isDigit = true := by
        intro c hc
        rcases List.mem_append.mp (List.mem_of_mem_take hc) with hc | hc
        · exact s.isDigit digits hfraction c hc
        · rw [List.eq_of_mem_replicate hc]
          rfl
      have hlt := valueOfAscii_lt hdigits
      rw [hlength] at hlt
      exact hlt

/-- The colon, the second and its fraction are taken where a zone follows. -/
theorem readSeconds_text (s : StampSecond) {c : Char} {rest : List Char}
    (hdigit : c.isDigit = false) (hpoint : c ≠ '.') :
    readSeconds (s.text ++ c :: rest) = (s.second.value, s.part, c :: rest) := by
  obtain ⟨second, fraction, hfraction⟩ := s
  have htake : ∀ {after : List Char}, (∀ d ∈ after.head?, d.isDigit = false) →
      (dropWord? [':'] (':' :: (second.digits ++ after))).bind takeSixtieth? =
        some (second.value, after) :=
    fun hafter => second.takeBounded?_append Nat.one_pos hafter
  cases fraction with
  | none =>
      have hafter : ∀ d ∈ (c :: rest).head?, d.isDigit = false := by
        rintro d ⟨rfl⟩
        exact hdigit
      have hnot : '.' ∉ (c :: rest).head? := by
        simpa using hpoint
      rw [text]
      simp only [Option.map_none, Option.getD_none, List.append_nil, List.cons_append]
      exact readSeconds_whole (htake hafter) hnot
  | some digits =>
      have hafter : ∀ d ∈ ('.' :: (digits ++ c :: rest)).head?, d.isDigit = false := by
        rintro d ⟨rfl⟩
        rfl
      have hdigits := hfraction digits rfl
      rw [text]
      simp only [Option.map_some, Option.getD_some, List.cons_append, List.append_assoc]
      rw [readSeconds_point (htake hafter), takeWhile_isDigit_append hdigits hdigit,
        dropWhile_isDigit_append hdigits hdigit, fractionMicros_eq]
      rfl

end StampSecond

/-! ## Offsets -/

namespace StampZone

/-- There is no doubt where the hours end: there are none, a colon follows, or there are four
digits. -/
def Plain : StampZone → Prop
  | utc _ _ => True
  | offset _ hours colon minutes => colon = true ∨ hours.digits.length + minutes.digits.length = 4

/-- Two digits without a colon that could be hours without minutes. -/
def LooksLikeHours : StampZone → Prop
  | utc _ _ => False
  | offset _ hours colon minutes => colon = false ∧
      Admissible 23 1 2 (hours.digits ++ minutes.digits)

/-- The hours have as many digits as they can have. -/
def Greedy : StampZone → Prop
  | utc _ _ => True
  | offset _ hours colon minutes => colon = true ∨
      ∀ more, more <+: minutes.digits → Admissible 23 1 2 (hours.digits ++ more) → more = []

/-- An offset begins with a letter or a sign. -/
theorem text_eq_cons (zone : StampZone) :
    ∃ c rest, zone.text = c :: rest ∧ c.isDigit = false ∧ c ≠ '.' ∧ c ≠ ':' := by
  cases zone with
  | utc mark hmark =>
      refine ⟨mark, [], rfl, ?_⟩
      rcases hmark with rfl | rfl <;> decide
  | offset ahead hours colon minutes =>
      cases ahead with
      | true => exact ⟨'+', _, rfl, by decide⟩
      | false => exact ⟨'-', _, rfl, by decide⟩

theorem abs_minutesAhead_lt (zone : StampZone) :
    -1440 < zone.minutesAhead ∧ zone.minutesAhead < 1440 := by
  cases zone with
  | utc mark hmark =>
      show (-1440 : Int) < 0 ∧ (0 : Int) < 1440
      decide
  | offset ahead hours colon minutes =>
      have hhours := hours.value_le
      have hminutes := minutes.value_le
      simp only [minutesAhead]
      split <;> omega

/-- A sign is not the letter of UTC. -/
theorem dropUtc?_sign {sign : Char} (hsign : sign = '+' ∨ sign = '-') (rest : List Char) :
    dropWord? ['z'] (sign :: rest) = none := by
  rcases hsign with rfl | rfl <;> rfl

/-- The reader of an offset with hours and minutes goes by their sizes. -/
theorem readZone?_offset (ahead : Bool) (hours : Numeral 23 1 2) (colon : Bool)
    (minutes : Numeral 59 1 2) :
    readZone? (offset ahead hours colon minutes).text =
      (readOffsetSize? (hours.digits ++ ((if colon then [':'] else []) ++ minutes.digits))).map
        fun size => (if ahead then (size.1 : Int) else -(size.1 : Int), size.2) := by
  cases ahead with
  | true => simp only [text, if_true, readZone?, dropUtc?_sign (Or.inl rfl)]
  | false =>
      simp only [text, Bool.false_eq_true, if_false, readZone?, dropUtc?_sign (Or.inr rfl)]

variable {hours : Numeral 23 1 2} {minutes : Numeral 59 1 2}

/-- A colon ends the hours. -/
theorem readOffsetSize?_colon : readOffsetSize? (hours.digits ++ ':' :: minutes.digits) =
    some (hours.value * 60 + minutes.value, []) := by
  have hhours : takeHour? (hours.digits ++ ':' :: minutes.digits) =
      some (hours.value, ':' :: minutes.digits) := by
    refine hours.takeBounded?_append Nat.one_pos ?_
    rintro c ⟨rfl⟩
    rfl
  have hminutes : takeSixtieth? minutes.digits = some (minutes.value, []) :=
    minutes.takeBounded?_self Nat.one_pos
  refine Option.bind_eq_some_iff.mpr ⟨_, hhours, ?_⟩
  exact Option.bind_eq_some_iff.mpr ⟨_, hminutes, rfl⟩

/-- Without a colon the hours end where one more digit would make them too long or too large. -/
theorem readOffsetSize?_joined
    (h : ∀ more, more <+: minutes.digits → Admissible 23 1 2 (hours.digits ++ more) → more = []) :
    readOffsetSize? (hours.digits ++ minutes.digits) =
      some (hours.value * 60 + minutes.value, []) := by
  have hhours : takeHour? (hours.digits ++ minutes.digits) =
      some (hours.value, minutes.digits) := by
    refine (takeBounded?_eq_some_iff Nat.one_pos).mpr ⟨hours.digits, rfl,
      hours.admissible, rfl, fun other hother hadmissible => ?_⟩
    by_contra hlonger
    obtain ⟨more, rfl, hmore⟩ := exists_more_of_prefix hother (by omega)
    rw [h more hmore hadmissible] at hlonger
    simp at hlonger
  have hcolon : dropWord? [':'] minutes.digits = none := by
    obtain ⟨c, digits, hdigits⟩ :=
      List.exists_cons_of_ne_nil (minutes.digits_ne_nil Nat.one_pos)
    have hc : c.isDigit = true := minutes.admissible.isDigit c (by simp [hdigits])
    rw [hdigits, dropWord?, if_neg]
    intro hlower
    rw [eq_of_lowerToAscii hlower (by decide)] at hc
    cases hc
  have hminutes : takeSixtieth? minutes.digits = some (minutes.value, []) :=
    minutes.takeBounded?_self Nat.one_pos
  refine Option.bind_eq_some_iff.mpr ⟨_, hhours, ?_⟩
  dsimp only
  rw [hcolon]
  exact Option.bind_eq_some_iff.mpr ⟨_, hminutes, rfl⟩

/-- Hours that are as long as they can be are taken as they are, and so are the minutes. -/
theorem readZone?_text {zone : StampZone} (h : zone.Greedy) :
    readZone? zone.text = some (zone.minutesAhead, []) := by
  cases zone with
  | utc mark hmark => rcases hmark with rfl | rfl <;> rfl
  | offset ahead hours colon minutes =>
      have hsize : readOffsetSize?
          (hours.digits ++ ((if colon then [':'] else []) ++ minutes.digits)) =
            some (hours.value * 60 + minutes.value, []) := by
        cases colon with
        | true => exact readOffsetSize?_colon
        | false => exact readOffsetSize?_joined (h.resolve_left Bool.false_ne_true)
      rw [readZone?_offset, hsize]
      cases ahead <;> simp [minutesAhead]

/-- After two digits that look like hours there are no minutes. -/
theorem readZone?_of_looksLikeHours {zone : StampZone} (h : zone.LooksLikeHours) :
    readZone? zone.text = none := by
  cases zone with
  | utc mark hmark => exact absurd h not_false
  | offset ahead hours colon minutes =>
      obtain ⟨rfl, hadmissible⟩ := h
      have hhours : takeHour? (hours.digits ++ minutes.digits) =
          some (valueOfAscii (hours.digits ++ minutes.digits), []) :=
        (⟨_, hadmissible⟩ : Numeral 23 1 2).takeBounded?_self Nat.one_pos
      have hsize : readOffsetSize? (hours.digits ++ ([] ++ minutes.digits)) = none := by
        rw [List.nil_append, readOffsetSize?, hhours]
        rfl
      rw [readZone?_offset, if_neg Bool.false_ne_true, hsize]
      rfl

/-- Where there is no doubt the hours are as long as they can be. -/
theorem Plain.greedy {zone : StampZone} (h : zone.Plain) : zone.Greedy := by
  cases zone with
  | utc mark hmark => exact trivial
  | offset ahead hours colon minutes =>
      rcases h with hcolon | hfour
      · exact Or.inl hcolon
      · -- Of four digits the hours have two, as many as they may have.
        refine Or.inr fun more _ hadmissible => ?_
        have hle := hadmissible.le_longest
        have hminutes := minutes.admissible.le_longest
        rw [List.length_append] at hle
        exact List.length_eq_zero_iff.mp (by omega)

/-- Every offset has a reading in which the hours are as long as they can be, unless all its digits
look like hours. -/
theorem exists_greedy {zone : StampZone} (h : ¬ zone.LooksLikeHours) :
    ∃ other : StampZone, other.text = zone.text ∧ other.Greedy := by
  by_cases hgreedy : zone.Greedy
  · exact ⟨zone, rfl, hgreedy⟩
  · cases zone with
    | utc mark hmark => exact absurd trivial hgreedy
    | offset ahead hours colon minutes =>
        simp only [Greedy, not_or, not_forall] at hgreedy
        obtain ⟨hcolon, more, ⟨minute, hminutes⟩, hadmissible, hmore⟩ := hgreedy
        obtain rfl : colon = false := by simpa using hcolon
        -- One digit more belongs to the hours, and another one is left for the minutes.
        have hminute : minute ≠ [] := by
          rintro rfl
          rw [List.append_nil] at hminutes
          exact h ⟨rfl, hminutes ▸ hadmissible⟩
        have hmoreLength := List.length_pos_iff.mpr hmore
        have hminuteLength := List.length_pos_iff.mpr hminute
        have hlength : more.length + minute.length ≤ 2 := by
          rw [← List.length_append, hminutes]
          exact minutes.admissible.le_longest
        have hdigits : ∀ c ∈ minute, c.isDigit = true := fun c hc =>
          minutes.admissible.isDigit c (hminutes ▸ List.mem_append_right more hc)
        have hone : minute.length = 1 := by omega
        have hlt := valueOfAscii_lt hdigits
        rw [hone] at hlt
        refine ⟨offset ahead ⟨hours.digits ++ more, hadmissible⟩ false
          ⟨minute, hdigits, hminuteLength, by omega, by omega⟩, ?_, Or.inr ?_⟩
        · simp [text, ← hminutes]
        · intro further _ hfurther
          have hle := hfurther.le_longest
          have hhours := hours.admissible.shortest_le
          simp only [List.length_append] at hle
          exact List.length_eq_zero_iff.mp (by omega)

end StampZone

/-! ## Timestamps -/

/-- The calendar and the clock have the fields of a date and of a clock reading. -/
theorem Instant.exists_ofFields? (d : Date) {hour minute second micros : Nat} (hhour : hour ≤ 23)
    (hminute : minute ≤ 59) (hsecond : second ≤ 59) (hmicros : micros < microsPerSecond) :
    ∃ wall, ofFields? d.year d.month d.dayOfMonth hour minute second micros = some wall ∧
      wall.micros = d.day * microsPerDay + (hour * microsPerHour + minute * microsPerMinute +
        second * microsPerSecond + micros) := by
  rw [ofFields?, Date.ofFields?_fields, Option.bind_some,
    dif_pos ⟨hhour, hminute, hsecond, hmicros⟩]
  exact ⟨_, rfl, rfl⟩

namespace Stamp

/-- The second of the clock, which may be left out. -/
def secondValue (s : Stamp) : Nat := (s.second.map fun t => t.second.value).getD 0

/-- The microsecond of the clock. -/
def partValue (s : Stamp) : Nat := (s.second.map StampSecond.part).getD 0

theorem secondValue_le (s : Stamp) : s.secondValue ≤ 59 := by
  rw [secondValue]
  cases s.second with
  | none => exact Nat.zero_le 59
  | some t => exact t.second.value_le

theorem partValue_lt (s : Stamp) : s.partValue < microsPerSecond := by
  rw [partValue]
  cases s.second with
  | none => decide
  | some t => exact t.part_lt

theorem sinceMidnight_eq (s : Stamp) : s.sinceMidnight = s.hour.value * microsPerHour +
    s.minute.value * microsPerMinute + s.secondValue * microsPerSecond + s.partValue := by
  rw [sinceMidnight, secondValue, partValue]
  cases s.second with
  | none => simp
  | some t => simp [StampSecond.micros_eq, Nat.add_assoc]

/-- The seconds are taken up to the offset. -/
theorem readSeconds_text (s : Stamp) (rest : List Char) :
    readSeconds ((s.second.map StampSecond.text).getD [] ++ (s.zone.text ++ rest)) =
      (s.secondValue, s.partValue, s.zone.text ++ rest) := by
  obtain ⟨c, zone, htext, hdigit, hpoint, hcolon⟩ := s.zone.text_eq_cons
  rw [secondValue, partValue, htext, List.cons_append]
  cases s.second with
  | none =>
      have hnone : (dropWord? [':'] (c :: (zone ++ rest))).bind takeSixtieth? = none := by
        rw [dropWord?, if_neg]
        · rfl
        · intro hlower
          exact hcolon (eq_of_lowerToAscii hlower (by decide))
      exact readSeconds_none hnone
  | some t => exact t.readSeconds_text hdigit hpoint

/-- A timestamp is read up to its offset whatever its fields are and whatever follows it, and what
is left to do is to read the offset and to find the instant. -/
theorem readMoment?_append (s : Stamp) (rest : List Char) :
    readMoment? (s.text ++ rest) = (readZone? (s.zone.text ++ rest)).bind fun zone =>
      (Instant.ofFields? s.year.value s.month.value s.dayOfMonth.value s.hour.value s.minute.value
        s.secondValue s.partValue).bind fun wall =>
          (wall.shift? (-(zone.1 * microsPerMinute))).bind fun i => some (i, zone.2) := by
  have hmark : ∀ rest, dropWord? ['t'] (s.mark :: rest) = some rest := by
    intro rest
    rcases s.mark_eq with hmark | hmark <;> rw [hmark] <;> rfl
  have hhyphen : ∀ rest, dropWord? ['-'] ('-' :: rest) = some rest := fun _ => rfl
  have hcolon : ∀ rest, dropWord? [':'] (':' :: rest) = some rest := fun _ => rfl
  have hhour : ∀ rest, takeHour? (s.hour.digits ++ ':' :: rest) =
      some (s.hour.value, ':' :: rest) := by
    intro rest
    refine s.hour.takeBounded?_append Nat.one_pos ?_
    rintro c ⟨rfl⟩
    rfl
  have hminute : takeSixtieth? (s.minute.digits ++
      ((s.second.map StampSecond.text).getD [] ++ (s.zone.text ++ rest))) =
        some (s.minute.value,
          (s.second.map StampSecond.text).getD [] ++ (s.zone.text ++ rest)) := by
    refine s.minute.takeBounded?_append Nat.one_pos ?_
    obtain ⟨c, zone, htext, hdigit, -, -⟩ := s.zone.text_eq_cons
    rw [htext]
    cases s.second with
    | none =>
        rintro d ⟨rfl⟩
        exact hdigit
    | some t =>
        rintro d ⟨rfl⟩
        rfl
  simp only [readMoment?, text, List.append_assoc, List.cons_append, Numeral.takeFixed?_append,
    hhyphen, hmark, hhour, hcolon, hminute, s.readSeconds_text, Option.bind_eq_bind,
    Option.bind_some]

theorem readMoment?_text (s : Stamp) : readMoment? s.text = (readZone? s.zone.text).bind fun zone =>
    (Instant.ofFields? s.year.value s.month.value s.dayOfMonth.value s.hour.value s.minute.value
      s.secondValue s.partValue).bind fun wall =>
        (wall.shift? (-(zone.1 * microsPerMinute))).bind fun i => some (i, zone.2) := by
  simpa only [List.append_nil] using s.readMoment?_append []

/-- Where the hours of the offset are as long as they can be, the timestamp is read as the instant
that it denotes. -/
theorem parseTimestamp?_text {s : Stamp} (hgreedy : s.zone.Greedy) {i : Instant}
    (h : s.Denotes i) : parseTimestamp? s.text = some i := by
  obtain ⟨d, hyear, hmonth, hday, hmicros⟩ := h
  obtain ⟨wall, hwall, hwallMicros⟩ := Instant.exists_ofFields? d s.hour.value_le s.minute.value_le
    s.secondValue_le s.partValue_lt
  rw [← sinceMidnight_eq] at hwallMicros
  have hshift : wall.shift? (-(s.zone.minutesAhead * microsPerMinute)) = some i := by
    rw [Instant.shift?, Instant.ofMicros?_eq_some_iff, hwallMicros]
    have hsum : (i.micros : Int) = (d.day * microsPerDay + s.sinceMidnight : Nat) +
        -(s.zone.minutesAhead * microsPerMinute) := hmicros
    exact ⟨hsum ▸ i.hasMicros, hsum⟩
  have hread : readMoment? s.text = some (i, []) := by
    rw [readMoment?_text, StampZone.readZone?_text hgreedy, Option.bind_some, ← hyear, ← hmonth,
      ← hday, hwall, Option.bind_some, hshift]
    rfl
  rw [parseTimestamp?, s.stripBlanks_text, hread]

theorem parseTimestamp?_of_looksLikeHours {s : Stamp} (h : s.zone.LooksLikeHours) :
    parseTimestamp? s.text = none := by
  have hread : readMoment? s.text = none := by
    rw [readMoment?_text, StampZone.readZone?_of_looksLikeHours h, Option.bind_none]
  rw [parseTimestamp?, s.stripBlanks_text, hread]

theorem sinceMidnight_lt (s : Stamp) : s.sinceMidnight < microsPerDay := by
  have hhour := s.hour.value_le
  have hminute := s.minute.value_le
  have hsecond := s.secondValue_le
  have hpart := s.partValue_lt
  rw [sinceMidnight_eq]
  simp only [microsPerDay, microsPerHour, microsPerMinute, microsPerSecond] at *
  omega

/-- On all days but the first and the last one of the calendar, no offset leads off it. -/
theorem exists_denotes_of_inner (s : Stamp) {d : Date} (hyear : d.year = s.year.value)
    (hmonth : d.month = s.month.value) (hday : d.dayOfMonth = s.dayOfMonth.value)
    (hfirst : 1 ≤ d.day) (hlast : d.day + 1 < Date.dayCount) : ∃ i, s.Denotes i := by
  have hclock := s.sinceMidnight_lt
  obtain ⟨hbehind, hahead⟩ := s.zone.abs_minutesAhead_lt
  have hmicros : HasMicros ((d.day * microsPerDay + s.sinceMidnight : Nat) -
      s.zone.minutesAhead * microsPerMinute) := by
    simp only [HasMicros, Date.dayCount, microsPerDay, microsPerHour, microsPerMinute,
      microsPerSecond] at *
    omega
  obtain ⟨i, hi⟩ := Instant.exists_ofMicros?_iff.mpr hmicros
  exact ⟨i, d, hyear, hmonth, hday, (Instant.ofMicros?_eq_some_iff.mp hi).2⟩

/-- The text of a timestamp does not say more of its offset than the text of the offset does. -/
theorem text_with_zone (s : Stamp) {zone : StampZone} (h : zone.text = s.zone.text) :
    ({ s with zone } : Stamp).text = s.text := by
  simp only [text, h]

end Stamp

/-- **A timestamp is accepted unless its offset looks like hours alone.** Let every reading of the
digits of the offset denote an instant of the calendar. If there are two digits without a colon
that could be hours, the timestamp is refused; otherwise it is accepted, and the instant is that of
one of the readings. Where there is no doubt about the offset, it is the instant that the timestamp
denotes. -/
theorem Stamp.acceptance (s : Stamp)
    (h : ∀ zone : StampZone, zone.text = s.zone.text → ∃ i, ({ s with zone } : Stamp).Denotes i) :
    (s.zone.LooksLikeHours → parseTimestamp? s.text = none) ∧
    (¬ s.zone.LooksLikeHours → ∃ zone i, zone.text = s.zone.text ∧
      ({ s with zone } : Stamp).Denotes i ∧ parseTimestamp? s.text = some i) ∧
    (s.zone.Plain → ∃ i, s.Denotes i ∧ parseTimestamp? s.text = some i) := by
  refine ⟨parseTimestamp?_of_looksLikeHours, fun hhours => ?_, fun hplain => ?_⟩
  · obtain ⟨zone, htext, hgreedy⟩ := StampZone.exists_greedy hhours
    obtain ⟨i, hi⟩ := h zone htext
    refine ⟨zone, i, htext, hi, ?_⟩
    rw [← s.text_with_zone htext]
    exact parseTimestamp?_text hgreedy hi
  · obtain ⟨i, hi⟩ := h s.zone rfl
    exact ⟨i, hi, parseTimestamp?_text hplain.greedy hi⟩

/-- A minute before noon on the 18th of February 2024, with an offset of the given digits. -/
def februaryNoon (hours : Numeral 23 1 2) (minutes : Numeral 59 1 2) : Stamp where
  year := ⟨"2024".toList, .of_all (by decide)⟩
  month := ⟨"02".toList, .of_all (by decide)⟩
  dayOfMonth := ⟨"18".toList, .of_all (by decide)⟩
  mark := 't'
  mark_eq := Or.inl rfl
  hour := ⟨"11".toList, .of_all (by decide)⟩
  minute := ⟨"59".toList, .of_all (by decide)⟩
  second := none
  zone := .offset true hours false minutes

/-- All readings of its offset denote instants. -/
theorem exists_februaryNoon_denotes (hours : Numeral 23 1 2) (minutes : Numeral 59 1 2)
    (zone : StampZone) : ∃ i, ({ februaryNoon hours minutes with zone } : Stamp).Denotes i :=
  Stamp.exists_denotes_of_inner _ rfl rfl rfl
    (show 1 ≤ (⟨2024, 2, 18, by decide, by decide, by decide, by decide, by decide, by decide⟩ :
      Date).day by decide +kernel) (by decide +kernel)

/-- An hour and thirty minutes, or thirteen hours and no minute. -/
def threeDigits : Stamp :=
  februaryNoon ⟨['1'], .of_all (by decide)⟩
    ⟨"30".toList, .of_all (by decide)⟩

theorem acceptance_threeDigits :
    threeDigits.text = "2024-02-18t11:59+130".toList ∧
    (∀ zone : StampZone, zone.text = threeDigits.zone.text →
      ∃ i, ({ threeDigits with zone } : Stamp).Denotes i) ∧
    ∃ zone i, zone.text = "+130".toList ∧ ({ threeDigits with zone } : Stamp).Denotes i ∧
      parseTimestamp? "2024-02-18t11:59+130".toList = some i := by
  have hreadings : ∀ zone : StampZone, zone.text = threeDigits.zone.text →
      ∃ i, ({ threeDigits with zone } : Stamp).Denotes i :=
    fun zone _ => exists_februaryNoon_denotes _ _ zone
  have hhours : ¬ threeDigits.zone.LooksLikeHours := fun h => absurd h.2.le_longest (by decide)
  exact ⟨rfl, hreadings, (Stamp.acceptance threeDigits hreadings).2.1 hhours⟩

/-- An hour and two minutes. -/
def twoDigits : Stamp :=
  februaryNoon ⟨['1'], .of_all (by decide)⟩
    ⟨['2'], .of_all (by decide)⟩

/-- An offset of an hour and two minutes is written as twelve hours are, and refused. -/
theorem twoDigits_refused :
    twoDigits.text = "2024-02-18t11:59+12".toList ∧
    (∀ zone : StampZone, zone.text = twoDigits.zone.text →
      ∃ i, ({ twoDigits with zone } : Stamp).Denotes i) ∧
    ¬ ∃ i, parseTimestamp? twoDigits.text = some i := by
  refine ⟨rfl, fun zone _ => exists_februaryNoon_denotes _ _ zone, ?_⟩
  have hnone : parseTimestamp? twoDigits.text = none := by decide +kernel
  rw [hnone]
  simp

end Deferral
