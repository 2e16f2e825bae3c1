/-
# Deferral.Proofs.Calendar.Arithmetic -- shifts by units are exact

A shift by seconds to weeks adds microseconds: it gives the instant at the sum, and fails only
where the calendar has none. A shift by months or years adds months to the month of a date. The
time of day stays, and so does the day, or it becomes the last one of a month that is too short.
Either kind of shift sees of a clock reading only the instant that it denotes.
-/

import Deferral.Proofs.Calendar.Order

namespace Deferral

/-! ## Units by name -/

theorem TimeUnit.ofName?_name (unit : TimeUnit) : ofName? unit.name = some unit := by
  cases unit <;> decide

namespace DateTime

/-- A shift of a clock reading is one of its instant. -/
theorem addUnits_of_toInstant {base : DateTime} {b : Instant} (h : base.toInstant = .ok b)
    (unit : TimeUnit) (amount : Int) : base.addUnits unit.name amount = b.add unit amount := by
  rw [addUnits, TimeUnit.ofName?_name, h]
  rfl

theorem toInstant_utc (i : Instant) : (utc i).toInstant = .ok i := by
  rw [toInstant_eq_ok_iff, utcMicros, utc]
  simp [Offset.utc]

/-- Readings of one instant have the same shifts, whatever their offsets. -/
theorem addUnits_congr {base other : DateTime} (h : base.OnCalendar)
    (hsame : other.utcMicros = base.utcMicros) (unit : TimeUnit) (amount : Int) :
    other.addUnits unit.name amount = base.addUnits unit.name amount := by
  obtain ⟨b, hb⟩ := exists_toInstant_iff.mpr h
  have hother : other.toInstant = .ok b := by
    rw [toInstant_eq_ok_iff, hsame]
    exact toInstant_eq_ok_iff.mp hb
  rw [addUnits_of_toInstant hb, addUnits_of_toInstant hother]

end DateTime

/-! ## Along the time line -/

/-- The units of a fixed length, with their seconds. -/
def fixedUnits : List (TimeUnit × Nat) :=
  [(.second, 1), (.minute, 60), (.hour, 3600), (.day, 86400), (.week, 604800)]

theorem stride_of_mem_fixedUnits :
    ∀ entry ∈ fixedUnits, entry.1.stride = .span (entry.2 * microsPerSecond) := by
  decide

namespace Instant

/-- The microseconds from the beginning of the calendar to what the date and the clock of an
instant show. -/
def shownMicros (i : Instant) : Nat :=
  i.date.day * microsPerDay + (i.hour * microsPerHour + i.minute * microsPerMinute +
    i.second * microsPerSecond + i.microsecond)

theorem shownMicros_eq (i : Instant) : i.shownMicros = i.micros := by
  rw [shownMicros, sum_fields, micros_eq]

theorem eq_of_micros_eq {i j : Instant} (h : i.micros = j.micros) : i = j := by
  cases i
  cases j
  cases h
  rfl

/-- A shift along the time line gives exactly the instant at the sum. -/
theorem addSpan_eq_ok_iff {i moved : Instant} {micros : Int} :
    i.addSpan micros = .ok moved ↔ (moved.micros : Int) = i.micros + micros := by
  have hshift : i.shift? micros = some moved ↔ (moved.micros : Int) = i.micros + micros := by
    rw [shift?, ofMicros?_eq_some_iff]
    exact ⟨And.right, fun h => ⟨h ▸ moved.hasMicros, h⟩⟩
  rw [← hshift, addSpan]
  cases i.shift? micros with
  | none => simp only [reduceCtorEq]
  | some j => simp only [Except.ok.injEq, Option.some.injEq]

theorem exists_addSpan_iff {i : Instant} {micros : Int} :
    (∃ moved, i.addSpan micros = .ok moved) ↔ HasMicros (i.micros + micros) := by
  rw [← exists_ofMicros?_iff]
  simp only [addSpan_eq_ok_iff, ofMicros?_eq_some_iff]
  constructor
  · rintro ⟨moved, h⟩
    exact ⟨moved, h ▸ moved.hasMicros, h⟩
  · rintro ⟨moved, -, h⟩
    exact ⟨moved, h⟩

/-- It has one way to fail. -/
theorem addSpan_of_not_hasMicros {i : Instant} {micros : Int}
    (h : ¬ HasMicros (i.micros + micros)) :
    i.addSpan micros = .error .offCalendar := by
  rw [addSpan]
  cases hshift : i.shift? micros with
  | none => rfl
  | some moved => exact absurd (ofMicros?_eq_some_iff.mp hshift).1 h

/-- Two shifts along the time line are one shift by their sum. -/
theorem addSpan_addSpan {i between : Instant} {a b : Int} (h : i.addSpan a = .ok between) :
    between.addSpan b = i.addSpan (a + b) := by
  rw [addSpan_eq_ok_iff] at h
  rw [addSpan, addSpan, shift?, shift?, h, Int.add_assoc]

theorem add_of_mem_fixedUnits {unit : TimeUnit} {seconds : Nat} (h : (unit, seconds) ∈ fixedUnits)
    (i : Instant) (amount : Int) :
    i.add unit amount = i.addSpan (amount * (seconds * microsPerSecond : Nat)) := by
  rw [add, stride_of_mem_fixedUnits _ h, Int.mul_comm]

end Instant

/-- The microseconds from the beginning of the calendar to what the date and the clock of a
reading show, less its offset. -/
def DateTime.shownUtcMicros (t : DateTime) : Int :=
  t.wall.shownMicros - (t.offset.map Offset.micros).getD 0

theorem DateTime.shownUtcMicros_eq (t : DateTime) : t.shownUtcMicros = t.utcMicros := by
  rw [shownUtcMicros, Instant.shownMicros_eq, utcMicros]

/-- **Shifts by units of a fixed length are exact.** With the microseconds of a reading and of the
shift added up, there is a result if the calendar has an instant at the sum, and its date and its
clock show exactly that many microseconds; otherwise the shift fails because it leads off the
calendar. Readings of one instant have the same shifts, and a shift by `m` units followed by one by
`n` units is a shift by `m + n` units. -/
theorem DateTime.addUnits_fixed_length {base : DateTime} (h : base.OnCalendar) {unit : TimeUnit}
    {seconds : Nat} (hunit : (unit, seconds) ∈ fixedUnits) (amount : Int) :
    let sum : Int := base.shownUtcMicros + amount * (seconds * microsPerSecond : Nat)
    ((∃ moved, base.addUnits unit.name amount = .ok moved) ↔ HasMicros sum) ∧
    (∀ moved, base.addUnits unit.name amount = .ok moved ↔ (moved.shownMicros : Int) = sum) ∧
    (¬ HasMicros sum → base.addUnits unit.name amount = .error .offCalendar) ∧
    (∀ other : DateTime, other.utcMicros = base.utcMicros →
      other.addUnits unit.name amount = base.addUnits unit.name amount) ∧
    ∀ m n between, base.addUnits unit.name m = .ok between →
      (utc between).addUnits unit.name n = base.addUnits unit.name (m + n) := by
  obtain ⟨b, hb⟩ := exists_toInstant_iff.mpr h
  have hshift : ∀ n : Int, base.addUnits unit.name n =
      b.addSpan (n * (seconds * microsPerSecond : Nat)) := by
    intro n
    rw [addUnits_of_toInstant hb, Instant.add_of_mem_fixedUnits hunit]
  have hsum : base.shownUtcMicros = b.micros := by
    rw [shownUtcMicros_eq]
    exact (toInstant_eq_ok_iff.mp hb).symm
  simp only [hshift, hsum, Instant.shownMicros_eq]
  refine ⟨Instant.exists_addSpan_iff, fun moved => Instant.addSpan_eq_ok_iff,
    Instant.addSpan_of_not_hasMicros, fun other hother => ?_, fun m n between hbetween => ?_⟩
  · rw [addUnits_congr h hother, hshift]
  · rw [addUnits_of_toInstant (toInstant_utc between), Instant.add_of_mem_fixedUnits hunit,
      Instant.addSpan_addSpan hbetween, Int.add_mul]

/-- Half past midnight on the first of March 2024, two hours ahead of UTC, where it still is the
29th of February. -/
def marchHour : DateTime :=
  ⟨⟨63844849800000000, by decide⟩, some ⟨2 * microsPerHour, by decide, by decide⟩⟩

/-- A week later it is the 7th of March. -/
theorem addUnits_fixed_length_week :
    marchHour.OnCalendar ∧ (TimeUnit.week, 604800) ∈ fixedUnits ∧
      marchHour.addUnits "week" 1 = .ok ⟨63845447400000000, by decide⟩ := by
  have hon : marchHour.OnCalendar := ⟨by decide, by decide⟩
  have hweek : (TimeUnit.week, 604800) ∈ fixedUnits := by decide
  obtain ⟨-, hmoved, -⟩ := DateTime.addUnits_fixed_length hon hweek 1
  exact ⟨hon, hweek, (hmoved _).mpr (by decide +kernel)⟩

/-! ## By months -/

/-- The units that are counted in months, with their number. -/
def monthUnits : List (TimeUnit × Nat) := [(.month, 1), (.year, 12)]

theorem stride_of_mem_monthUnits : ∀ entry ∈ monthUnits, entry.1.stride = .months entry.2 := by
  decide

namespace Instant

/-- The year to which a shift by some months leads. -/
def targetYear (i : Instant) (count : Int) : Int :=
  (12 * i.date.year + i.date.month - 1 + count) / 12

/-- An instant lies some months after another one: its month does, it has the same time of day,
and the same day as far as the month has it. -/
structure MonthsAfter (i : Instant) (count : Int) (moved : Instant) : Prop where
  month : (12 * moved.date.year + moved.date.month : Int) =
    12 * i.date.year + i.date.month + count
  sinceMidnight : moved.sinceMidnight = i.sinceMidnight
  dayOfMonth : moved.date.dayOfMonth =
    min i.date.dayOfMonth (daysInMonth moved.date.year moved.date.month)

variable {i moved : Instant} {count : Int}

theorem monthIndex_eq (d : Date) : (d.monthIndex : Int) = 12 * d.year + d.month - 1 := by
  have hone := d.one_le_month
  simp only [Date.monthIndex]
  omega

/-- There is one instant at most that lies some months after another one. -/
theorem MonthsAfter.unique {other : Instant} (h : i.MonthsAfter count moved)
    (h' : i.MonthsAfter count other) : moved = other := by
  have hindex : moved.date.monthIndex = other.date.monthIndex := by
    have hmoved := monthIndex_eq moved.date
    have hother := monthIndex_eq other.date
    have hmonth := h.month
    have hmonth' := h'.month
    omega
  have hday : moved.date.dayOfMonth = other.date.dayOfMonth := by
    rw [h.dayOfMonth, h'.dayOfMonth, ← Date.monthLength_monthIndex, ← Date.monthLength_monthIndex,
      hindex]
  refine eq_of_micros_eq ?_
  rw [micros_eq, micros_eq, Date.eq_of_monthIndex_eq hindex hday, h.sinceMidnight,
    h'.sinceMidnight]

/-- The year of a shifted instant is the one to which the shift leads. -/
theorem MonthsAfter.year_eq (h : i.MonthsAfter count moved) :
    (moved.date.year : Int) = i.targetYear count := by
  have hmonth := h.month
  have hone := moved.date.one_le_month
  have hle := moved.date.month_le
  rw [targetYear]
  omega

theorem hasMonth_iff : Date.HasMonth (i.date.monthIndex + count) ↔
    1 ≤ i.targetYear count ∧ i.targetYear count ≤ 9999 := by
  rw [monthIndex_eq, targetYear, Date.HasMonth]
  omega

/-- A shift by months leads to the instant that lies so many months later, or it fails for one of
two reasons if that would be in a year off the calendar. -/
theorem addMonths_cases (i : Instant) (count : Int) :
    ((1 ≤ i.targetYear count ∧ i.targetYear count ≤ 9999) ∧
      ∃ moved, i.addMonths count = .ok moved ∧ i.MonthsAfter count moved) ∨
    (¬ (1 ≤ i.targetYear count ∧ i.targetYear count ≤ 9999) ∧ i.addMonths count =
      .error (if -2147483648 ≤ i.targetYear count ∧ i.targetYear count < 2147483648
        then .yearOffCalendar else .yearOverflow)) := by
  rw [← hasMonth_iff]
  rcases i.date.addMonths_cases count with ⟨hin, date, hdate, hmonth, hday⟩ | ⟨hout, hfailed⟩
  · refine Or.inl ⟨hin, ofDate date i.sinceMidnight i.sinceMidnight_lt, ?_, ?_, ?_, ?_⟩
    · rw [addMonths, hdate]
      rfl
    · rw [monthIndex_eq, monthIndex_eq] at hmonth
      rw [date_ofDate]
      omega
    · rw [sinceMidnight_ofDate]
    · rw [date_ofDate, hday]
  · refine Or.inr ⟨hout, ?_⟩
    rw [monthIndex_eq] at hfailed
    rw [addMonths, hfailed]
    rfl

theorem add_of_mem_monthUnits {unit : TimeUnit} {months : Nat} (h : (unit, months) ∈ monthUnits)
    (i : Instant) (amount : Int) : i.add unit amount = i.addMonths (months * amount) := by
  rw [add, stride_of_mem_monthUnits _ h]

end Instant

/-- **Shifts by months and years are exact.** A shift gives the instant that lies so many months
after that of the reading, cut to the length of the month, if the year to which it leads is one of
the calendar; otherwise the failure says whether the year has more than 32 bits. Readings of one
instant have the same shifts. -/
theorem DateTime.addUnits_calendar {base : DateTime} (h : base.OnCalendar) {unit : TimeUnit}
    {months : Nat} (hunit : (unit, months) ∈ monthUnits) (amount : Int) :
    ∃ b, base.toInstant = .ok b ∧
      let year := b.targetYear (months * amount)
      ((∃ moved, base.addUnits unit.name amount = .ok moved) ↔ 1 ≤ year ∧ year ≤ 9999) ∧
      (∀ moved, base.addUnits unit.name amount = .ok moved ↔
        b.MonthsAfter (months * amount) moved) ∧
      (¬ (1 ≤ year ∧ year ≤ 9999) → base.addUnits unit.name amount =
        .error (if -2147483648 ≤ year ∧ year < 2147483648 then .yearOffCalendar
          else .yearOverflow)) ∧
      ∀ other : DateTime, other.utcMicros = base.utcMicros →
        other.addUnits unit.name amount = base.addUnits unit.name amount := by
  obtain ⟨b, hb⟩ := exists_toInstant_iff.mpr h
  refine ⟨b, hb, ?_⟩
  have hshift : base.addUnits unit.name amount = b.addMonths (months * amount) := by
    rw [addUnits_of_toInstant hb, Instant.add_of_mem_monthUnits hunit]
  have hsame : ∀ other : DateTime, other.utcMicros = base.utcMicros →
      other.addUnits unit.name amount = base.addUnits unit.name amount :=
    fun other hother => addUnits_congr h hother unit amount
  rw [hshift] at hsame ⊢
  -- A result is the one instant that lies so many months later, so both can only be it.
  rcases b.addMonths_cases (months * amount) with ⟨hin, moved, hmoved, hafter⟩ | ⟨hout, hfailed⟩
  · refine ⟨iff_of_true ⟨moved, hmoved⟩ hin, fun other => ?_, fun hout => absurd hin hout, hsame⟩
    rw [hmoved, Except.ok.injEq]
    constructor
    · rintro rfl
      exact hafter
    · exact hafter.unique
  · refine ⟨iff_of_false ?_ hout, fun other => iff_of_false ?_ ?_, fun _ => hfailed, hsame⟩
    · rintro ⟨moved, hmoved⟩
      cases hfailed.symm.trans hmoved
    · intro hmoved
      cases hfailed.symm.trans hmoved
    · intro hafter
      have hfirst := other.date.one_le_year
      have hlast := other.date.year_le
      have hyear := hafter.year_eq
      exact hout (by omega)

/-- A year later it is the 28th of February. -/
theorem addUnits_calendar_year :
    marchHour.OnCalendar ∧ (TimeUnit.year, 12) ∈ monthUnits ∧
      marchHour.addUnits "year" 1 = .ok ⟨63876378600000000, by decide⟩ := by
  have hon : marchHour.OnCalendar := ⟨by decide, by decide⟩
  have hyear : (TimeUnit.year, 12) ∈ monthUnits := by decide
  obtain ⟨b, hb, -, hmoved, -⟩ := DateTime.addUnits_calendar hon hyear 1
  cases hb.symm.trans (show marchHour.toInstant = .ok ⟨63844842600000000, by decide⟩ from rfl)
  exact ⟨hon, hyear, (hmoved _).mpr
    ⟨by decide +kernel, by decide +kernel, by decide +kernel⟩⟩

end Deferral
