/-
# Deferral.Proofs.Calendar.Fields -- an instant is its date and its clock

The year, month and day of an instant and the hour, minute, second and microsecond
of its clock lie in their ranges, and `Instant.ofFields?` finds the instant again
from them. Cutting an instant to milliseconds changes the microsecond alone.
-/

import Deferral.Calendar.Iso
import Deferral.Proofs.Number.Digits

namespace Deferral

/-! ## Ranges -/

namespace Date

theorem daysInMonth_le (year month : Nat) : daysInMonth year month ≤ 31 := by
  unfold daysInMonth
  have hlength : ∀ n ∈ monthLengths year, n ≤ 31 := by
    unfold monthLengths
    split <;> decide
  cases h : (monthLengths year)[month - 1]? with
  | none => exact Nat.zero_le _
  | some n => exact hlength n (List.mem_of_getElem? h)

/-! The fields have as many digits as they are written with. -/

theorem year_lt (d : Date) : d.year < 10 ^ 4 := by
  have := d.year_le
  omega

theorem month_lt (d : Date) : d.month < 10 ^ 2 := by
  have := d.month_le
  omega

theorem dayOfMonth_lt (d : Date) : d.dayOfMonth < 10 ^ 2 := by
  have hday := d.dayOfMonth_le
  have hmonth := daysInMonth_le d.year d.month
  omega

/-- The fields of a date are those of a date of the calendar, namely of this one. -/
theorem ofFields?_fields (d : Date) : ofFields? d.year d.month d.dayOfMonth = some d := by
  rw [ofFields?, dif_pos ⟨⟨d.one_le_year, d.year_le⟩, ⟨d.one_le_month, d.month_le⟩,
    ⟨d.one_le_dayOfMonth, d.dayOfMonth_le⟩⟩]

end Date

namespace Instant

theorem hour_le (i : Instant) : i.hour ≤ 23 := by
  have h : i.sinceMidnight < microsPerDay := Nat.mod_lt _ (by decide)
  simp only [hour, microsPerHour, microsPerMinute, microsPerSecond, microsPerDay] at *
  omega

theorem minute_le (i : Instant) : i.minute ≤ 59 := by
  simp only [minute]
  omega

theorem second_le (i : Instant) : i.second ≤ 59 := by
  simp only [second]
  omega

theorem microsecond_lt (i : Instant) : i.microsecond < microsPerSecond :=
  Nat.mod_lt _ (by decide)

/-! ## From fields to instants -/

/-- The fields of the clock add up to the microseconds since midnight. -/
theorem sum_fields (i : Instant) :
    i.hour * microsPerHour + i.minute * microsPerMinute + i.second * microsPerSecond +
      i.microsecond = i.sinceMidnight := by
  simp only [hour, minute, second, microsecond, microsPerHour, microsPerMinute, microsPerSecond]
  omega

/-- An instant is the time of day that it shows on its date. -/
theorem ofDate_date (i : Instant) (h : i.sinceMidnight < microsPerDay) :
    ofDate i.date i.sinceMidnight h = i := by
  obtain ⟨micros, hmicros⟩ := i
  simp only [ofDate, date, Date.day_ofDay, day, sinceMidnight, mk.injEq]
  exact Nat.div_add_mod' micros microsPerDay

theorem ofFields?_fields (i : Instant) :
    ofFields? i.date.year i.date.month i.date.dayOfMonth i.hour i.minute i.second i.microsecond =
      some i := by
  rw [ofFields?, Date.ofFields?_fields, Option.bind_some,
    dif_pos ⟨i.hour_le, i.minute_le, i.second_le, i.microsecond_lt⟩]
  simp only [sum_fields]
  rw [ofDate_date]

theorem ofMicros?_micros (i : Instant) : ofMicros? i.micros = some i := by
  have h : 0 ≤ (i.micros : Int) ∧ (i.micros : Int).toNat < Date.dayCount * microsPerDay :=
    ⟨Int.natCast_nonneg _, by rw [Int.toNat_natCast]; exact i.micros_lt⟩
  rw [ofMicros?, dif_pos h]
  rfl

@[simp]
theorem shift?_zero (i : Instant) : i.shift? 0 = some i := by
  rw [shift?, Int.add_zero, ofMicros?_micros]

/-- A shift is exact: where the calendar has no such instant, there is none. -/
theorem micros_of_shift? {i j : Instant} {micros : Int} (h : i.shift? micros = some j) :
    (j.micros : Int) = i.micros + micros := by
  rw [shift?, ofMicros?] at h
  split at h
  · next hin =>
      cases h
      exact Int.toNat_of_nonneg hin.1
  · cases h

/-- The instant of fields is that of their date and their clock reading. -/
theorem micros_of_ofFields? {year month dayOfMonth hour minute second microsecond : Nat}
    {i : Instant}
    (h : ofFields? year month dayOfMonth hour minute second microsecond = some i) :
    ∃ d : Date, d.year = year ∧ d.month = month ∧ d.dayOfMonth = dayOfMonth ∧
      i.micros = d.day * microsPerDay + (hour * microsPerHour + minute * microsPerMinute +
        second * microsPerSecond + microsecond) := by
  obtain ⟨d, hdate, hclock⟩ := Option.bind_eq_some_iff.mp h
  rw [Date.ofFields?] at hdate
  split at hdate
  · cases hdate
    split at hclock
    · cases hclock
      exact ⟨_, rfl, rfl, rfl, rfl⟩
    · cases hclock
  · cases hdate

/-! ## Milliseconds -/

@[simp]
theorem truncateToMillis_truncateToMillis (i : Instant) :
    i.truncateToMillis.truncateToMillis = i.truncateToMillis := by
  simp [truncateToMillis]

theorem day_truncateToMillis (i : Instant) : i.truncateToMillis.day = i.day := by
  simp only [day, truncateToMillis, microsPerDay, microsPerHour, microsPerMinute, microsPerSecond]
  omega

@[simp]
theorem date_truncateToMillis (i : Instant) : i.truncateToMillis.date = i.date := by
  simp only [date, day_truncateToMillis]

theorem sinceMidnight_truncateToMillis (i : Instant) :
    i.truncateToMillis.sinceMidnight = i.sinceMidnight / 1000 * 1000 := by
  simp only [sinceMidnight, truncateToMillis, microsPerDay, microsPerHour, microsPerMinute,
    microsPerSecond]
  omega

@[simp]
theorem hour_truncateToMillis (i : Instant) : i.truncateToMillis.hour = i.hour := by
  simp only [hour, sinceMidnight_truncateToMillis, microsPerHour, microsPerMinute, microsPerSecond]
  omega

@[simp]
theorem minute_truncateToMillis (i : Instant) : i.truncateToMillis.minute = i.minute := by
  simp only [minute, sinceMidnight_truncateToMillis, microsPerMinute, microsPerSecond]
  omega

@[simp]
theorem second_truncateToMillis (i : Instant) : i.truncateToMillis.second = i.second := by
  simp only [second, sinceMidnight_truncateToMillis, microsPerSecond]
  omega

@[simp]
theorem microsecond_truncateToMillis (i : Instant) :
    i.truncateToMillis.microsecond = i.microsecond / 1000 * 1000 := by
  simp only [microsecond, sinceMidnight_truncateToMillis, microsPerSecond]
  omega

/-- The fields of an instant with the microsecond cut to whole milliseconds. -/
theorem ofFields?_millis (i : Instant) :
    ofFields? i.date.year i.date.month i.date.dayOfMonth i.hour i.minute i.second
      (i.microsecond / 1000 * 1000) = some i.truncateToMillis := by
  simpa using ofFields?_fields i.truncateToMillis

end Instant

end Deferral
