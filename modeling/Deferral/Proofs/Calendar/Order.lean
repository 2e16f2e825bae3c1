/-
# Deferral.Proofs.Calendar.Order -- dates and day numbers follow each other

The months of the calendar stand one after the other, without a gap: each begins on the day
after the last one of the month before. A date is a month and a day in it, so that of two dates
the one of the later month has the larger number, and in one month the one of the later day.
Hence the number of a date determines it, and an instant is its date and its time of day.
-/

import Deferral.Proofs.Calendar.Shifts

namespace Deferral

/-! ## The first days of months -/

/-- The year of a month that is counted from the first January of year 0. -/
def yearOfMonth (index : Nat) : Nat := index / 12

/-- The place of a counted month in its year, 1 for January. -/
def monthOfYear (index : Nat) : Nat := index % 12 + 1

/-- The number of days of a counted month. -/
def monthLength (index : Nat) : Nat := daysInMonth (yearOfMonth index) (monthOfYear index)

/-- The number of the first day of a counted month. -/
def monthStart (index : Nat) : Nat :=
  daysBeforeYear (yearOfMonth index) + daysBeforeMonth (yearOfMonth index) (monthOfYear index)

/-- Before the next month there are the days of this one as well. -/
theorem daysBeforeMonth_succ {year month : Nat} (h : 1 ≤ month) (h' : month ≤ 12) :
    daysBeforeMonth year (month + 1) = daysBeforeMonth year month + daysInMonth year month := by
  have hin : month - 1 < (monthLengths year).length := by
    show month - 1 < 12
    omega
  have htake := List.take_append_getElem hin
  rw [Nat.sub_add_cancel h] at htake
  rw [daysBeforeMonth, daysBeforeMonth, Nat.add_sub_cancel, ← htake, total_append, daysInMonth,
    List.getElem?_eq_getElem hin, Option.getD_some]
  simp [total]

/-- The twelve months fill the year. -/
theorem daysBeforeMonth_thirteen (year : Nat) : daysBeforeMonth year 13 = yearLength year :=
  total_monthLengths year

/-- A month begins on the day after the last one of the month before. -/
theorem monthStart_succ {index : Nat} (h : 12 ≤ index) :
    monthStart (index + 1) = monthStart index + monthLength index := by
  have hrange : 1 ≤ monthOfYear index ∧ monthOfYear index ≤ 12 := by
    simp only [monthOfYear]
    omega
  have hmonth := @daysBeforeMonth_succ (yearOfMonth index) _ hrange.1 hrange.2
  rcases Nat.lt_or_ge (index % 12) 11 with hin | hlast
  · have hyear : yearOfMonth (index + 1) = yearOfMonth index := by
      simp only [yearOfMonth]
      omega
    have hnext : monthOfYear (index + 1) = monthOfYear index + 1 := by
      simp only [monthOfYear]
      omega
    rw [monthStart, monthStart, monthLength, hyear, hnext, hmonth, Nat.add_assoc]
  · -- After December comes the January of the next year.
    have hyear : yearOfMonth (index + 1) = yearOfMonth index + 1 := by
      simp only [yearOfMonth]
      omega
    have hnext : monthOfYear (index + 1) = 1 := by
      simp only [monthOfYear]
      omega
    have hdecember : monthOfYear index = 12 := by
      simp only [monthOfYear]
      omega
    have hone : 1 ≤ yearOfMonth index := by
      simp only [yearOfMonth]
      omega
    rw [hdecember, daysBeforeMonth_thirteen] at hmonth
    rw [monthStart, monthStart, monthLength, hyear, hnext, hdecember, daysBeforeYear_succ hone,
      hmonth]
    simp [daysBeforeMonth, total, Nat.add_assoc]

/-- A later month begins after the last day of an earlier one. -/
theorem monthStart_add_length_le {a b : Nat} (ha : 12 ≤ a) (h : a < b) :
    monthStart a + monthLength a ≤ monthStart b := by
  -- By induction over the months between: each only adds its own days.
  induction b, h using Nat.le_induction with
  | base => rw [monthStart_succ ha]
  | succ b hab ih =>
      rw [monthStart_succ (by omega)]
      omega

/-! ## The order of dates -/

namespace Date

theorem yearOfMonth_monthIndex (d : Date) : yearOfMonth d.monthIndex = d.year := by
  have hone := d.one_le_month
  have hle := d.month_le
  simp only [yearOfMonth, monthIndex]
  omega

theorem monthOfYear_monthIndex (d : Date) : monthOfYear d.monthIndex = d.month := by
  have hone := d.one_le_month
  have hle := d.month_le
  simp only [monthOfYear, monthIndex]
  omega

theorem monthLength_monthIndex (d : Date) :
    monthLength d.monthIndex = daysInMonth d.year d.month := by
  rw [monthLength, yearOfMonth_monthIndex, monthOfYear_monthIndex]

/-- The number of a date counts from the first day of its month. -/
theorem day_eq (d : Date) : d.day = monthStart d.monthIndex + (d.dayOfMonth - 1) := by
  rw [monthStart, yearOfMonth_monthIndex, monthOfYear_monthIndex, day]

/-- The number of a date lies in its month. -/
theorem day_mem_month (d : Date) :
    monthStart d.monthIndex ≤ d.day ∧
      d.day < monthStart d.monthIndex + monthLength d.monthIndex := by
  have hone := d.one_le_dayOfMonth
  have hle := d.dayOfMonth_le
  rw [day_eq, monthLength_monthIndex]
  omega

theorem twelve_le_monthIndex (d : Date) : 12 ≤ d.monthIndex := by
  have hone := d.one_le_year
  simp only [monthIndex]
  omega

/-- Dates are ordered by their months, and in one month by the day. -/
theorem day_lt_day_iff {a b : Date} :
    a.day < b.day ↔ a.monthIndex < b.monthIndex ∨
      a.monthIndex = b.monthIndex ∧ a.dayOfMonth < b.dayOfMonth := by
  have ha := a.day_mem_month
  have hb := b.day_mem_month
  have hdayA := a.day_eq
  have hdayB := b.day_eq
  have honeA := a.one_le_dayOfMonth
  have honeB := b.one_le_dayOfMonth
  -- Within a month the day decides; otherwise one month ends before the other begins.
  rcases Nat.lt_trichotomy a.monthIndex b.monthIndex with hlt | heq | hgt
  · have hstart := monthStart_add_length_le a.twelve_le_monthIndex hlt
    omega
  · rw [← heq] at hdayB
    omega
  · have hstart := monthStart_add_length_le b.twelve_le_monthIndex hgt
    omega

/-- A date is given by its month and the day in it. -/
theorem eq_of_monthIndex_eq {a b : Date} (hmonth : a.monthIndex = b.monthIndex)
    (hday : a.dayOfMonth = b.dayOfMonth) : a = b := by
  have hyear : a.year = b.year := by
    rw [← a.yearOfMonth_monthIndex, hmonth, yearOfMonth_monthIndex]
  have hmonth : a.month = b.month := by
    rw [← a.monthOfYear_monthIndex, hmonth, monthOfYear_monthIndex]
  cases a
  cases b
  cases hyear
  cases hmonth
  cases hday
  rfl

/-- Different dates have different numbers. -/
theorem day_injective {a b : Date} (h : a.day = b.day) : a = b := by
  have hab := day_lt_day_iff (a := a) (b := b)
  have hba := day_lt_day_iff (a := b) (b := a)
  have hmonth : a.monthIndex = b.monthIndex := by omega
  exact eq_of_monthIndex_eq hmonth (by omega)

/-- The day of a number has the date of that number. -/
theorem ofDay_day (d : Date) : ofDay d.day d.day_lt = d :=
  day_injective (day_ofDay d.day d.day_lt)

end Date

/-! ## Instants by date and time of day -/

namespace Instant

variable {d : Date} {since : Nat} (h : since < microsPerDay)

theorem micros_ofDate : (ofDate d since h).micros = d.day * microsPerDay + since := rfl

theorem day_ofDate : (ofDate d since h).day = d.day := by
  rw [day, micros_ofDate, Nat.mul_comm, Nat.mul_add_div (by decide), Nat.div_eq_of_lt h,
    Nat.add_zero]

@[simp]
theorem date_ofDate : (ofDate d since h).date = d := by
  simp only [date, day_ofDate, Date.ofDay_day]

@[simp]
theorem sinceMidnight_ofDate : (ofDate d since h).sinceMidnight = since := by
  rw [sinceMidnight, micros_ofDate, Nat.mul_comm, Nat.mul_add_mod, Nat.mod_eq_of_lt h]

/-- An instant lies as many days after the beginning of the calendar as its date, and the time of
day after that. -/
theorem micros_eq (i : Instant) : i.micros = i.date.day * microsPerDay + i.sinceMidnight := by
  rw [date, Date.day_ofDay]
  exact (Nat.div_add_mod' i.micros microsPerDay).symm

end Instant

end Deferral
