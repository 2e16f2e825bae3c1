/-
# Deferral.Calendar.Date -- dates of the Gregorian calendar

A date has a year from 1 to 9999, a month and a day, with the leap rule applied
to all of these years. Days are numbered from 0 for the first of January of
year 1. `Date.ofDay` finds the date of a day number, and `Date.day` the number
of a date.
-/

namespace Deferral

/-! ## Years and months -/

/-- A year with a 29th of February. -/
def isLeap (year : Nat) : Bool := year % 4 == 0 && (year % 100 != 0 || year % 400 == 0)

/-- The number of days of a year. -/
def yearLength (year : Nat) : Nat := if isLeap year then 366 else 365

/-- The lengths of the months of a year, in order. -/
def monthLengths (year : Nat) : List Nat :=
  [31, if isLeap year then 29 else 28, 31, 30, 31, 30, 31, 31, 30, 31, 30, 31]

/-- The number of days of a month; a month that does not exist has none. -/
def daysInMonth (year month : Nat) : Nat := ((monthLengths year)[month - 1]?).getD 0

/-- The number of days before the first of January of a year. -/
def daysBeforeYear (year : Nat) : Nat :=
  365 * (year - 1) + (year - 1) / 4 - (year - 1) / 100 + (year - 1) / 400

/-- The sum of some lengths. -/
def total : List Nat → Nat
  | [] => 0
  | length :: lengths => length + total lengths

theorem total_append (as bs : List Nat) : total (as ++ bs) = total as + total bs := by
  induction as with
  | nil => simp [total]
  | cons a as ih => simp only [List.cons_append, total, ih, Nat.add_assoc]

/-- The number of days of a year before the first of a month. -/
def daysBeforeMonth (year month : Nat) : Nat := total ((monthLengths year).take (month - 1))

theorem total_monthLengths (year : Nat) : total (monthLengths year) = yearLength year := by
  unfold monthLengths yearLength
  split <;> rfl

/-- A quotient grows by one exactly at the multiples of the divisor. -/
theorem div_eq_pred_div (n k : Nat) (hn : 1 ≤ n) :
    n / k = (n - 1) / k + if n % k = 0 then 1 else 0 := by
  obtain ⟨p, rfl⟩ : ∃ p, n = p + 1 := ⟨n - 1, by omega⟩
  rw [Nat.succ_div]
  simp [Nat.dvd_iff_mod_eq_zero]

theorem daysBeforeYear_succ {year : Nat} (h : 1 ≤ year) :
    daysBeforeYear (year + 1) = daysBeforeYear year + yearLength year := by
  have hleap : isLeap year = true ↔ year % 4 = 0 ∧ (year % 100 ≠ 0 ∨ year % 400 = 0) := by
    simp [isLeap]
  have h4 := div_eq_pred_div year 4 h
  have h100 := div_eq_pred_div year 100 h
  have h400 := div_eq_pred_div year 400 h
  have hm : year % 400 = 0 → year % 100 = 0 := by omega
  have hm' : year % 100 = 0 → year % 4 = 0 := by omega
  have hle : (year - 1) / 100 ≤ (year - 1) / 4 := by omega
  unfold yearLength daysBeforeYear
  rw [Nat.add_sub_cancel]
  simp only [hleap]
  generalize (year - 1) / 4 = q4 at *
  generalize (year - 1) / 100 = q100 at *
  generalize (year - 1) / 400 = q400 at *
  rw [h4, h100, h400]
  by_cases c4 : year % 4 = 0 <;> by_cases c100 : year % 100 = 0 <;>
    by_cases c400 : year % 400 = 0 <;> simp [c4, c100, c400] at hm hm' ⊢ <;> omega

theorem daysBeforeYear_mono {y z : Nat} (h : y ≤ z) : daysBeforeYear y ≤ daysBeforeYear z := by
  induction h with
  | refl => exact Nat.le_refl _
  | step _ ih =>
    refine Nat.le_trans ih ?_
    simp only [daysBeforeYear]
    omega

/-! ## The year of a day -/

/-- The year of a day or the year after it. -/
def yearGuess (day : Nat) : Nat := (400 * day + 700) / 146097 + 1

/-- The year that contains a day. -/
def yearOfDay (day : Nat) : Nat :=
  if daysBeforeYear (yearGuess day) ≤ day then yearGuess day else yearGuess day - 1

theorem daysBeforeYear_yearOfDay_le (day : Nat) : daysBeforeYear (yearOfDay day) ≤ day := by
  unfold yearOfDay
  split
  · assumption
  · simp only [daysBeforeYear, yearGuess] at *
    omega

theorem lt_daysBeforeYear_yearOfDay (day : Nat) : day < daysBeforeYear (yearOfDay day + 1) := by
  unfold yearOfDay
  split
  · simp only [daysBeforeYear, yearGuess] at *
    omega
  · have h : yearGuess day - 1 + 1 = yearGuess day := by simp [yearGuess]
    rw [h]
    omega

theorem one_le_yearOfDay (day : Nat) : 1 ≤ yearOfDay day := by
  rcases Nat.eq_zero_or_pos (yearOfDay day) with h | h
  · have := lt_daysBeforeYear_yearOfDay day
    simp [h, daysBeforeYear] at this
  · exact h

/-! ## The month of a day -/

/-- How many of the given spans a count of days fills, and the days left over. -/
def splitDays : List Nat → Nat → Nat × Nat
  | [], days => (0, days)
  | length :: lengths, days =>
    if days < length then (0, days)
    else ((splitDays lengths (days - length)).1 + 1, (splitDays lengths (days - length)).2)

/-- Days fewer than all spans together end inside a span. -/
theorem splitDays_lt {lengths : List Nat} {days : Nat} (h : days < total lengths) :
    (splitDays lengths days).1 < lengths.length ∧
      (splitDays lengths days).2 < (lengths[(splitDays lengths days).1]?).getD 0 := by
  induction lengths generalizing days with
  | nil => simp [total] at h
  | cons length lengths ih =>
    simp only [total] at h
    unfold splitDays
    split
    · next hlt => simpa using hlt
    · have := @ih (days - length) (by omega)
      simpa using this

theorem total_splitDays (lengths : List Nat) (days : Nat) :
    total (lengths.take (splitDays lengths days).1) + (splitDays lengths days).2 = days := by
  induction lengths generalizing days with
  | nil => simp [splitDays, total]
  | cons length lengths ih =>
    unfold splitDays
    split
    · simp [total]
    · have := ih (days - length)
      simp only [List.take_succ_cons, total]
      omega

/-! ## Dates -/

/-- A date of the calendar. -/
structure Date where
  /-- The year. -/
  year : Nat
  /-- The month, 1 for January. -/
  month : Nat
  /-- The day of the month, from 1. -/
  dayOfMonth : Nat
  one_le_year : 1 ≤ year
  year_le : year ≤ 9999
  one_le_month : 1 ≤ month
  month_le : month ≤ 12
  one_le_dayOfMonth : 1 ≤ dayOfMonth
  dayOfMonth_le : dayOfMonth ≤ daysInMonth year month
deriving DecidableEq

namespace Date

/-- The number of days of the calendar. -/
def dayCount : Nat := 3652059

/-- The date with the given fields, if the calendar has it. -/
def ofFields? (year month dayOfMonth : Nat) : Option Date :=
  if h : (1 ≤ year ∧ year ≤ 9999) ∧ (1 ≤ month ∧ month ≤ 12) ∧
      (1 ≤ dayOfMonth ∧ dayOfMonth ≤ daysInMonth year month) then
    some ⟨year, month, dayOfMonth, h.1.1, h.1.2, h.2.1.1, h.2.1.2, h.2.2.1, h.2.2.2⟩
  else none

/-- The number of the day. -/
def day (d : Date) : Nat :=
  daysBeforeYear d.year + daysBeforeMonth d.year d.month + (d.dayOfMonth - 1)

/-- The month and the day of the month of a day, each from 0. -/
def monthSplit (day : Nat) : Nat × Nat :=
  splitDays (monthLengths (yearOfDay day)) (day - daysBeforeYear (yearOfDay day))

theorem monthSplit_lt (day : Nat) :
    (monthSplit day).1 < 12 ∧
      (monthSplit day).2 < ((monthLengths (yearOfDay day))[(monthSplit day).1]?).getD 0 := by
  have hlt := lt_daysBeforeYear_yearOfDay day
  have hle := daysBeforeYear_yearOfDay_le day
  rw [daysBeforeYear_succ (one_le_yearOfDay day), ← total_monthLengths] at hlt
  exact @splitDays_lt (monthLengths (yearOfDay day)) _ (by omega)

theorem yearOfDay_le {day : Nat} (h : day < dayCount) : yearOfDay day ≤ 9999 := by
  rcases Nat.lt_or_ge 9999 (yearOfDay day) with hlt | hge
  · have hmono := daysBeforeYear_mono (y := 10000) (z := yearOfDay day) hlt
    have hle := daysBeforeYear_yearOfDay_le day
    have hlast : daysBeforeYear 10000 = dayCount := by decide
    omega
  · exact hge

/-- The date of a day. -/
def ofDay (day : Nat) (h : day < dayCount) : Date where
  year := yearOfDay day
  month := (monthSplit day).1 + 1
  dayOfMonth := (monthSplit day).2 + 1
  one_le_year := one_le_yearOfDay day
  year_le := yearOfDay_le h
  one_le_month := by omega
  month_le := (monthSplit_lt day).1
  one_le_dayOfMonth := by omega
  dayOfMonth_le := (monthSplit_lt day).2

/-- A date has the number of the day that it was found for. -/
theorem day_ofDay (day : Nat) (h : day < dayCount) : (ofDay day h).day = day := by
  have hsum := total_splitDays (monthLengths (yearOfDay day)) (day - daysBeforeYear (yearOfDay day))
  have hle := daysBeforeYear_yearOfDay_le day
  simp only [Date.day, ofDay, daysBeforeMonth, monthSplit, Nat.add_sub_cancel]
  omega

/-- Every date lies within the calendar. -/
theorem day_lt (d : Date) : d.day < dayCount := by
  obtain ⟨year, month, dayOfMonth, hy, hy', hm, hm', hd, hd'⟩ := d
  have hmono := daysBeforeYear_mono (y := year + 1) (z := 10000) (by omega)
  have hlast : daysBeforeYear 10000 = dayCount := by decide
  rw [daysBeforeYear_succ hy, ← total_monthLengths] at hmono
  have hin : (monthLengths year).length = 12 := rfl
  have hsplit := total_append ((monthLengths year).take (month - 1))
    ((monthLengths year).drop (month - 1))
  rw [List.take_append_drop, List.drop_eq_getElem_cons (by omega), total] at hsplit
  simp only [daysInMonth, List.getElem?_eq_getElem (show month - 1 < (monthLengths year).length by
    omega), Option.getD_some] at hd'
  simp only [Date.day, daysBeforeMonth]
  omega

end Date

end Deferral
