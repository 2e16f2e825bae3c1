/-
# Deferral.Proofs.Calendar.Splitting -- shifts by months in two steps

A shift by months can be made in two steps. Both ways lead to the same month and keep the time of
day, and one of them exists if the other does. Only the day can differ. A step cuts it to the
length of the month that it leads to, so two steps cut it to the length of the month between them
as well. `MonthsAfter.dayOfMonth_split` says just this, and the rest follows by comparing lengths.
-/

import Deferral.Proofs.Calendar.Arithmetic

namespace Deferral

/-- Two instants of one month have the same time of day, and the first one is not on a later
day. -/
structure Instant.CutShort (twice once : Instant) : Prop where
  year : twice.date.year = once.date.year
  month : twice.date.month = once.date.month
  sinceMidnight : twice.sinceMidnight = once.sinceMidnight
  dayOfMonth_le : twice.date.dayOfMonth ≤ once.date.dayOfMonth

namespace Instant

variable {b between once twice : Instant} {m n : Int}

/-- A shift by months gives the instant that lies so many months later, and no other one. -/
theorem addMonths_eq_ok_iff {i moved : Instant} {count : Int} :
    i.addMonths count = .ok moved ↔ i.MonthsAfter count moved := by
  rcases i.addMonths_cases count with ⟨-, found, hfound, hafter⟩ | ⟨hout, hfailed⟩
  · rw [hfound, Except.ok.injEq]
    constructor
    · rintro rfl
      exact hafter
    · intro h
      exact hafter.unique h
  · constructor
    · intro h
      cases hfailed.symm.trans h
    · intro h
      have hyear := h.year_eq
      have hfirst := moved.date.one_le_year
      have hlast := moved.date.year_le
      exact absurd (by omega) hout

/-- A shift by no months stays where it is. -/
theorem MonthsAfter.refl (i : Instant) : i.MonthsAfter 0 i where
  month := by omega
  sinceMidnight := rfl
  dayOfMonth := (Nat.min_eq_left i.date.dayOfMonth_le).symm

/-- Instants that differ at most in the day are the same if the day is. -/
theorem CutShort.eq_iff (h : twice.CutShort once) :
    twice = once ↔ twice.date.dayOfMonth = once.date.dayOfMonth := by
  constructor
  · rintro rfl
    rfl
  · intro hday
    have hmonth : twice.date.monthIndex = once.date.monthIndex := by
      simp only [Date.monthIndex, h.year, h.month]
    apply eq_of_micros_eq
    rw [micros_eq, micros_eq, Date.eq_of_monthIndex_eq hmonth hday, h.sinceMidnight]

/-! ## Two steps and one -/

section Split

variable (hbetween : b.MonthsAfter m between)
include hbetween

/-- The second step leads to the year to which the single one leads. -/
theorem MonthsAfter.targetYear_split (n : Int) :
    between.targetYear n = b.targetYear (m + n) := by
  have hmonth := hbetween.month
  unfold targetYear
  congr 1
  omega

/-- Hence there is a second step if there is a single one. -/
theorem MonthsAfter.exists_split_iff (n : Int) :
    (∃ twice, between.addMonths n = .ok twice) ↔ ∃ once, b.addMonths (m + n) = .ok once := by
  have hexists : ∀ (i : Instant) (count : Int), (∃ moved, i.addMonths count = .ok moved) ↔
      1 ≤ i.targetYear count ∧ i.targetYear count ≤ 9999 := by
    intro i count
    rcases i.addMonths_cases count with ⟨hin, moved, hmoved, -⟩ | ⟨hout, hfailed⟩
    · exact iff_of_true ⟨moved, hmoved⟩ hin
    · simp [hfailed, hout]
  rw [hexists, hexists, hbetween.targetYear_split]

variable (htwice : between.MonthsAfter n twice) (honce : b.MonthsAfter (m + n) once)
include htwice honce

/-- Both ways lead to the same month. -/
theorem MonthsAfter.monthIndex_split : twice.date.monthIndex = once.date.monthIndex := by
  have h₁ := hbetween.month
  have h₂ := htwice.month
  have h₃ := honce.month
  have htwiceIndex := monthIndex_eq twice.date
  have honceIndex := monthIndex_eq once.date
  omega

/-- After two steps the day is the one after a single step, cut to the length of the month
between. -/
theorem MonthsAfter.dayOfMonth_split :
    twice.date.dayOfMonth = min once.date.dayOfMonth
      (daysInMonth between.date.year between.date.month) := by
  have hlength : daysInMonth twice.date.year twice.date.month =
      daysInMonth once.date.year once.date.month := by
    rw [← Date.monthLength_monthIndex, ← Date.monthLength_monthIndex,
      hbetween.monthIndex_split htwice honce]
  rw [htwice.dayOfMonth, honce.dayOfMonth, hbetween.dayOfMonth, hlength]
  exact Nat.min_right_comm ..

theorem MonthsAfter.cutShort_split : twice.CutShort once where
  year := by
    rw [← Date.yearOfMonth_monthIndex, ← Date.yearOfMonth_monthIndex,
      hbetween.monthIndex_split htwice honce]
  month := by
    rw [← Date.monthOfYear_monthIndex, ← Date.monthOfYear_monthIndex,
      hbetween.monthIndex_split htwice honce]
  sinceMidnight := by
    rw [htwice.sinceMidnight, hbetween.sinceMidnight, honce.sinceMidnight]
  dayOfMonth_le := by
    rw [hbetween.dayOfMonth_split htwice honce]
    exact Nat.min_le_left ..

/-- Nothing is lost if the month between has the day that the single step leads to. -/
theorem MonthsAfter.split_eq_iff :
    twice = once ↔ min b.date.dayOfMonth (daysInMonth once.date.year once.date.month) ≤
      daysInMonth between.date.year between.date.month := by
  rw [(hbetween.cutShort_split htwice honce).eq_iff, hbetween.dayOfMonth_split htwice honce,
    ← honce.dayOfMonth]
  exact min_eq_left_iff

end Split

theorem add_month (i : Instant) (amount : Int) : i.add .month amount = i.addMonths amount := by
  have hmonth : (TimeUnit.month, 1) ∈ monthUnits := by decide
  rw [add_of_mem_monthUnits hmonth, Nat.cast_one, Int.one_mul]

end Instant

/-- **Splitting a shift by months can only lose days.** Of the shift by `m + n` months and of the
second of two steps, by `m` and by `n` months, one exists if the other does. Both lead to the same
month and the same time of day, the two steps not to a later day than the single one, and to the
same instant exactly if the month between is as long as the day that the single step leads to. So
a shift by `m` months is undone by the shift back exactly if the month between has the day of the
base. -/
theorem DateTime.addUnits_split {base : DateTime} {between : Instant} {m : Int}
    (h : base.addUnits TimeUnit.month.name m = .ok between) :
    ∃ b, base.toInstant = .ok b ∧
      let month : String := TimeUnit.month.name
      let room := daysInMonth between.date.year between.date.month
      (∀ n, (∃ twice, (utc between).addUnits month n = .ok twice) ↔
        ∃ once, base.addUnits month (m + n) = .ok once) ∧
      (∀ n twice once, (utc between).addUnits month n = .ok twice →
        base.addUnits month (m + n) = .ok once → twice.CutShort once ∧
          (twice = once ↔
            min b.date.dayOfMonth (daysInMonth once.date.year once.date.month) ≤ room)) ∧
      ((utc between).addUnits month (-m) = .ok b ↔ b.date.dayOfMonth ≤ room) := by
  obtain ⟨b, hb⟩ : ∃ b, base.toInstant = .ok b := by
    obtain ⟨b, hb, -⟩ := bind_eq_ok (by rwa [addUnits, TimeUnit.ofName?_name] at h)
    exact ⟨b, hb⟩
  have hone : ∀ n, base.addUnits TimeUnit.month.name n = b.addMonths n := by
    intro n
    rw [addUnits_of_toInstant hb, Instant.add_month]
  have htwo : ∀ n, (utc between).addUnits TimeUnit.month.name n = between.addMonths n := by
    intro n
    rw [addUnits_of_toInstant (toInstant_utc between), Instant.add_month]
  rw [hone, Instant.addMonths_eq_ok_iff] at h
  simp only [hone, htwo, Instant.addMonths_eq_ok_iff]
  refine ⟨b, hb, ?_, ?_, ?_⟩
  · intro n
    have hexists := h.exists_split_iff n
    simpa only [Instant.addMonths_eq_ok_iff] using hexists
  · intro n twice once htwice honce
    exact ⟨h.cutShort_split htwice honce, h.split_eq_iff htwice honce⟩
  · -- The single step by `m + -m` months stays at the base.
    have hstay : b.MonthsAfter (m + -m) b := by
      rw [Int.add_right_neg]
      exact .refl b
    have hfits := Nat.min_eq_left b.date.dayOfMonth_le
    constructor
    · intro hback
      have heq := h.split_eq_iff hback hstay
      rw [hfits] at heq
      exact heq.mp rfl
    · intro hroom
      obtain ⟨twice, htwice⟩ := (h.exists_split_iff (-m)).mpr
        ⟨b, Instant.addMonths_eq_ok_iff.mpr hstay⟩
      rw [Instant.addMonths_eq_ok_iff] at htwice
      have heq := (h.split_eq_iff htwice hstay).mpr (by rwa [hfits])
      exact heq ▸ htwice

/-- The 29th of February 2024, twelve months ahead and back, is the 28th. -/
theorem addUnits_split_leapDay :
    marchHour.addUnits "month" 12 = .ok ⟨63876378600000000, by decide⟩ ∧
      (DateTime.utc ⟨63876378600000000, by decide⟩).addUnits "month" (-12) ≠
        .ok ⟨63844842600000000, by decide⟩ := by
  have hbase : marchHour.toInstant = .ok ⟨63844842600000000, by decide⟩ := rfl
  have hahead : marchHour.addUnits TimeUnit.month.name 12 =
      .ok ⟨63876378600000000, by decide⟩ := by
    rw [DateTime.addUnits_of_toInstant hbase, Instant.add_month, Instant.addMonths_eq_ok_iff]
    exact ⟨by decide +kernel, by decide +kernel, by decide +kernel⟩
  obtain ⟨b, hb, -, -, hback⟩ := DateTime.addUnits_split hahead
  cases hb.symm.trans hbase
  refine ⟨hahead, fun h => ?_⟩
  exact absurd (hback.mp h) (by decide +kernel)

end Deferral
