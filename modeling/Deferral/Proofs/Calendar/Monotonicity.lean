/-
# Deferral.Proofs.Calendar.Monotonicity -- a larger shift leads to a later instant

More units lead to a later instant, whatever the unit. For a span of fixed length this is
arithmetic. A later month begins after the last day of an earlier one, so cutting the day to the
length of its month changes nothing either. The shifts that stay on the calendar have no gap
between them: the counts of microseconds, or of months, for which there is room form an interval.
-/

import Deferral.Proofs.Calendar.Splitting

namespace Deferral

/-! ## Strides -/

namespace TimeUnit

variable {unit : TimeUnit}

theorem stride_span_pos {micros : Nat} (h : unit.stride = .span micros) : 0 < micros := by
  cases unit <;> cases h <;> decide

theorem stride_months_pos {count : Nat} (h : unit.stride = .months count) : 0 < count := by
  cases unit <;> cases h <;> decide

end TimeUnit

/-- More strides of the same size lead further. -/
theorem strides_le {base m n : Int} (size : Nat) (h : m ≤ n) :
    base + size * m ≤ base + size * n :=
  Int.add_le_add_left (Int.mul_le_mul_of_nonneg_left h (Int.natCast_nonneg size)) base

theorem strides_lt {base m n : Int} {size : Nat} (hsize : 0 < size) (h : m < n) :
    base + size * m < base + size * n :=
  Int.add_lt_add_left (Int.mul_lt_mul_of_pos_left h (Int.natCast_pos.mpr hsize)) base

namespace Instant

variable {i sooner later : Instant} {unit : TimeUnit} {m n : Int}

/-! ## The order of results -/

/-- An earlier day comes before a later one, at whatever time of day. -/
theorem lt_of_day_lt {a b : Instant} (h : a.date.day < b.date.day) : a < b := by
  show a.micros < b.micros
  have hdays := Nat.mul_le_mul_right microsPerDay (Nat.succ_le_of_lt h)
  rw [Nat.succ_mul] at hdays
  have hsince := a.sinceMidnight_lt
  rw [micros_eq a, micros_eq b]
  omega

/-- More months lead to a later month, and so to a later instant. -/
theorem MonthsAfter.lt (hsooner : i.MonthsAfter m sooner) (hlater : i.MonthsAfter n later)
    (h : m < n) : sooner < later := by
  have hsoonerMonth := hsooner.month
  have hlaterMonth := hlater.month
  have hsoonerIndex := monthIndex_eq sooner.date
  have hlaterIndex := monthIndex_eq later.date
  apply lt_of_day_lt
  rw [Date.day_lt_day_iff]
  left
  omega

/-- More units lead to a later instant. -/
theorem add_lt_add (hsooner : i.add unit m = .ok sooner) (hlater : i.add unit n = .ok later)
    (h : m < n) : sooner < later := by
  unfold add at hsooner hlater
  cases hstride : unit.stride with
  | span micros =>
      rw [hstride] at hsooner hlater
      rw [addSpan_eq_ok_iff] at hsooner hlater
      have hlt : (i.micros + micros * m : Int) < i.micros + micros * n :=
        strides_lt (TimeUnit.stride_span_pos hstride) h
      show sooner.micros < later.micros
      omega
  | months count =>
      rw [hstride] at hsooner hlater
      rw [addMonths_eq_ok_iff] at hsooner hlater
      have hlt : (0 + count * m : Int) < 0 + count * n :=
        strides_lt (TimeUnit.stride_months_pos hstride) h
      rw [Int.zero_add, Int.zero_add] at hlt
      exact hsooner.lt hlater hlt

/-- A shift by no units stays where it is. -/
theorem add_zero (i : Instant) (unit : TimeUnit) : i.add unit 0 = .ok i := by
  unfold add
  cases unit.stride with
  | span micros =>
      rw [addSpan_eq_ok_iff]
      simp
  | months count =>
      rw [addMonths_eq_ok_iff, Int.mul_zero]
      exact .refl i

/-! ## Which shifts there are -/

/-- Between two shifts that stay on the calendar all others do. -/
theorem ShiftStays.between {k : Int} (hm : i.ShiftStays unit m) (hn : i.ShiftStays unit n)
    (hmk : m ≤ k) (hkn : k ≤ n) : i.ShiftStays unit k := by
  unfold ShiftStays at *
  cases hstride : unit.stride with
  | span micros =>
      rw [hstride] at hm hn
      exact ⟨hm.1.trans (strides_le micros hmk), (strides_le micros hkn).trans_lt hn.2⟩
  | months count =>
      rw [hstride] at hm hn
      exact ⟨hm.1.trans (strides_le count hmk), (strides_le count hkn).trans_lt hn.2⟩

theorem exists_add_between {k : Int} (hm : i.add unit m = .ok sooner)
    (hn : i.add unit n = .ok later) (hmk : m ≤ k) (hkn : k ≤ n) :
    ∃ between, i.add unit k = .ok between := by
  have hsooner := (exists_add_iff i unit m).mp ⟨sooner, hm⟩
  have hlater := (exists_add_iff i unit n).mp ⟨later, hn⟩
  exact (exists_add_iff i unit k).mpr (hsooner.between hlater hmk hkn)

/-- A shift forwards exists, and leads to an earlier instant, if a longer one exists. -/
theorem exists_add_lt (hn : i.add unit n = .ok later) (hm : 0 ≤ m) (h : m < n) :
    ∃ sooner, i.add unit m = .ok sooner ∧ sooner < later := by
  obtain ⟨sooner, hsooner⟩ := exists_add_between (i.add_zero unit) hn hm h.le
  exact ⟨sooner, hsooner, add_lt_add hsooner hn h⟩

end Instant

end Deferral
