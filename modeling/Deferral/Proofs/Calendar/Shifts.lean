/-
# Deferral.Proofs.Calendar.Shifts -- which shifts stay on the calendar

A clock reading has an instant if the microseconds that it denotes lie on the calendar, which
those of a clock without an offset always do. A shift by a unit of fixed length moves along the
time line and fails only at its ends. A shift by months counts them and fails only before the
first month of the calendar or after the last one: the day, which is cut to the length of the
month, is never in the way.
-/

import Deferral.Calendar.Shift
import Deferral.Proofs.Calendar.Fields
import Deferral.Proofs.Failure.Chain

namespace Deferral

/-- The calendar has an instant at a number of microseconds. -/
def HasMicros (micros : Int) : Prop := 0 ≤ micros ∧ micros < Date.dayCount * microsPerDay

/-- The instant of a clock reading lies on the calendar. -/
def DateTime.OnCalendar (t : DateTime) : Prop := HasMicros t.utcMicros

namespace Instant

theorem hasMicros (i : Instant) : HasMicros i.micros :=
  ⟨Int.natCast_nonneg _, by exact_mod_cast i.micros_lt⟩

theorem ofMicros?_eq_some_iff {micros : Int} {i : Instant} :
    ofMicros? micros = some i ↔ HasMicros micros ∧ (i.micros : Int) = micros := by
  constructor
  · intro h
    rw [ofMicros?] at h
    split at h
    · next hin =>
        cases h
        exact ⟨⟨hin.1, (Int.toNat_lt hin.1).mp hin.2⟩, Int.toNat_of_nonneg hin.1⟩
    · cases h
  · rintro ⟨-, rfl⟩
    exact ofMicros?_micros i

/-- There is an instant at exactly the microseconds of the calendar. -/
theorem exists_ofMicros?_iff {micros : Int} :
    (∃ i, ofMicros? micros = some i) ↔ HasMicros micros := by
  simp only [ofMicros?_eq_some_iff]
  constructor
  · rintro ⟨i, h, -⟩
    exact h
  · intro h
    have hlt : micros.toNat < Date.dayCount * microsPerDay := (Int.toNat_lt h.1).mpr h.2
    exact ⟨⟨micros.toNat, hlt⟩, h, Int.toNat_of_nonneg h.1⟩

end Instant

/-! ## Clock readings -/

namespace DateTime

/-- A clock without an offset shows UTC. -/
theorem onCalendar_of_offset_none {t : DateTime} (h : t.offset = none) : t.OnCalendar := by
  have hmicros : t.utcMicros = t.wall.micros := by
    simp only [utcMicros, h, Option.map_none, Option.getD_none, Int.sub_zero]
  rw [OnCalendar, hmicros]
  exact t.wall.hasMicros

theorem toInstant_eq_ok_iff {t : DateTime} {i : Instant} :
    t.toInstant = .ok i ↔ (i.micros : Int) = t.utcMicros := by
  cases hoffset : t.offset with
  | none =>
      simp only [toInstant, utcMicros, hoffset, Option.map_none, Option.getD_none, Int.sub_zero,
        Except.ok.injEq, Int.natCast_inj]
      constructor
      · rintro rfl
        rfl
      · intro h
        cases i
        cases hwall : t.wall
        simp_all
  | some offset =>
      have hshift : t.wall.shift? (-offset.micros) = some i ↔ (i.micros : Int) = t.utcMicros := by
        have hsum : (t.wall.micros : Int) + -offset.micros = t.utcMicros := by
          simp only [utcMicros, hoffset, Option.map_some, Option.getD_some]
          omega
        rw [Instant.shift?, hsum, Instant.ofMicros?_eq_some_iff]
        constructor
        · rintro ⟨-, h⟩
          exact h
        · intro h
          exact ⟨h ▸ i.hasMicros, h⟩
      rw [← hshift, toInstant, hoffset]
      dsimp only
      cases t.wall.shift? (-offset.micros) with
      | none => simp only [reduceCtorEq]
      | some j => simp only [Except.ok.injEq, Option.some.injEq]

/-- A reading on the calendar has an instant. -/
theorem exists_toInstant_iff {t : DateTime} : (∃ i, t.toInstant = .ok i) ↔ t.OnCalendar := by
  simp only [toInstant_eq_ok_iff]
  constructor
  · rintro ⟨i, h⟩
    rw [OnCalendar, ← h]
    exact i.hasMicros
  · intro h
    obtain ⟨i, hi⟩ := Instant.exists_ofMicros?_iff.mpr h
    exact ⟨i, (Instant.ofMicros?_eq_some_iff.mp hi).2⟩

/-- A reading has no instant for one reason only. -/
theorem toInstant_eq_error {t : DateTime} {failure : Failure} (h : t.toInstant = .error failure) :
    failure = .offCalendar := by
  rw [toInstant] at h
  split at h
  · cases h
  · split at h
    · cases h
    · cases h
      rfl

theorem toInstant_of_not_onCalendar {t : DateTime} (h : ¬ t.OnCalendar) :
    t.toInstant = .error .offCalendar := by
  cases hresult : t.toInstant with
  | ok i => exact absurd (exists_toInstant_iff.mp ⟨i, hresult⟩) h
  | error failure => rw [toInstant_eq_error hresult]

end DateTime

/-! ## Months -/

namespace Date

/-- The month of a date, counted from the first January of year 0. -/
def monthIndex (d : Date) : Nat := 12 * d.year + (d.month - 1)

/-- The calendar has a month of this index. -/
def HasMonth (index : Int) : Prop := 12 ≤ index ∧ index < 12 * 10000

theorem one_le_daysInMonth {year month : Nat} (h : 1 ≤ month) (h' : month ≤ 12) :
    1 ≤ daysInMonth year month := by
  have hlength : ∀ n ∈ monthLengths year, 1 ≤ n := by
    unfold monthLengths
    split <;> decide
  have hin : month - 1 < (monthLengths year).length := by
    show month - 1 < 12
    omega
  rw [daysInMonth, List.getElem?_eq_getElem hin, Option.getD_some]
  exact hlength _ (List.getElem_mem hin)

/-- A shift by months leads to the month of the shifted index and to the same day of it, or to
its last day, and it fails if the calendar has no such month. -/
theorem addMonths_cases (d : Date) (count : Int) :
    (HasMonth (d.monthIndex + count) ∧ ∃ moved, d.addMonths count = .ok moved ∧
      (moved.monthIndex : Int) = d.monthIndex + count ∧
      moved.dayOfMonth = min d.dayOfMonth (daysInMonth moved.year moved.month)) ∨
    (¬ HasMonth (d.monthIndex + count) ∧ d.addMonths count =
      .error (if -2147483648 ≤ (d.monthIndex + count) / 12 ∧
          (d.monthIndex + count) / 12 < 2147483648 then .yearOffCalendar else .yearOverflow)) := by
  have hindex : 12 * (d.year : Int) + ((d.month - 1 : Nat) : Int) + count =
      d.monthIndex + count := by
    simp only [monthIndex, Nat.cast_add, Nat.cast_mul, Nat.cast_ofNat]
  simp only [addMonths, hindex]
  generalize (d.monthIndex : Int) + count = index
  have hmonth : 1 ≤ (index % 12).toNat + 1 ∧ (index % 12).toNat + 1 ≤ 12 := by omega
  have hday : 1 ≤ min d.dayOfMonth (daysInMonth (index / 12).toNat ((index % 12).toNat + 1)) :=
    Nat.le_min.mpr ⟨d.one_le_dayOfMonth, one_le_daysInMonth hmonth.1 hmonth.2⟩
  have hyear : 1 ≤ (index / 12).toNat ∧ (index / 12).toNat ≤ 9999 ↔ HasMonth index := by
    simp only [HasMonth]
    omega
  by_cases hin : HasMonth index
  · rw [ofFields?, dif_pos ⟨hyear.mpr hin, hmonth, hday, Nat.min_le_right _ _⟩]
    refine Or.inl ⟨hin, _, rfl, ?_, rfl⟩
    simp only [HasMonth] at hin
    simp only [monthIndex]
    omega
  · have hnone : ofFields? (index / 12).toNat ((index % 12).toNat + 1)
        (min d.dayOfMonth (daysInMonth (index / 12).toNat ((index % 12).toNat + 1))) = none := by
      rw [ofFields?, dif_neg]
      exact fun hfields => hin (hyear.mp hfields.1)
    rw [hnone]
    exact Or.inr ⟨hin, rfl⟩

/-- A date has one some months later if the calendar has that month. -/
theorem exists_addMonths_iff (d : Date) (count : Int) :
    (∃ moved, d.addMonths count = .ok moved) ↔ HasMonth (d.monthIndex + count) := by
  rcases d.addMonths_cases count with ⟨hin, moved, hmoved, -⟩ | ⟨hout, hfailed⟩
  · exact iff_of_true ⟨moved, hmoved⟩ hin
  · refine iff_of_false ?_ hout
    rintro ⟨moved, hmoved⟩
    cases hfailed.symm.trans hmoved

end Date

/-! ## Shifts by one unit -/

namespace Instant

/-- A shift by some units stays on the calendar. -/
def ShiftStays (i : Instant) (unit : TimeUnit) (amount : Int) : Prop :=
  match unit.stride with
  | .span micros => HasMicros (i.micros + micros * amount)
  | .months count => Date.HasMonth (i.date.monthIndex + count * amount)

theorem exists_add_iff (i : Instant) (unit : TimeUnit) (amount : Int) :
    (∃ moved, i.add unit amount = .ok moved) ↔ i.ShiftStays unit amount := by
  rw [add, ShiftStays]
  cases unit.stride with
  | span micros =>
      dsimp only
      rw [← exists_ofMicros?_iff, addSpan, shift?]
      cases ofMicros? (i.micros + micros * amount) with
      | none => simp
      | some moved => simp
  | months count =>
      dsimp only
      rw [← Date.exists_addMonths_iff, addMonths]
      cases i.date.addMonths (count * amount) with
      | error failure => simp [bind, Except.bind]
      | ok moved => simp [bind, Except.bind, pure, Except.pure]

end Instant

end Deferral
