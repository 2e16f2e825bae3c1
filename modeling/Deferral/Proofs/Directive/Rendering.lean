/-
# Deferral.Proofs.Directive.Rendering -- timestamps are in the order of their instants

An instant is written to the millisecond with 24 characters: its fields from the year to the
millisecond, each with as many digits as it can have. So the text is read back as the instant
without the rest of the millisecond, and of two texts the one that comes first, compared by code
points, is that of the earlier instant.
-/

import Deferral.Proofs.Calendar.Arithmetic
import Deferral.Proofs.Directive.Stamps
import Mathlib.Data.Char
import Mathlib.Data.List.Lex

namespace Deferral

/-! ## Numerals in order -/

theorem toNat_digitChar {d : Nat} (h : d < 10) : (digitChar d).toNat = 48 + d := by
  interval_cases d <;> rfl

theorem digitChar_lt_iff {d e : Nat} (hd : d < 10) (he : e < 10) :
    digitChar d < digitChar e ↔ d < e := by
  have hcode : digitChar d < digitChar e ↔ (digitChar d).toNat < (digitChar e).toNat := Iff.rfl
  rw [hcode, toNat_digitChar hd, toNat_digitChar he, Nat.add_lt_add_iff_left]

theorem digitChar_inj {d e : Nat} (hd : d < 10) (he : e < 10) :
    digitChar d = digitChar e ↔ d = e := by
  rw [← Char.toNat_inj, toNat_digitChar hd, toNat_digitChar he, Nat.add_left_cancel_iff]

/-- Texts that begin with numerals of one width are in the order of the numbers, and after equal
numbers in that of their rests. -/
theorem decimalFixed_append_lt_iff {width m n : Nat} (hm : m < 10 ^ width) (hn : n < 10 ^ width)
    {a b : List Char} :
    decimalFixed width m ++ a < decimalFixed width n ++ b ↔ m < n ∨ m = n ∧ a < b := by
  induction width generalizing m n a b with
  | zero =>
      obtain rfl : m = 0 := by simpa using hm
      obtain rfl : n = 0 := by simpa using hn
      simp [decimalFixed]
  | succ width ih =>
      -- The higher digits decide first; the lowest one then counts as the head of the rest.
      rw [Nat.pow_succ'] at hm hn
      have hhigher := ih (Nat.div_lt_of_lt_mul hm) (Nat.div_lt_of_lt_mul hn)
        (a := digitChar (m % 10) :: a) (b := digitChar (n % 10) :: b)
      have hmod : ∀ k, k % 10 < 10 := fun k => Nat.mod_lt k (by decide)
      rw [List.cons_lt_cons_iff, digitChar_lt_iff (hmod m) (hmod n),
        digitChar_inj (hmod m) (hmod n)] at hhigher
      rw [decimalFixed, decimalFixed, List.append_assoc, List.append_assoc, List.singleton_append,
        List.singleton_append, hhigher]
      by_cases hab : a < b
      · simp only [hab, and_true]
        omega
      · simp only [hab, and_false, or_false]
        omega

/-! ## Instants in order -/

namespace Date

theorem monthIndex_lt_iff {a b : Date} :
    a.monthIndex < b.monthIndex ↔ a.year < b.year ∨ a.year = b.year ∧ a.month < b.month := by
  have ha := a.one_le_month
  have ha' := a.month_le
  have hb := b.one_le_month
  have hb' := b.month_le
  simp only [monthIndex]
  omega

theorem monthIndex_eq_iff {a b : Date} :
    a.monthIndex = b.monthIndex ↔ a.year = b.year ∧ a.month = b.month := by
  have hab := monthIndex_lt_iff (a := a) (b := b)
  have hba := monthIndex_lt_iff (a := b) (b := a)
  omega

theorem day_eq_day_iff {a b : Date} :
    a.day = b.day ↔ a.year = b.year ∧ a.month = b.month ∧ a.dayOfMonth = b.dayOfMonth := by
  constructor
  · intro h
    rw [day_injective h]
    exact ⟨rfl, rfl, rfl⟩
  · rintro ⟨hyear, hmonth, hday⟩
    rw [eq_of_monthIndex_eq (monthIndex_eq_iff.mpr ⟨hyear, hmonth⟩) hday]

end Date

namespace Instant

/-- The clock goes by its hours, minutes, seconds and milliseconds, in this order. -/
theorem sinceMidnight_lt_iff {i j : Instant} :
    i.sinceMidnight / 1000 < j.sinceMidnight / 1000 ↔
      i.hour < j.hour ∨ i.hour = j.hour ∧ (i.minute < j.minute ∨ i.minute = j.minute ∧
        (i.second < j.second ∨ i.second = j.second ∧
          i.microsecond / 1000 < j.microsecond / 1000)) := by
  have hi := i.sum_fields
  have hj := j.sum_fields
  have hminute := i.minute_le
  have hminute' := j.minute_le
  have hsecond := i.second_le
  have hsecond' := j.second_le
  have hmicros := i.microsecond_lt
  have hmicros' := j.microsecond_lt
  simp only [microsPerHour, microsPerMinute, microsPerSecond] at *
  omega

/-- The time line goes by the date and then by the clock. -/
theorem millis_lt_iff {i j : Instant} :
    i.micros / 1000 < j.micros / 1000 ↔ i.date.day < j.date.day ∨
      i.date.day = j.date.day ∧ i.sinceMidnight / 1000 < j.sinceMidnight / 1000 := by
  have hi := i.sinceMidnight_lt
  have hj := j.sinceMidnight_lt
  rw [micros_eq i, micros_eq j]
  simp only [microsPerDay, microsPerHour, microsPerMinute, microsPerSecond] at *
  omega

/-! ## Timestamps in order -/

theorem isoMillis_eq (i : Instant) :
    i.isoMillis = decimalFixed 4 i.date.year ++ '-' :: (decimalFixed 2 i.date.month ++ '-' ::
      (decimalFixed 2 i.date.dayOfMonth ++ 'T' :: (decimalFixed 2 i.hour ++ ':' ::
        (decimalFixed 2 i.minute ++ ':' :: (decimalFixed 2 i.second ++ '.' ::
          (decimalFixed 3 (i.microsecond / 1000) ++ ['Z'])))))) := by
  simp [isoMillis, Date.iso, isoClock]

theorem length_isoMillis (i : Instant) : i.isoMillis.length = 24 := by
  simp [isoMillis_eq]

/-- A timestamp comes before another one if its instant does, by whole milliseconds. -/
theorem isoMillis_lt_iff {i j : Instant} :
    i.isoMillis < j.isoMillis ↔ i.micros / 1000 < j.micros / 1000 := by
  have hmillis : ∀ k : Instant, k.microsecond / 1000 < 10 ^ 3 := by
    intro k
    have := k.microsecond_lt
    simp only [microsPerSecond] at this
    omega
  have htwo : ∀ {n bound : Nat}, n ≤ bound → bound ≤ 59 → n < 10 ^ 2 := by omega
  have hmark : ∀ (c : Char) (a b : List Char), c :: a < c :: b ↔ a < b := by
    intro c a b
    rw [List.cons_lt_cons_iff]
    simp
  rw [isoMillis_eq, isoMillis_eq,
    decimalFixed_append_lt_iff i.date.year_lt j.date.year_lt, hmark,
    decimalFixed_append_lt_iff i.date.month_lt j.date.month_lt, hmark,
    decimalFixed_append_lt_iff i.date.dayOfMonth_lt j.date.dayOfMonth_lt, hmark,
    decimalFixed_append_lt_iff (htwo i.hour_le (by decide)) (htwo j.hour_le (by decide)), hmark,
    decimalFixed_append_lt_iff (htwo i.minute_le (by decide)) (htwo j.minute_le (by decide)), hmark,
    decimalFixed_append_lt_iff (htwo i.second_le (by decide)) (htwo j.second_le (by decide)), hmark,
    decimalFixed_append_lt_iff (hmillis i) (hmillis j),
    millis_lt_iff, sinceMidnight_lt_iff, Date.day_lt_day_iff, Date.day_eq_day_iff,
    Date.monthIndex_lt_iff, Date.monthIndex_eq_iff]
  -- Both sides list the same cases: a field is less, and all fields before it are equal.
  simp only [lt_self_iff_false, and_false, or_false, and_or_left, and_assoc, or_assoc]

/-- A timestamp denotes the instant that it was written for, without the rest of the
millisecond. -/
theorem parseTimestamp?_isoMillis (i : Instant) :
    parseTimestamp? i.isoMillis = some i.truncateToMillis :=
  parseTimestamp?_of_readMoment? (readMoment?_isoMillis i [])

theorem isoMillis_truncateToMillis (i : Instant) : i.truncateToMillis.isoMillis = i.isoMillis := by
  rw [isoMillis_eq, isoMillis_eq]
  simp

theorem micros_truncateToMillis (i : Instant) :
    i.truncateToMillis.micros = i.micros / 1000 * 1000 := rfl

end Instant

/-- A reading on the calendar is written as its instant is. -/
theorem formatInstant_of_toInstant {t : DateTime} {i : Instant} (h : t.toInstant = .ok i) :
    formatInstant t = .ok i.isoMillis := by
  rw [formatInstant, h]
  rfl

/-- **Instants are read as they are written, and written in their order.** Every reading on the
calendar is written with 24 characters, which are read back as its instant without the rest of the
millisecond; of two readings the texts are in the order of these instants. Whatever timestamp is
read, the instant is written as one that is read, and from then on neither reading nor writing
changes anything. -/
theorem formatInstant_faithful :
    (∀ t : DateTime, t.OnCalendar → ∃ i text, t.toInstant = .ok i ∧ formatInstant t = .ok text ∧
      text.length = 24 ∧ parseTimestamp? text = some i.truncateToMillis) ∧
    (∀ t u : DateTime, t.OnCalendar → u.OnCalendar → ∃ i j first second,
      (t.toInstant = .ok i ∧ u.toInstant = .ok j) ∧
      (formatInstant t = .ok first ∧ formatInstant u = .ok second) ∧
      (first ≤ second ↔ i.truncateToMillis.micros ≤ j.truncateToMillis.micros)) ∧
    ∀ s i, parseTimestamp? s = some i → ∃ text j, formatInstant (.utc i) = .ok text ∧
      parseTimestamp? text = some j ∧ formatInstant (.utc j) = .ok text := by
  refine ⟨fun t ht => ?_, fun t u ht hu => ?_, fun s i _ => ?_⟩
  · obtain ⟨i, hi⟩ := DateTime.exists_toInstant_iff.mpr ht
    exact ⟨i, i.isoMillis, hi, formatInstant_of_toInstant hi, i.length_isoMillis,
      i.parseTimestamp?_isoMillis⟩
  · obtain ⟨i, hi⟩ := DateTime.exists_toInstant_iff.mpr ht
    obtain ⟨j, hj⟩ := DateTime.exists_toInstant_iff.mpr hu
    refine ⟨i, j, i.isoMillis, j.isoMillis, ⟨hi, hj⟩,
      ⟨formatInstant_of_toInstant hi, formatInstant_of_toInstant hj⟩, ?_⟩
    rw [← not_lt, Instant.isoMillis_lt_iff, Instant.micros_truncateToMillis,
      Instant.micros_truncateToMillis]
    omega
  · refine ⟨i.isoMillis, i.truncateToMillis,
      formatInstant_of_toInstant (DateTime.toInstant_utc i), i.parseTimestamp?_isoMillis, ?_⟩
    rw [formatInstant_of_toInstant (DateTime.toInstant_utc _), i.isoMillis_truncateToMillis]

/-- A clock without an offset in the last hour of the 29th of February 2024, a microsecond before
a whole millisecond. -/
def lastHour : DateTime := ⟨⟨63844846200123999, by decide⟩, none⟩

/-- It is a later instant than that of `marchHour`, which shows the next day. -/
theorem formatInstant_faithful_lastHour :
    (lastHour.OnCalendar ∧ marchHour.OnCalendar) ∧
    (formatInstant lastHour = .ok "2024-02-29T23:30:00.123Z".toList ∧
      parseTimestamp? "2024-02-29T23:30:00.123Z".toList =
        some ⟨63844846200123000, by decide⟩) ∧
    ¬ "2024-02-29T23:30:00.123Z".toList ≤ "2024-02-29T22:30:00.000Z".toList := by
  have hlast : lastHour.OnCalendar := ⟨by decide, by decide⟩
  have hmarch : marchHour.OnCalendar := ⟨by decide, by decide⟩
  have htext : formatInstant lastHour = .ok "2024-02-29T23:30:00.123Z".toList := by decide +kernel
  have htext' : formatInstant marchHour = .ok "2024-02-29T22:30:00.000Z".toList := by
    decide +kernel
  obtain ⟨hread, horder, -⟩ := formatInstant_faithful
  obtain ⟨i, text, hi, hformat, -, hparse⟩ := hread lastHour hlast
  obtain ⟨i', j, first, second, ⟨hi', hj⟩, ⟨hfirst, hsecond⟩, hle⟩ :=
    horder lastHour marchHour hlast hmarch
  cases hi.symm.trans (show lastHour.toInstant = .ok ⟨63844846200123999, by decide⟩ from rfl)
  cases hi'.symm.trans (show lastHour.toInstant = .ok ⟨63844846200123999, by decide⟩ from rfl)
  cases hj.symm.trans (show marchHour.toInstant = .ok ⟨63844842600000000, by decide⟩ from rfl)
  cases htext.symm.trans hformat
  cases htext.symm.trans hfirst
  cases htext'.symm.trans hsecond
  refine ⟨⟨hlast, hmarch⟩, ⟨htext, hparse⟩, ?_⟩
  rw [hle]
  decide

end Deferral
