/-
# Deferral.Proofs.Job.Precision -- how exactly a queue in memory keeps an instant

The seconds of an instant are the nearest double, and the microseconds of this double are the
nearest integer. Multiplying the fraction of a second as a double does no harm: either the double
is so fine that its microseconds are the ones that it was made of, or its fraction has so few
digits that the product is exact. On the calendar a double is off by less than 16 microseconds.
The calendar begins and ends with whole seconds, which rounding does not cross. But it reaches
them, and the end is no longer on the calendar.
-/

import Deferral.Proofs.Calendar.Arithmetic
import Deferral.Proofs.Job.DryRun
import Deferral.Proofs.Number.Nearest

namespace Deferral

open Binary64

/-! ## Coarse doubles -/

section Coarse

variable {x : Binary64} (h : -19 ≤ x.exponent)
include h

/-- A fraction of few digits is multiplied exactly. -/
theorem size_partMicros_of_coarse :
    (partMicros x).size = ((x.numerator % x.denominator : Nat) : ℚ) / x.denominator * 10 ^ 6 := by
  have hden : (x.denominator : ℚ) = 2 ^ (-x.exponent).toNat := natCast_twoTo _
  have hdigits : x.numerator % x.denominator * microsPerSecond < twoTo 53 := by
    have hmod := Nat.mod_lt x.numerator x.denominator_pos
    have hsmall : x.denominator ≤ 2 ^ 19 := Nat.pow_le_pow_right two_pos (by omega)
    have hroom : 2 ^ 19 * microsPerSecond < twoTo 53 := by decide
    exact (Nat.mul_le_mul_right _ (hmod.le.trans hsmall)).trans_lt hroom
  unfold partMicros
  rw [size_ofRatio_of_exact false x.denominator_pos hdigits (e := -((-x.exponent).toNat : Int))
    (by omega) (by omega), Nat.cast_mul, natCast_microsPerSecond, div_mul_eq_mul_div]
  rw [hden, zpow_neg, zpow_natCast, div_eq_mul_inv]

/-- So the microseconds are rounded once, and half to even. -/
theorem isNearestEven_of_coarse :
    IsNearestEven (x.size * 10 ^ 6) (microsOfSeconds x).natAbs := by
  have hround := isNearestEven_roundHalfEven (partMicros x).numerator (partMicros x).denominator_pos
  rw [numerator_div_denominator, size_partMicros_of_coarse h] at hround
  -- The whole seconds are an even number of microseconds, so they do not change what is even.
  have heven : Even ((x.numerator / x.denominator * microsPerSecond : Nat) : Int) := by
    rw [Int.even_coe_nat]
    exact Nat.even_mul.mpr (Or.inr (by decide))
  have hsplit : x.size * 10 ^ 6 =
      ((x.numerator / x.denominator * microsPerSecond : Nat) : Int) +
        ((x.numerator % x.denominator : Nat) : ℚ) / x.denominator * 10 ^ 6 := by
    rw [size_eq_whole_add, add_mul, Int.cast_natCast, Nat.cast_mul, natCast_microsPerSecond]
  rw [hsplit, natAbs_microsOfSeconds, Nat.cast_add]
  exact hround.even_add heven

end Coarse

/-! ## There and back -/

section Micros

variable {n : Nat} (negative : Bool)

/-- Less than a power of two of seconds has its scale below it. -/
theorem scaleOf_micros_le {e : Int} (he : -1074 ≤ e) (hn : 0 < n)
    (h : (n : ℚ) < 2 ^ (e + 53) * 10 ^ 6) : scaleOf n microsPerSecond ≤ e := by
  apply scaleOf_le hn (by decide) he
  rw [natCast_microsPerSecond, div_lt_iff₀ (by norm_num)]
  exact h

/-- All microseconds of the calendar have a small scale. -/
theorem scaleOf_micros_le_of_lt (h : n < 2 ^ 58) : scaleOf n microsPerSecond ≤ 970 := by
  rcases Nat.eq_zero_or_pos n with rfl | hn
  · decide
  · have hscale : scaleOf n microsPerSecond ≤ 5 := by
      apply scaleOf_micros_le (by decide) hn
      calc (n : ℚ) < 2 ^ 58 := by exact_mod_cast h
        _ ≤ 2 ^ ((5 : Int) + 53) * 10 ^ 6 := by norm_num
    omega

/-- Below a power of two of seconds the double is off by at most half a unit of 53 digits. -/
theorem abs_size_micros_sub_le {e : Int} (he : -1074 ≤ e) (he' : e ≤ 970)
    (h : (n : ℚ) < 2 ^ (e + 53) * 10 ^ 6) :
    |(ofRatio negative n microsPerSecond).size * 10 ^ 6 - n| ≤ 2 ^ e / 2 * 10 ^ 6 := by
  rcases Nat.eq_zero_or_pos n with rfl | hn
  · rw [ofRatio_zero, size_zero, Nat.cast_zero, zero_mul, sub_zero, abs_zero]
    positivity
  · have hscale := scaleOf_micros_le he hn h
    have hround := abs_size_ofRatio_sub_le negative hn (by decide : 0 < microsPerSecond)
      (hscale.trans he')
    have hunit : (2 : ℚ) ^ scaleOf n microsPerSecond ≤ 2 ^ e :=
      zpow_le_zpow_right₀ one_le_two hscale
    rw [natCast_microsPerSecond, abs_le] at hround
    rw [abs_le]
    constructor <;> linarith [hround.1, hround.2]

/-- A whole number of seconds is a double. -/
theorem exists_size_eq_natCast {m : Nat} (h : m < twoTo 53) : ∃ x : Binary64, x.size = m := by
  refine ⟨ofRatio false m 1, ?_⟩
  rw [size_ofRatio_of_exact false Nat.one_pos h (e := 0) (by decide) (by decide) (by simp)]
  simp

/-- Below 2^33 seconds, microseconds are the ones that are nearest to their double. -/
theorem natAbs_microsOfSeconds_of_lt (h : n < 2 ^ 33 * 10 ^ 6) :
    (microsOfSeconds (ofRatio negative n microsPerSecond)).natAbs = n ∧
      IsNearestEven ((ofRatio negative n microsPerSecond).size * 10 ^ 6) n := by
  -- Half a unit is less than half a microsecond.
  have hnear : |(ofRatio negative n microsPerSecond).size * 10 ^ 6 - n| ≤ 31 / 64 := by
    have hlt : (n : ℚ) < 2 ^ ((-20 : Int) + 53) * 10 ^ 6 := by
      calc (n : ℚ) < 2 ^ 33 * 10 ^ 6 := by exact_mod_cast h
        _ = 2 ^ ((-20 : Int) + 53) * 10 ^ 6 := by norm_num
    exact (abs_size_micros_sub_le negative (by decide) (by decide) hlt).trans (by norm_num)
  constructor
  · exact natAbs_microsOfSeconds_eq _ hnear
  · left
    rw [Int.cast_natCast]
    linarith

/-- From 2^33 seconds on, a double has few digits after the point. -/
theorem le_exponent_of_le (h : 2 ^ 33 * 10 ^ 6 ≤ n) (h' : n < 2 ^ 58) :
    -19 ≤ (ofRatio negative n microsPerSecond).exponent := by
  have hroom : 2 ^ 33 < twoTo 53 := by decide
  obtain ⟨bound, hbound⟩ := exists_size_eq_natCast hroom
  have hle : bound.size ≤ (n : ℚ) / microsPerSecond := by
    rw [hbound, natCast_microsPerSecond, le_div_iff₀ (by norm_num)]
    exact_mod_cast h
  apply le_exponent_of_le_size
  calc (2 : ℚ) ^ ((-19 : Int) + 52) = (2 ^ 33 : Nat) := by norm_num
    _ = bound.size := hbound.symm
    _ ≤ (ofRatio negative n microsPerSecond).size :=
        le_size_ofRatio negative (by decide) (scaleOf_micros_le_of_lt h') hle

/-- The microseconds of the double are the nearest ones. -/
theorem isNearestEven_microsOfSeconds (h : n < 2 ^ 58) :
    IsNearestEven ((ofRatio negative n microsPerSecond).size * 10 ^ 6)
      (microsOfSeconds (ofRatio negative n microsPerSecond)).natAbs := by
  rcases Nat.lt_or_ge n (2 ^ 33 * 10 ^ 6) with hfine | hcoarse
  · obtain ⟨hsame, hnearest⟩ := natAbs_microsOfSeconds_of_lt negative hfine
    rw [hsame]
    exact hnearest
  · exact isNearestEven_of_coarse (le_exponent_of_le negative hcoarse h)

/-- Below 2^38 seconds they are less than 16 away. -/
theorem natAbs_microsOfSeconds_near (h : n < 2 ^ 38 * 10 ^ 6) :
    (microsOfSeconds (ofRatio negative n microsPerSecond)).natAbs ≤ n + 15 ∧
      n ≤ (microsOfSeconds (ofRatio negative n microsPerSecond)).natAbs + 15 := by
  have hlt : (n : ℚ) < 2 ^ ((-15 : Int) + 53) * 10 ^ 6 := by
    calc (n : ℚ) < 2 ^ 38 * 10 ^ 6 := by exact_mod_cast h
      _ = 2 ^ ((-15 : Int) + 53) * 10 ^ 6 := by norm_num
  have hnear := abs_size_micros_sub_le negative (by decide) (by decide) hlt
  have hback := abs_natAbs_microsOfSeconds_sub_le (ofRatio negative n microsPerSecond)
  generalize (microsOfSeconds (ofRatio negative n microsPerSecond)).natAbs = back at *
  rw [abs_le] at hnear hback
  have hunit : (2 : ℚ) ^ (-15 : Int) / 2 * 10 ^ 6 < 15.3 := by norm_num
  have hupper : (back : ℚ) < n + 16 := by linarith [hnear.2, hback.2]
  have hlower : (n : ℚ) < back + 16 := by linarith [hnear.1, hback.1]
  norm_cast at hupper hlower
  omega

/-- A whole second is not crossed. -/
theorem natAbs_microsOfSeconds_le {m : Nat} (hm : m < 2 ^ 38) (h : n ≤ m * 10 ^ 6) :
    (microsOfSeconds (ofRatio negative n microsPerSecond)).natAbs ≤ m * 10 ^ 6 := by
  have hn : n < 2 ^ 58 := by omega
  have hroom : m < twoTo 53 := hm.trans (by decide)
  obtain ⟨bound, hbound⟩ := exists_size_eq_natCast hroom
  have hle : (n : ℚ) / microsPerSecond ≤ bound.size := by
    rw [hbound, natCast_microsPerSecond, div_le_iff₀ (by norm_num)]
    exact_mod_cast h
  have hsize := size_ofRatio_le negative (by decide) (scaleOf_micros_le_of_lt hn) hle
  rw [hbound] at hsize
  -- What is nearest to a number below a whole one is not above this either.
  have hback := (abs_le.mp (isNearestEven_microsOfSeconds negative hn).abs_sub_le).1
  rw [Int.cast_natCast] at hback
  generalize (microsOfSeconds (ofRatio negative n microsPerSecond)).natAbs = back at *
  have hlt : (back : ℚ) < m * 10 ^ 6 + 1 := by linarith
  norm_cast at hlt
  omega

/-- The scale of what lies between 2^37 and 2^38 seconds. -/
theorem scaleOf_micros_eq (h : 2 ^ 37 * 10 ^ 6 ≤ n) (h' : n < 2 ^ 38 * 10 ^ 6) :
    scaleOf n microsPerSecond = -15 := by
  have hn : 0 < n := by omega
  have hlow : (2 : ℚ) ^ 37 * 10 ^ 6 ≤ n := by exact_mod_cast h
  have hhigh : (n : ℚ) < 2 ^ 38 * 10 ^ 6 := by exact_mod_cast h'
  apply scaleOf_eq hn (by decide) (by decide)
  · rw [natCast_microsPerSecond, le_div_iff₀ (by norm_num)]
    exact le_of_eq_of_le (by norm_num) hlow
  · rw [natCast_microsPerSecond, div_lt_iff₀ (by norm_num)]
    exact lt_of_lt_of_eq hhigh (by norm_num)

section LastBinade

variable {m : Nat} (hm : 2 ^ 37 < m) (hm' : m < 2 ^ 38) (h : n ≤ m * 10 ^ 6)
  (h' : m * 10 ^ 6 ≤ n + 15)
include hm hm' h h'

/-- The unit of the last place is 30 microseconds here, so half of it reaches over 15. -/
theorem ofRatio_micros_of_near :
    ofRatio negative n microsPerSecond = ofSignificand negative (m * 2 ^ 15) (-15) := by
  have hleast : 2 ^ 37 * 10 ^ 6 ≤ n := by
    norm_num at hm ⊢
    omega
  have hbefore : (n : ℚ) ≤ m * 10 ^ 6 := by exact_mod_cast h
  have hafter : (m : ℚ) * 10 ^ 6 ≤ n + 15 := by exact_mod_cast h'
  apply ofRatio_eq_of_near (by omega) (by decide) (scaleOf_micros_eq hleast (by omega))
  have hunit : (2 : ℚ) ^ (-15 : Int) = 1 / 32768 := by norm_num
  rw [natCast_microsPerSecond, hunit, abs_lt]
  push_cast
  constructor <;> linarith

/-- But a whole second is reached from the last 15 microseconds before it. -/
theorem natAbs_microsOfSeconds_of_near :
    (microsOfSeconds (ofRatio negative n microsPerSecond)).natAbs = m * 10 ^ 6 := by
  have hfirst : twoTo 52 ≤ m * 2 ^ 15 := show 2 ^ 52 ≤ m * 2 ^ 15 by omega
  have hlast : m * 2 ^ 15 < twoTo 53 := show m * 2 ^ 15 < 2 ^ 53 by omega
  have hexp : (-1074 : Int) ≤ -15 := by decide
  have hexact : ((m * 2 ^ 15 : Nat) : ℚ) * 2 ^ (-15 : Int) = m := by
    push_cast
    rw [mul_assoc]
    norm_num
  rw [ofRatio_micros_of_near negative hm hm' h h']
  apply natAbs_microsOfSeconds_of_whole
  rw [(ofSignificand_normal negative hfirst hlast hexp (by decide)).2, hexact]

end LastBinade

end Micros

/-! ## With a sign -/

section Signed

variable {micros : Int}

theorem IsNearestEven.withSign_microsOfSeconds {x : Binary64}
    (h : IsNearestEven (x.size * 10 ^ 6) (microsOfSeconds x).natAbs) :
    IsNearestEven (x.value * 10 ^ 6) (microsOfSeconds x) := by
  rw [microsOfSeconds_eq]
  unfold value withSign
  cases x.negative
  · exact h
  · simp only [if_true, neg_mul]
    exact h.neg

/-- Sizes go there and back, and the sign stays. -/
theorem microsOfSeconds_secondsOfMicros (micros : Int) :
    let back := (microsOfSeconds (ofRatio (micros < 0) micros.natAbs microsPerSecond)).natAbs
    microsOfSeconds (secondsOfMicros micros) = if micros < 0 then -(back : Int) else back := by
  have hsign := microsOfSeconds_eq (secondsOfMicros micros)
  rw [secondsOfMicros, negative_ofRatio] at hsign
  simp only [withSign, decide_eq_true_eq] at hsign
  exact hsign

theorem isNearestEven_of_secondsOfMicros (h : micros.natAbs < 2 ^ 58) :
    IsNearestEven ((secondsOfMicros micros).value * 10 ^ 6)
      (microsOfSeconds (secondsOfMicros micros)) :=
  (isNearestEven_microsOfSeconds _ h).withSign_microsOfSeconds

/-- Seconds are the double that is nearest to them. -/
theorem abs_secondsOfMicros_sub_le (h : micros.natAbs < 2 ^ 58) (other : Binary64) :
    |(secondsOfMicros micros).value - micros / 10 ^ 6| ≤ |other.value - micros / 10 ^ 6| := by
  have hnear := abs_value_ofRatio_sub_le_abs (decide (micros < 0)) (by decide : 0 < microsPerSecond)
    (scaleOf_micros_le_of_lt h) other
  rw [withSign_natAbs, natCast_microsPerSecond] at hnear
  exact hnear

theorem microsOfSeconds_secondsOfMicros_of_lt (h : micros.natAbs < 2 ^ 33 * 10 ^ 6) :
    microsOfSeconds (secondsOfMicros micros) = micros := by
  rw [microsOfSeconds_secondsOfMicros, (natAbs_microsOfSeconds_of_lt _ h).1]
  split <;> omega

theorem microsOfSeconds_secondsOfMicros_near (h : micros.natAbs < 2 ^ 38 * 10 ^ 6) :
    |microsOfSeconds (secondsOfMicros micros) - micros| ≤ 15 := by
  obtain ⟨hupper, hlower⟩ := natAbs_microsOfSeconds_near (decide (micros < 0)) h
  rw [microsOfSeconds_secondsOfMicros, abs_le]
  split <;> omega

end Signed

/-! ## The calendar -/

/-- The seconds of the calendar before 1970. -/
def secondsBefore : Nat := 62135596800

/-- The seconds of the calendar from 1970 on. -/
def secondsAfter : Nat := 253402300800

theorem epochMicros_eq : epochMicros = secondsBefore * 10 ^ 6 := by decide

theorem calendarMicros_eq :
    Date.dayCount * microsPerDay = secondsBefore * 10 ^ 6 + secondsAfter * 10 ^ 6 := by decide

namespace Instant

/-- The microseconds since the beginning of 1970. -/
def sinceEpoch (i : Instant) : Int := i.micros - epochMicros

variable (i : Instant)

theorem natAbs_sinceEpoch_lt : i.sinceEpoch.natAbs < 2 ^ 38 * 10 ^ 6 := by
  have hlt := i.micros_lt
  have hbefore : secondsBefore < 2 ^ 38 := by decide
  have hafter : secondsAfter < 2 ^ 38 := by decide
  rw [calendarMicros_eq] at hlt
  rw [sinceEpoch, epochMicros_eq]
  omega

/-- The way there and back does not lead before the calendar. -/
theorem neg_epochMicros_le :
    -(epochMicros : Int) ≤ microsOfSeconds (secondsOfMicros i.sinceEpoch) := by
  rw [microsOfSeconds_secondsOfMicros, epochMicros_eq]
  split
  · next hnegative =>
      have hbefore : secondsBefore < 2 ^ 38 := by decide
      have hn : i.sinceEpoch.natAbs ≤ secondsBefore * 10 ^ 6 := by
        rw [sinceEpoch, epochMicros_eq] at hnegative ⊢
        omega
      have hback := natAbs_microsOfSeconds_le (decide (i.sinceEpoch < 0)) hbefore hn
      omega
  · omega

/-- From the last 15 microseconds it leads to the end of the calendar. -/
theorem microsOfSeconds_eq_secondsAfter (h : Date.dayCount * microsPerDay ≤ i.micros + 15) :
    microsOfSeconds (secondsOfMicros i.sinceEpoch) = secondsAfter * 10 ^ 6 := by
  have hlt := i.micros_lt
  have hsince : i.sinceEpoch.natAbs ≤ secondsAfter * 10 ^ 6 ∧
      secondsAfter * 10 ^ 6 ≤ i.sinceEpoch.natAbs + 15 ∧ ¬ i.sinceEpoch < 0 := by
    have hlong : 15 ≤ secondsAfter * 10 ^ 6 := by decide
    rw [calendarMicros_eq] at h hlt
    rw [sinceEpoch, epochMicros_eq]
    omega
  have hbinade : 2 ^ 37 < secondsAfter ∧ secondsAfter < 2 ^ 38 := by decide
  rw [microsOfSeconds_secondsOfMicros, if_neg hsince.2.2,
    natAbs_microsOfSeconds_of_near _ hbinade.1 hbinade.2 hsince.1 hsince.2.1, Nat.cast_mul]
  rfl

/-- Only from there does it lead off the calendar. -/
theorem hasMicros_back_iff :
    HasMicros (epochMicros + microsOfSeconds (secondsOfMicros i.sinceEpoch)) ↔
      i.micros + 15 < Date.dayCount * microsPerDay := by
  constructor
  · rintro ⟨-, hin⟩
    by_contra hlast
    rw [i.microsOfSeconds_eq_secondsAfter (not_lt.mp hlast), ← Nat.cast_mul, calendarMicros_eq,
      epochMicros_eq] at hin
    omega
  · intro hearlier
    have hlow := i.neg_epochMicros_le
    have hnear := abs_le.mp (microsOfSeconds_secondsOfMicros_near i.natAbs_sinceEpoch_lt)
    unfold HasMicros
    rw [sinceEpoch] at *
    omega

end Instant

/-! ## Submissions -/

theorem isFinite_secondsOfMicros {micros : Int} (h : micros.natAbs < 2 ^ 58) :
    (secondsOfMicros micros).isFinite = true := by
  rw [secondsOfMicros]
  rcases Nat.eq_zero_or_pos micros.natAbs with hzero | hpos
  · rw [hzero, ofRatio_zero]
    rfl
  · exact (size_ofRatio _ hpos (by decide) (scaleOf_micros_le_of_lt h)).1

/-- Seconds that are not too many are an instant if the calendar has their microseconds. -/
theorem instantOfSeconds_float {x : Binary64} (hfinite : x.isFinite = true)
    (hrange : (microsOfSeconds x).natAbs < 2 ^ 59) :
    instantOfSeconds (.float x) =
      match Instant.ofMicros? (epochMicros + microsOfSeconds x) with
      | some i => .ok i
      | none => .error .yearOffCalendar := by
  have hfield : (x.exponentField == 2047) = false := by
    rw [isFinite, bne_iff_ne] at hfinite
    exact beq_eq_false_iff_ne.mpr hfinite
  have hnan : x.isNaN = false := by rw [isNaN, hfield, Bool.false_and]
  have hinfinite : x.isInfinite = false := by rw [isInfinite, hfield, Bool.false_and]
  have hsize : -2 ^ 40 ≤ microsOfSeconds x / microsPerSecond ∧
      microsOfSeconds x / microsPerSecond ≤ 2 ^ 40 := by
    have hmillion : microsPerSecond = 1000000 := rfl
    rw [hmillion]
    omega
  -- Both guards of the conversion are far off.
  have hyears : yearRange.1 < -2 ^ 40 ∧ 2 ^ 40 < yearRange.2 := by decide
  have hwords : ¬ (microsOfSeconds x / microsPerSecond < -9223372036854775808 ∨
      9223372036854775808 ≤ microsOfSeconds x / microsPerSecond) := by omega
  have hnumbers : ¬ (microsOfSeconds x / microsPerSecond < yearRange.1 ∨
      yearRange.2 < microsOfSeconds x / microsPerSecond) := by omega
  simp only [instantOfSeconds, hnan, hinfinite, Bool.false_eq_true, if_false]
  unfold instantSinceEpoch
  exact (if_neg hwords).trans (if_neg hnumbers)

/-- The instant that is made of the seconds of another one. -/
theorem instantOfSeconds_sinceEpoch (i : Instant) :
    (i.micros + 15 < Date.dayCount * microsPerDay → ∃ kept,
      instantOfSeconds (.float (secondsOfMicros i.sinceEpoch)) = .ok kept ∧
      kept.sinceEpoch = microsOfSeconds (secondsOfMicros i.sinceEpoch)) ∧
    (Date.dayCount * microsPerDay ≤ i.micros + 15 →
      instantOfSeconds (.float (secondsOfMicros i.sinceEpoch)) = .error .yearOffCalendar) := by
  have hsince := i.natAbs_sinceEpoch_lt
  have hnear := abs_le.mp (microsOfSeconds_secondsOfMicros_near hsince)
  rw [instantOfSeconds_float (isFinite_secondsOfMicros (by omega)) (by omega)]
  constructor
  · intro hearlier
    obtain ⟨kept, hkept⟩ := Instant.exists_ofMicros?_iff.mpr (i.hasMicros_back_iff.mpr hearlier)
    refine ⟨kept, by rw [hkept], ?_⟩
    rw [Instant.sinceEpoch, (Instant.ofMicros?_eq_some_iff.mp hkept).2, add_sub_cancel_left]
  · intro hlast
    cases hmicros : Instant.ofMicros?
        (epochMicros + microsOfSeconds (secondsOfMicros i.sinceEpoch)) with
    | none => rfl
    | some kept =>
        have hin := (Instant.ofMicros?_eq_some_iff.mp hmicros).1
        exact absurd (i.hasMicros_back_iff.mp hin) (by omega)

theorem Instant.eq_of_sinceEpoch_eq {i j : Instant} (h : i.sinceEpoch = j.sinceEpoch) : i = j := by
  apply eq_of_micros_eq
  rw [sinceEpoch, sinceEpoch] at h
  omega

theorem JobRequest.ofSubmission_int (kind : JobKind) (n : Int) (x : Binary64) :
    ofSubmission (.text kind.name) (.map [(.text "id", .int n)]) (.float x) =
      (instantOfSeconds (.float x)).map fun i => ⟨kind, .int n, .utc i⟩ := by
  rw [ofSubmission, JobKind.ofValue_name]
  cases instantOfSeconds (.float x) <;> rfl

/-- A service with a queue in memory keeps the job for a submission, or it stays what it is. -/
theorem Service.submit_memory {service : Service} {jobs : List JobRequest}
    (hqueue : service.queue = .memory jobs) (kind payload startAfter : Value) :
    Service.submit kind payload startAfter service =
      match JobRequest.ofSubmission kind payload startAfter with
      | .error failure => (.error failure, service)
      | .ok job => (.ok (), { service with queue := .memory (jobs ++ [job]) }) := by
  obtain ⟨store, queue, published, clock, log⟩ := service
  subst hqueue
  simp only [Service.submit, Queue.submit]
  cases JobRequest.ofSubmission kind payload startAfter with
  | error failure => simp [Except.map, Except.toOption]
  | ok job => simp [Except.map, Except.toOption]

/-- **A dry run keeps the instant that was asked for, within the precision of a double.** The
seconds of a job are the double that is nearest to its instant. A queue in memory puts one job of
this kind and with this id at the end of its list, and the microseconds of the job are the ones
nearest to these seconds, and even if there are two. Its instant is less than 16 microseconds
away, and the very same if it is less than 2^33 seconds from 1970. Only in the last 15
microseconds of the calendar does the submission fail, and then it changes nothing. -/
theorem Service.submit_keeps_instant {service : Service} {jobs : List JobRequest}
    (hqueue : service.queue = .memory jobs) (kind : JobKind) (id : Int) {fireAt : DateTime}
    (h : fireAt.OnCalendar) :
    ∃ due, fireAt.toInstant = .ok due ∧
      let job : JobRequest := ⟨kind, .int id, fireAt⟩
      let submission :=
        Service.submit (.text job.kind.name) job.payload (.float job.startAfter) service
      (∀ other : Binary64, |job.startAfter.value - due.sinceEpoch / 10 ^ 6| ≤
        |other.value - due.sinceEpoch / 10 ^ 6|) ∧
      (due.micros + 15 < Date.dayCount * microsPerDay → ∃ kept : Instant,
        submission = (.ok (),
          { service with queue := .memory (jobs ++ [⟨kind, .int id, .utc kept⟩]) }) ∧
        IsNearestEven (job.startAfter.value * 10 ^ 6) kept.sinceEpoch ∧
        |kept.sinceEpoch - due.sinceEpoch| ≤ 15 ∧
        (due.sinceEpoch.natAbs < 2 ^ 33 * 10 ^ 6 → kept = due)) ∧
      (Date.dayCount * microsPerDay ≤ due.micros + 15 →
        submission = (.error .yearOffCalendar, service)) := by
  obtain ⟨due, hdue⟩ := DateTime.exists_toInstant_iff.mpr h
  refine ⟨due, hdue, ?_⟩
  have hseconds : (⟨kind, .int id, fireAt⟩ : JobRequest).startAfter =
      secondsOfMicros due.sinceEpoch := by
    rw [JobRequest.startAfter, Instant.sinceEpoch, DateTime.toInstant_eq_ok_iff.mp hdue]
  have hsince := due.natAbs_sinceEpoch_lt
  have hsmall : due.sinceEpoch.natAbs < 2 ^ 58 := by omega
  obtain ⟨hkeeps, hfails⟩ := instantOfSeconds_sinceEpoch due
  dsimp only
  rw [JobRequest.payload_eq, hseconds]
  refine ⟨abs_secondsOfMicros_sub_le hsmall, ?_, ?_⟩
  · intro hearlier
    obtain ⟨kept, hkept, hmicros⟩ := hkeeps hearlier
    refine ⟨kept, ?_, ?_, ?_, ?_⟩
    · rw [Service.submit_memory hqueue, JobRequest.ofSubmission_int, hkept]
      rfl
    · rw [hmicros]
      exact isNearestEven_of_secondsOfMicros hsmall
    · rw [hmicros]
      exact microsOfSeconds_secondsOfMicros_near hsince
    · intro hfine
      apply Instant.eq_of_sinceEpoch_eq
      rw [hmicros, microsOfSeconds_secondsOfMicros_of_lt hfine]
  · intro hlast
    rw [Service.submit_memory hqueue, JobRequest.ofSubmission_int, hfails hlast]
    rfl

/-- The last instant that is kept is the one 16 microseconds before the end of the calendar. -/
theorem submit_keeps_instant_lastMoment :
    let last : Instant := ⟨315537897599999984, by decide⟩
    let next : Instant := ⟨315537897599999985, by decide⟩
    (DateTime.utc last).OnCalendar ∧ (DateTime.utc next).OnCalendar ∧
      (Service.fresh noon).queue = .memory [] ∧
      (∃ kept : Instant, |kept.sinceEpoch - last.sinceEpoch| ≤ 15 ∧
        Service.submit (.text "deleteItem") (.map [(.text "id", .int 1)])
            (.float (⟨.delete, .int 1, .utc last⟩ : JobRequest).startAfter) (Service.fresh noon) =
          (.ok (), { Service.fresh noon with queue := .memory [⟨.delete, .int 1, .utc kept⟩] })) ∧
      Service.submit (.text "deleteItem") (.map [(.text "id", .int 1)])
          (.float (⟨.delete, .int 1, .utc next⟩ : JobRequest).startAfter) (Service.fresh noon) =
        (.error .yearOffCalendar, Service.fresh noon) := by
  intro last next
  have hlast : (DateTime.utc last).OnCalendar :=
    DateTime.exists_toInstant_iff.mp ⟨last, DateTime.toInstant_utc last⟩
  have hnext : (DateTime.utc next).OnCalendar :=
    DateTime.exists_toInstant_iff.mp ⟨next, DateTime.toInstant_utc next⟩
  have hqueue : (Service.fresh noon).queue = .memory [] := rfl
  obtain ⟨due, hdue, -, hkeeps, -⟩ := Service.submit_keeps_instant hqueue .delete 1 hlast
  obtain ⟨due', hdue', -, -, hfails⟩ := Service.submit_keeps_instant hqueue .delete 1 hnext
  cases hdue.symm.trans (DateTime.toInstant_utc last)
  cases hdue'.symm.trans (DateTime.toInstant_utc next)
  obtain ⟨kept, hsubmit, -, hnear, -⟩ := hkeeps (by decide +kernel)
  exact ⟨hlast, hnext, hqueue, ⟨kept, hnear, hsubmit⟩, hfails (by decide +kernel)⟩

end Deferral
