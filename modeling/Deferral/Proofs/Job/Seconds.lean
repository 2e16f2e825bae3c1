/-
# Deferral.Proofs.Job.Seconds -- instants that went through a double

Seconds since 1970 go to a queue as a double, and a queue in memory makes an instant of them
again, to the microsecond. Up to about the year 2242 a double is fine enough for microseconds, so
that the instant is the same. Later it is not. But then a microsecond is finer than the double, so
the seconds of the new instant are rounded to the double that it was made from. The powers of
two, around which the distance between doubles changes, are whole seconds and make no exception.
-/

import Deferral.Job
import Deferral.Proofs.Calendar.Shifts
import Deferral.Proofs.Number.Digits
import Deferral.Proofs.Number.Rounding

namespace Deferral

open Binary64

theorem natCast_microsPerSecond : (microsPerSecond : ℚ) = 10 ^ 6 := by norm_num [microsPerSecond]

/-! ## Microseconds of a double -/

section Micros

variable (x : Binary64)

theorem natAbs_withSign (negative : Bool) (n : Nat) : (withSign negative n).natAbs = n := by
  cases negative
  · exact Int.natAbs_natCast n
  · exact Int.natAbs_neg n

/-- A double as its whole seconds and the rest. -/
theorem size_eq_whole_add : x.size = (x.numerator / x.denominator : Nat) +
    ((x.numerator % x.denominator : Nat) : ℚ) / x.denominator := by
  rw [← numerator_div_denominator, natCast_div_eq _ x.denominator_pos]

/-- The fraction of a second in microseconds, multiplied as a double. -/
def partMicros : Binary64 :=
  ofRatio false (x.numerator % x.denominator * microsPerSecond) x.denominator

theorem natAbs_microsOfSeconds :
    (microsOfSeconds x).natAbs = x.numerator / x.denominator * microsPerSecond +
      roundHalfEven (partMicros x).numerator (partMicros x).denominator :=
  natAbs_withSign _ _

/-- Multiplying the fraction as a double hardly moves it. -/
theorem abs_size_partMicros_sub_le :
    |(partMicros x).size -
      ((x.numerator % x.denominator : Nat) : ℚ) / x.denominator * 10 ^ 6| ≤ 1 / 2 ^ 34 := by
  have hden : (0 : ℚ) < x.denominator := by exact_mod_cast x.denominator_pos
  rw [partMicros]
  rcases Nat.eq_zero_or_pos (x.numerator % x.denominator) with hzero | hpos
  · rw [hzero, Nat.zero_mul, ofRatio_zero, size_zero, Nat.cast_zero, zero_div, zero_mul, sub_zero,
      abs_zero]
    positivity
  · have hnum : 0 < x.numerator % x.denominator * microsPerSecond := Nat.mul_pos hpos (by decide)
    have heq : ((x.numerator % x.denominator : Nat) : ℚ) / x.denominator * 10 ^ 6 =
        ((x.numerator % x.denominator * microsPerSecond : Nat) : ℚ) / x.denominator := by
      rw [Nat.cast_mul, natCast_microsPerSecond, div_mul_eq_mul_div]
    have hlt : ((x.numerator % x.denominator * microsPerSecond : Nat) : ℚ) / x.denominator <
        2 ^ (-33 + 53 : Int) := by
      have hone : ((x.numerator % x.denominator : Nat) : ℚ) / x.denominator < 1 := by
        rw [div_lt_one₀ hden]
        exact_mod_cast Nat.mod_lt _ x.denominator_pos
      rw [← heq]
      norm_num
      linarith
    have hscale := scaleOf_le hnum x.denominator_pos (by decide) hlt
    rw [heq]
    calc _ ≤ 2 ^ scaleOf _ _ / 2 :=
          abs_size_ofRatio_sub_le _ hnum x.denominator_pos (hscale.trans (by decide))
      _ ≤ 2 ^ (-33 : Int) / 2 :=
          div_le_div_of_nonneg_right (zpow_le_zpow_right₀ one_le_two hscale) two_pos.le
      _ = 1 / 2 ^ 34 := by norm_num

/-- The microseconds are off by hardly more than one half. -/
theorem abs_natAbs_microsOfSeconds_sub_le :
    |((microsOfSeconds x).natAbs : ℚ) - x.size * 10 ^ 6| ≤ 1 / 2 + 1 / 2 ^ 34 := by
  have hround := abs_roundHalfEven_sub_le (partMicros x).numerator
    (partMicros x).denominator_pos
  rw [numerator_div_denominator] at hround
  obtain ⟨hroundLow, hroundHigh⟩ := abs_le.mp hround
  obtain ⟨hlow, hhigh⟩ := abs_le.mp (abs_size_partMicros_sub_le x)
  rw [natAbs_microsOfSeconds, size_eq_whole_add, Nat.cast_add, Nat.cast_mul,
    natCast_microsPerSecond, abs_le]
  constructor <;> linarith

/-- A double that is near enough to some microseconds gives them back. -/
theorem natAbs_microsOfSeconds_eq {n : Nat} (h : |x.size * 10 ^ 6 - n| ≤ 31 / 64) :
    (microsOfSeconds x).natAbs = n := by
  have hback := abs_natAbs_microsOfSeconds_sub_le x
  apply eq_of_abs_sub_lt_one
  rw [abs_le] at h hback
  rw [abs_lt]
  constructor <;> linarith [h.1, h.2, hback.1, hback.2]

/-- Whole seconds are not rounded at all. -/
theorem natAbs_microsOfSeconds_of_whole {n : Nat} (h : x.size = n) :
    (microsOfSeconds x).natAbs = n * microsPerSecond := by
  have hden : (0 : ℚ) < x.denominator := by exact_mod_cast x.denominator_pos
  have hnum : x.numerator = n * x.denominator := by
    rw [← numerator_div_denominator, div_eq_iff hden.ne'] at h
    exact_mod_cast h
  have hfraction : partMicros x = zero false := by
    rw [partMicros, hnum, Nat.mul_mod_left, Nat.zero_mul, ofRatio_zero]
  have hzero : (zero false).numerator = 0 := Nat.zero_mul _
  rw [natAbs_microsOfSeconds, hfraction, hzero, roundHalfEven_zero (denominator_pos _), hnum,
    Nat.mul_div_cancel _ x.denominator_pos, Nat.add_zero]

end Micros

/-! ## There and back -/

section Seconds

variable {micros : Int}

theorem secondsOfMicros_withSign (negative : Bool) {n : Nat} (h : 0 < n) :
    secondsOfMicros (withSign negative n) = ofRatio negative n microsPerSecond := by
  have hsign : decide (withSign negative n < 0) = negative := by
    cases negative
    · exact decide_eq_false (by simp only [withSign, Bool.false_eq_true, if_false]; omega)
    · exact decide_eq_true (by simp only [withSign, if_true]; omega)
  rw [secondsOfMicros, hsign, natAbs_withSign]

/-- The microseconds of seconds have the sign of these. -/
theorem microsOfSeconds_eq (x : Binary64) :
    microsOfSeconds x = withSign x.negative (microsOfSeconds x).natAbs := by
  rw [natAbs_microsOfSeconds]
  rfl

/-- As long as a double has room for microseconds they stay what they were. -/
theorem natAbs_microsOfSeconds_of_fine {n : Nat} {negative : Bool} (hn : 0 < n)
    (hscale : scaleOf n microsPerSecond ≤ -20) :
    (microsOfSeconds (ofRatio negative n microsPerSecond)).natAbs = n := by
  apply natAbs_microsOfSeconds_eq
  have hround := abs_size_ofRatio_sub_le negative hn
    (by decide : 0 < microsPerSecond) (by omega)
  have hunit : (2 : ℚ) ^ scaleOf n microsPerSecond ≤ 1 / 2 ^ 20 :=
    (zpow_le_zpow_right₀ one_le_two hscale).trans_eq (by norm_num)
  rw [natCast_microsPerSecond, abs_le] at hround
  rw [abs_le]
  constructor <;> linarith [hround.1, hround.2]

section Coarse

variable {x : Binary64} {significand : Nat} {exponent : Int}

/-- One hundred thousandth of a second has room in the last place of such a double. -/
theorem unit_of_coarse (hexp : -19 ≤ exponent) : 1 / 2 ^ 19 ≤ (2 : ℚ) ^ exponent := by
  calc (1 / 2 ^ 19 : ℚ) = 2 ^ (-19 : Int) := by norm_num
    _ ≤ 2 ^ exponent := zpow_le_zpow_right₀ one_le_two hexp

/-- The microseconds of a coarse double do not leave its binade at the lower end. -/
theorem le_natAbs_microsOfSeconds (hlow : twoTo 52 ≤ significand) (hexp : -19 ≤ exponent)
    (hsize : x.size = significand * 2 ^ exponent) :
    (2 : ℚ) ^ 52 * 2 ^ exponent * 10 ^ 6 ≤ (microsOfSeconds x).natAbs := by
  -- The least significand stands for a power of two, and this for whole seconds.
  rcases hlow.eq_or_lt with heq | hinner
  · have hexact : (2 : ℚ) ^ 52 * 2 ^ exponent = x.size := by rw [hsize, ← heq, natCast_twoTo]
    have hwhole : x.size = ((2 ^ (exponent + 52).toNat : Nat) : ℚ) := by
      rw [← hexact, Nat.cast_pow, Nat.cast_ofNat, ← zpow_natCast, ← zpow_natCast,
        ← zpow_add₀ two_ne_zero]
      congr 1
      omega
    rw [natAbs_microsOfSeconds_of_whole x hwhole, hexact, hwhole, Nat.cast_mul,
      natCast_microsPerSecond]
  · have hinner' : (2 : ℚ) ^ 52 + 1 ≤ significand := by exact_mod_cast hinner
    have hsizeLow : 2 ^ 52 * 2 ^ exponent + 2 ^ exponent ≤ x.size := by
      rw [hsize, ← add_one_mul]
      gcongr
    linarith [unit_of_coarse hexp, (abs_le.mp (abs_natAbs_microsOfSeconds_sub_le x)).1]

/-- Microseconds that are made of a coarse double are rounded to this double again. -/
theorem ofRatio_natAbs_microsOfSeconds (negative : Bool) (hlow : twoTo 52 ≤ significand)
    (hhigh : significand < twoTo 53) (hexp : -19 ≤ exponent)
    (hsize : x.size = significand * 2 ^ exponent) :
    0 < (microsOfSeconds x).natAbs ∧
      ofRatio negative (microsOfSeconds x).natAbs microsPerSecond =
        ofSignificand negative significand exponent := by
  have hunit := unit_of_coarse hexp
  have hhigh' : (significand : ℚ) + 1 ≤ 2 ^ 53 := by exact_mod_cast hhigh
  have hsizeHigh : x.size + 2 ^ exponent ≤ 2 ^ 53 * 2 ^ exponent := by
    rw [hsize, ← add_one_mul]
    gcongr
  have hlower := le_natAbs_microsOfSeconds hlow hexp hsize
  obtain ⟨hbackLow, hbackHigh⟩ := abs_le.mp (abs_natAbs_microsOfSeconds_sub_le x)
  generalize (microsOfSeconds x).natAbs = n at hbackLow hbackHigh hlower
  have hn : 0 < n := by
    have hpos : (0 : ℚ) < n := lt_of_lt_of_le (by positivity) hlower
    exact_mod_cast hpos
  have hupper : (n : ℚ) < 2 ^ 53 * 2 ^ exponent * 10 ^ 6 := by linarith
  have hscale : scaleOf n microsPerSecond = exponent := by
    refine scaleOf_eq hn (by decide) (by omega) ?_ ?_
    all_goals rw [natCast_microsPerSecond, zpow_add₀ two_ne_zero, mul_comm]
    · rw [le_div_iff₀ (by norm_num)]
      exact_mod_cast hlower
    · rw [div_lt_iff₀ (by norm_num)]
      exact_mod_cast hupper
  refine ⟨hn, ofRatio_eq_of_near hn (by decide) hscale ?_⟩
  rw [natCast_microsPerSecond, ← hsize, abs_lt]
  constructor
  · rw [lt_sub_iff_add_lt, lt_div_iff₀ (by norm_num)]
    linarith
  · rw [sub_lt_iff_lt_add, div_lt_iff₀ (by norm_num)]
    linarith

end Coarse

/-- Seconds give microseconds that give the same seconds. -/
theorem secondsOfMicros_microsOfSeconds (h : micros.natAbs < 2 ^ 58) :
    secondsOfMicros (microsOfSeconds (secondsOfMicros micros)) = secondsOfMicros micros := by
  rcases eq_or_ne micros 0 with rfl | hne
  · have hzero : (microsOfSeconds (zero false)).natAbs = 0 :=
      (natAbs_microsOfSeconds_of_whole _ (n := 0) (by rw [size_zero, Nat.cast_zero])).trans
        (Nat.zero_mul _)
    have hseconds : secondsOfMicros 0 = zero false := rfl
    rw [hseconds, Int.natAbs_eq_zero.mp hzero, hseconds]
  have hn : 0 < micros.natAbs := Int.natAbs_pos.mpr hne
  have hden : 0 < microsPerSecond := by decide
  have hseconds := secondsOfMicros_withSign (decide (micros < 0)) hn
  rw [withSign_natAbs] at hseconds
  rw [hseconds, microsOfSeconds_eq, negative_ofRatio]
  rcases lt_or_ge (scaleOf micros.natAbs microsPerSecond) (-19) with hfine | hcoarse
  · rw [natAbs_microsOfSeconds_of_fine hn (by omega), secondsOfMicros_withSign _ hn]
  · have hlt : (micros.natAbs : ℚ) / microsPerSecond < 2 ^ (5 + 53 : Int) := by
      rw [natCast_microsPerSecond, div_lt_iff₀ (by norm_num)]
      calc (micros.natAbs : ℚ) < 2 ^ 58 := by exact_mod_cast h
        _ ≤ 2 ^ (5 + 53 : Int) * 10 ^ 6 := by norm_num
    obtain ⟨significand, exponent, hlow, hhigh, hexp, heq, hsize⟩ :=
      exists_normal (decide (micros < 0)) hn hden
        ((scaleOf_le hn hden (by decide) hlt).trans (by decide)) (by omega)
    obtain ⟨hpos, hback⟩ :=
      ofRatio_natAbs_microsOfSeconds (decide (micros < 0)) hlow hhigh (hcoarse.trans hexp) hsize
    rw [secondsOfMicros_withSign _ hpos, hback, heq]

end Seconds

end Deferral
