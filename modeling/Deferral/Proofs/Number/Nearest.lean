/-
# Deferral.Proofs.Number.Nearest -- no double is nearer

A fraction is rounded to the nearest double: no other one lies nearer, whatever its exponent and
its sign. A double with a smaller exponent than the scale of the fraction lies below the least
number of 53 digits at this scale, and the others are multiples of the unit that the fraction is
rounded to. So rounding moves nothing across a double, and not at all what is one.
-/

import Deferral.Number.Numeral
import Deferral.Proofs.Number.Rounding

namespace Deferral

/-! ## Doubles -/

namespace Binary64

section Size

variable (x : Binary64)

theorem significand_lt : x.significand < twoTo 53 := by
  have hfraction := x.fraction.isLt
  have hdouble : twoTo 53 = 2 * twoTo 52 := twoTo_succ 52
  unfold significand
  split <;> omega

theorem le_exponent : -1074 ≤ x.exponent := by
  unfold exponent
  split
  · exact le_rfl
  · next hfield =>
      have hpos := Nat.pos_of_ne_zero fun h => hfield (Fin.ext h)
      omega

theorem size_nonneg : 0 ≤ x.size :=
  mul_nonneg (Nat.cast_nonneg _) (zpow_pos two_pos _).le

theorem size_lt : x.size < 2 ^ (x.exponent + 53) := by
  have hsignificand : (x.significand : ℚ) < 2 ^ 53 := by exact_mod_cast x.significand_lt
  unfold size
  rw [zpow_add₀ two_ne_zero, mul_comm]
  exact mul_lt_mul_of_pos_left hsignificand (zpow_pos two_pos _)

variable {x}

theorem le_exponent_of_le_size {e : Int} (h : 2 ^ (e + 52) ≤ x.size) : e ≤ x.exponent := by
  have hlt := (zpow_lt_zpow_iff_right₀ (one_lt_two (α := ℚ))).mp (h.trans_lt x.size_lt)
  omega

/-- A double is a multiple of every power of two up to its own. -/
theorem exists_size_eq {e : Int} (h : e ≤ x.exponent) : ∃ m : Nat, x.size = m * 2 ^ e := by
  refine ⟨x.significand * 2 ^ (x.exponent - e).toNat, ?_⟩
  unfold size
  push_cast
  rw [mul_assoc, ← zpow_natCast, ← zpow_add₀ two_ne_zero]
  congr 2
  omega

end Size

section Nearest

variable {num den : Nat} (negative : Bool)

theorem isNearestEven_significandOf (hden : 0 < den) :
    IsNearestEven (num / den / 2 ^ scaleOf num den) (significandOf num den) := by
  rw [← scaled_eq]
  exact isNearestEven_roundHalfEven _ (Nat.mul_pos hden (twoTo_pos _))

/-- No multiple of the unit is nearer to a fraction than the one to which it is rounded. -/
theorem abs_size_ofRatio_sub_le_multiple (hnum : 0 < num) (hden : 0 < den)
    (hscale : scaleOf num den ≤ 970) (m : Nat) :
    |(ofRatio negative num den).size - num / den| ≤
      |(m : ℚ) * 2 ^ scaleOf num den - num / den| := by
  have hunit : (0 : ℚ) < 2 ^ scaleOf num den := zpow_pos two_pos _
  have hscaled : ∀ k : ℚ, |k * 2 ^ scaleOf num den - num / den| =
      |num / den / 2 ^ scaleOf num den - k| * 2 ^ scaleOf num den := by
    intro k
    rw [abs_sub_comm, ← abs_of_pos hunit, ← abs_mul, abs_of_pos hunit, sub_mul,
      div_mul_cancel₀ _ hunit.ne']
  rw [(size_ofRatio negative hnum hden hscale).2, hscaled, hscaled]
  exact mul_le_mul_of_nonneg_right ((isNearestEven_significandOf hden).abs_sub_le_abs m) hunit.le

/-- No double is nearer to a fraction than the one to which it is rounded. -/
theorem abs_size_ofRatio_sub_le_abs (hden : 0 < den) (hscale : scaleOf num den ≤ 970)
    (other : Binary64) :
    |(ofRatio negative num den).size - num / den| ≤ |other.size - num / den| := by
  rcases Nat.eq_zero_or_pos num with rfl | hnum
  · rw [ofRatio_zero, size_zero, Nat.cast_zero, zero_div, sub_zero, abs_zero]
    exact abs_nonneg _
  · rcases le_or_gt (scaleOf num den) other.exponent with hfine | hcoarse
    · obtain ⟨m, hm⟩ := exists_size_eq hfine
      rw [hm]
      exact abs_size_ofRatio_sub_le_multiple negative hnum hden hscale m
    · -- The least number of 53 digits lies between the other double and the fraction.
      have hleast : (2 : ℚ) ^ (scaleOf num den + 52) ≤ num / den := by
        have hexponent := other.le_exponent
        exact (scaleOf_spec hnum hden).2.2.resolve_right (by omega)
      have hother : other.size ≤ 2 ^ (scaleOf num den + 52) :=
        other.size_lt.le.trans (zpow_le_zpow_right₀ one_le_two (by omega))
      have hmultiple : ((2 ^ 52 : Nat) : ℚ) * 2 ^ scaleOf num den = 2 ^ (scaleOf num den + 52) := by
        rw [zpow_add₀ two_ne_zero, mul_comm]
        norm_num
      calc |(ofRatio negative num den).size - num / den|
          ≤ |(2 : ℚ) ^ (scaleOf num den + 52) - num / den| := by
            rw [← hmultiple]
            exact abs_size_ofRatio_sub_le_multiple negative hnum hden hscale (2 ^ 52)
        _ = (num : ℚ) / den - 2 ^ (scaleOf num den + 52) := by
            rw [abs_sub_comm, abs_of_nonneg (sub_nonneg.mpr hleast)]
        _ ≤ (num : ℚ) / den - other.size := by linarith
        _ ≤ |other.size - num / den| := by
            rw [abs_sub_comm]
            exact le_abs_self _

theorem size_ofRatio_le (hden : 0 < den) (hscale : scaleOf num den ≤ 970) {bound : Binary64}
    (h : (num : ℚ) / den ≤ bound.size) : (ofRatio negative num den).size ≤ bound.size := by
  have hnear := abs_size_ofRatio_sub_le_abs negative hden hscale bound
  rw [abs_of_nonneg (sub_nonneg.mpr h)] at hnear
  linarith [(abs_le.mp hnear).2]

theorem le_size_ofRatio (hden : 0 < den) (hscale : scaleOf num den ≤ 970) {bound : Binary64}
    (h : bound.size ≤ (num : ℚ) / den) : bound.size ≤ (ofRatio negative num den).size := by
  have hnear := abs_size_ofRatio_sub_le_abs negative hden hscale bound
  rw [abs_sub_comm bound.size, abs_of_nonneg (sub_nonneg.mpr h)] at hnear
  linarith [(abs_le.mp hnear).1]

/-- A fraction that is a number of 53 digits is rounded to itself. -/
theorem size_ofRatio_of_exact (hden : 0 < den) {m : Nat} {e : Int} (hm : m < twoTo 53)
    (he : -1074 ≤ e) (he' : e ≤ 970) (h : (num : ℚ) / den = m * 2 ^ e) :
    (ofRatio negative num den).size = num / den := by
  rcases Nat.eq_zero_or_pos num with rfl | hnum
  · rw [ofRatio_zero, size_zero, Nat.cast_zero, zero_div]
  · have hlt : (num : ℚ) / den < 2 ^ (e + 53) := by
      have hm' : (m : ℚ) < 2 ^ 53 := by exact_mod_cast hm
      rw [h, zpow_add₀ two_ne_zero, mul_comm]
      exact mul_lt_mul_of_pos_left hm' (zpow_pos two_pos _)
    have hscale := scaleOf_le hnum hden he hlt
    have hmultiple : (num : ℚ) / den =
        ((m * 2 ^ (e - scaleOf num den).toNat : Nat) : ℚ) * 2 ^ scaleOf num den := by
      rw [h]
      push_cast
      rw [mul_assoc, ← zpow_natCast, ← zpow_add₀ two_ne_zero]
      congr 2
      omega
    have hnear := abs_size_ofRatio_sub_le_multiple negative hnum hden
      (hscale.trans he') (m * 2 ^ (e - scaleOf num den).toNat)
    rw [← hmultiple, sub_self, abs_zero] at hnear
    exact sub_eq_zero.mp (abs_nonpos_iff.mp hnear)

end Nearest

/-! ## With a sign -/

/-- The number that a finite double stands for. -/
def value (x : Binary64) : ℚ := if x.negative then -x.size else x.size

theorem abs_value (x : Binary64) : |x.value| = x.size := by
  unfold value
  split
  · rw [abs_neg, abs_of_nonneg x.size_nonneg]
  · exact abs_of_nonneg x.size_nonneg

theorem abs_value_sub_withSign (x : Binary64) (n : Nat) (d : ℚ) :
    |x.value - (withSign x.negative n : Int) / d| = |x.size - n / d| := by
  unfold value withSign
  cases x.negative
  · simp
  · simp only [if_true, Int.cast_neg, Int.cast_natCast]
    rw [neg_div, ← neg_sub', abs_neg]

/-- No double of either sign is nearer to a fraction with a sign. -/
theorem abs_value_ofRatio_sub_le_abs {num den : Nat} (negative : Bool) (hden : 0 < den)
    (hscale : scaleOf num den ≤ 970) (other : Binary64) :
    |(ofRatio negative num den).value - (withSign negative num : Int) / den| ≤
      |other.value - (withSign negative num : Int) / den| := by
  have hsize : |((withSign negative num : Int) : ℚ) / den| = num / den := by
    unfold withSign
    rw [abs_div, Nat.abs_cast]
    cases negative <;> simp
  calc |(ofRatio negative num den).value - (withSign negative num : Int) / den|
      = |(ofRatio negative num den).size - num / den| := by
        have hsign := abs_value_sub_withSign (ofRatio negative num den) num den
        rwa [negative_ofRatio] at hsign
    _ ≤ |other.size - num / den| := abs_size_ofRatio_sub_le_abs negative hden hscale other
    _ = |(|other.value| - |((withSign negative num : Int) : ℚ) / den|)| := by
        rw [abs_value, hsize]
    _ ≤ |other.value - (withSign negative num : Int) / den| := abs_abs_sub_abs_le_abs_sub ..

end Binary64

end Deferral
