/-
# Deferral.Proofs.Number.Rounding -- how far a rounded number lies from its fraction

A fraction is rounded to a multiple of the power of two at its scale, the scale being the one at
which it has 53 binary digits. The result is off by at most half of that power, and a fraction
that is nearer than that to a number of 53 digits is rounded to this number. A quotient is
rounded to the nearest integer, and to the even one of two. Sizes are compared as rational
numbers.
-/

import Mathlib.Algebra.Group.Int.Even
import Mathlib.Algebra.Order.Field.Basic
import Mathlib.Algebra.Order.Field.Power
import Mathlib.Data.Nat.Log
import Mathlib.Tactic.FieldSimp
import Mathlib.Tactic.Linarith
import Mathlib.Tactic.Ring
import Deferral.Number.Binary64

namespace Deferral

/-! ## Nearest integers -/

/-- An integer is the nearest one to a number, and the even one if there are two. -/
def IsNearestEven (q : ℚ) (n : Int) : Prop := |q - n| < 1 / 2 ∨ |q - n| = 1 / 2 ∧ Even n

namespace IsNearestEven

variable {q : ℚ} {n : Int}

theorem abs_sub_le (h : IsNearestEven q n) : |q - n| ≤ 1 / 2 := by
  rcases h with h | ⟨h, -⟩
  · exact h.le
  · exact h.le

/-- No integer is nearer. -/
theorem abs_sub_le_abs (h : IsNearestEven q n) (m : Int) : |q - n| ≤ |q - m| := by
  rcases eq_or_ne n m with rfl | hne
  · exact le_rfl
  · have hapart : (1 : ℚ) ≤ |((n - m : Int) : ℚ)| := by
      exact_mod_cast Int.one_le_abs (sub_ne_zero.mpr hne)
    have htriangle : |((n - m : Int) : ℚ)| ≤ |q - m| + |q - n| := by
      rw [Int.cast_sub, show (n - m : ℚ) = q - m - (q - n) by ring]
      exact abs_sub _ _
    linarith [h.abs_sub_le]

theorem even_add {k : Int} (hk : Even k) (h : IsNearestEven q n) :
    IsNearestEven (k + q) (k + n) := by
  unfold IsNearestEven at h ⊢
  rw [Int.cast_add, add_sub_add_left_eq_sub, Int.even_add, iff_true_left hk]
  exact h

theorem neg (h : IsNearestEven q n) : IsNearestEven (-q) (-n) := by
  unfold IsNearestEven at h ⊢
  rw [Int.cast_neg, ← neg_sub', abs_neg, even_neg]
  exact h

end IsNearestEven

section NearestInteger

variable {num den n : Nat}

/-- A quotient and its remainder. -/
theorem natCast_div_eq (num : Nat) (hden : 0 < den) :
    (num : ℚ) / den = (num / den : Nat) + ((num % den : Nat) : ℚ) / den := by
  have hpos : (0 : ℚ) < den := by exact_mod_cast hden
  have hsplit : (num : ℚ) = den * (num / den : Nat) + (num % den : Nat) := by
    exact_mod_cast (Nat.div_add_mod num den).symm
  field_simp
  linarith

theorem div_lt_half_iff (hden : 0 < den) : (n : ℚ) / den < 1 / 2 ↔ 2 * n < den := by
  have hpos : (0 : ℚ) < den := by exact_mod_cast hden
  rw [div_lt_div_iff₀ hpos two_pos, one_mul, mul_comm]
  exact_mod_cast Iff.rfl

theorem half_lt_div_iff (hden : 0 < den) : 1 / 2 < (n : ℚ) / den ↔ den < 2 * n := by
  have hpos : (0 : ℚ) < den := by exact_mod_cast hden
  rw [div_lt_div_iff₀ two_pos hpos, one_mul, mul_comm]
  exact_mod_cast Iff.rfl

/-- A quotient is rounded to the nearest integer, and to the even one of two. -/
theorem isNearestEven_roundHalfEven (num : Nat) (hden : 0 < den) :
    IsNearestEven (num / den) (roundHalfEven num den) := by
  have hpos : (0 : ℚ) < den := by exact_mod_cast hden
  have hnonneg : 0 ≤ ((num % den : Nat) : ℚ) / den := div_nonneg (Nat.cast_nonneg _) hpos.le
  have hlt : ((num % den : Nat) : ℚ) / den < 1 := by
    rw [div_lt_one₀ hpos]
    exact_mod_cast Nat.mod_lt num hden
  unfold IsNearestEven roundHalfEven
  rw [natCast_div_eq num hden]
  dsimp only
  split
  · next hless =>
      left
      rw [Int.cast_natCast, add_sub_cancel_left, abs_of_nonneg hnonneg]
      exact (div_lt_half_iff hden).mpr hless
  · next hge =>
      split
      · next hmore =>
          left
          have hhalf := (half_lt_div_iff hden).mpr hmore
          rw [Int.cast_natCast, Nat.cast_add_one, add_sub_add_left_eq_sub, abs_sub_comm,
            abs_of_pos (sub_pos.mpr hlt)]
          linarith
      · next hle =>
          -- The remainder is one half, so the parity decides.
          right
          have hhalf : ((num % den : Nat) : ℚ) / den = 1 / 2 := by
            apply le_antisymm
            · exact not_lt.mp (mt (half_lt_div_iff hden).mp hle)
            · exact not_lt.mp (mt (div_lt_half_iff hden).mp hge)
          rw [hhalf]
          split
          · next heven =>
              refine ⟨?_, (Int.even_coe_nat _).mpr (Nat.even_iff.mpr heven)⟩
              rw [Int.cast_natCast, add_sub_cancel_left]
              norm_num
          · next hodd =>
              refine ⟨?_, (Int.even_coe_nat _).mpr (Nat.even_iff.mpr (by omega))⟩
              rw [Int.cast_natCast, Nat.cast_add_one, add_sub_add_left_eq_sub]
              norm_num

theorem abs_roundHalfEven_sub_le (num : Nat) (hden : 0 < den) :
    |(roundHalfEven num den : ℚ) - num / den| ≤ 1 / 2 := by
  have hnear := (isNearestEven_roundHalfEven num hden).abs_sub_le
  rw [Int.cast_natCast, abs_sub_comm] at hnear
  exact hnear

/-- Two integers that are less than one apart are the same. -/
theorem eq_of_abs_sub_lt_one {m n : Nat} (h : |(m : ℚ) - n| < 1) : m = n := by
  obtain ⟨hlow, hhigh⟩ := abs_lt.mp h
  have hm : (m : ℚ) < n + 1 := by linarith
  have hn : (n : ℚ) < m + 1 := by linarith
  norm_cast at hm hn
  omega

theorem roundHalfEven_zero (hden : 0 < den) : roundHalfEven 0 den = 0 := by
  rw [roundHalfEven, Nat.zero_mod, Nat.zero_div, if_pos hden]

theorem roundHalfEven_eq (hden : 0 < den) (h : |(num : ℚ) / den - n| < 1 / 2) :
    roundHalfEven num den = n := by
  refine eq_of_abs_sub_lt_one ?_
  calc |(roundHalfEven num den : ℚ) - n|
      ≤ |(roundHalfEven num den : ℚ) - num / den| + |(num : ℚ) / den - n| := abs_sub_le ..
    _ < 1 := by linarith [abs_roundHalfEven_sub_le num hden]

theorem roundHalfEven_le (hden : 0 < den) (h : (num : ℚ) / den ≤ n) :
    roundHalfEven num den ≤ n := by
  have hdist := (abs_le.mp (abs_roundHalfEven_sub_le num hden)).2
  have hlt : (roundHalfEven num den : ℚ) < n + 1 := by linarith
  exact Nat.lt_succ_iff.mp (by exact_mod_cast hlt)

theorem le_roundHalfEven (hden : 0 < den) (h : (n : ℚ) ≤ num / den) :
    n ≤ roundHalfEven num den := by
  have hdist := (abs_le.mp (abs_roundHalfEven_sub_le num hden)).1
  have hlt : (n : ℚ) < roundHalfEven num den + 1 := by linarith
  exact Nat.lt_succ_iff.mp (by exact_mod_cast hlt)

end NearestInteger

/-! ## Powers of two -/

theorem natCast_twoTo (n : Nat) : (twoTo n : ℚ) = 2 ^ n := by
  have h : twoTo n = 2 ^ n := rfl
  rw [h, Nat.cast_pow, Nat.cast_ofNat]

/-- A power of two of any exponent as a fraction of integers. -/
theorem twoTo_div_twoTo (e : Int) : (twoTo e.toNat : ℚ) / twoTo (-e).toNat = 2 ^ e := by
  rw [natCast_twoTo, natCast_twoTo, ← zpow_natCast, ← zpow_natCast, ← zpow_sub₀ two_ne_zero]
  congr 1
  omega

/-- A fraction in units of a power of two. -/
theorem scaled_eq (num den : Nat) (e : Int) :
    ((num * twoTo (-e).toNat : Nat) : ℚ) / ((den * twoTo e.toNat : Nat) : ℚ) =
      num / den / 2 ^ e := by
  rw [← twoTo_div_twoTo e, Nat.cast_mul, Nat.cast_mul, mul_div_mul_comm, div_div_eq_mul_div,
    ← mul_div_assoc]

namespace Binary64

/-! ## Sizes -/

/-- The size of a finite number. -/
def size (x : Binary64) : ℚ := x.significand * 2 ^ x.exponent

theorem numerator_div_denominator (x : Binary64) : (x.numerator : ℚ) / x.denominator = x.size := by
  rw [numerator, denominator, size, ← twoTo_div_twoTo x.exponent, Nat.cast_mul, mul_div_assoc]

theorem denominator_pos (x : Binary64) : 0 < x.denominator := twoTo_pos _

theorem size_zero (negative : Bool) : (zero negative).size = 0 := by
  have h : (zero negative).significand = 0 := rfl
  rw [size, h, Nat.cast_zero, zero_mul]

section OfSignificand

variable {significand : Nat} {exponent : Int} {negative : Bool}

theorem negative_ofSignificand :
    (ofSignificand negative significand exponent).negative = negative := by
  simp only [ofSignificand]
  split <;> split
  all_goals first
    | rfl
    | (split <;> rfl)

/-- The full significand stands for the next power of two. -/
theorem ofSignificand_full :
    ofSignificand negative (twoTo 53) exponent =
      ofSignificand negative (twoTo 52) (exponent + 1) := by
  have hne : ¬ twoTo 52 = twoTo 53 := by decide
  simp only [ofSignificand, if_neg hne, if_true]

theorem ofSignificand_small (h : significand < twoTo 52) :
    (ofSignificand negative significand exponent).isFinite = true ∧
      (ofSignificand negative significand exponent).size = significand * 2 ^ (-1074 : Int) := by
  have hne : ¬ significand = twoTo 53 := fun heq => absurd h (by rw [heq]; decide)
  have heq : ofSignificand negative significand exponent =
      ⟨negative, 0, lowBits 52 significand⟩ := by
    simp only [ofSignificand, if_neg hne, if_pos h]
  have hlow : significand % twoTo 52 = significand := Nat.mod_eq_of_lt h
  rw [heq]
  exact ⟨rfl, by simp only [size, Binary64.significand, Binary64.exponent, if_true, lowBits, hlow]⟩

theorem ofSignificand_normal (negative : Bool) (hlow : twoTo 52 ≤ significand)
    (hhigh : significand < twoTo 53)
    (hexp : -1074 ≤ exponent) (hexp' : exponent ≤ 971) :
    (ofSignificand negative significand exponent).isFinite = true ∧
      (ofSignificand negative significand exponent).size = significand * 2 ^ exponent := by
  have heq : ofSignificand negative significand exponent =
      ⟨negative, Fin.ofNat 2048 (exponent + 1075).toNat, lowBits 52 significand⟩ := by
    simp only [ofSignificand, if_neg hhigh.ne, if_neg hlow.not_gt, if_neg hexp'.not_gt]
  have hfield : (Fin.ofNat 2048 (exponent + 1075).toNat).val = (exponent + 1075).toNat :=
    Nat.mod_eq_of_lt (by omega)
  have hne : (Fin.ofNat 2048 (exponent + 1075).toNat) ≠ 0 := by
    intro h
    have hval : (exponent + 1075).toNat = 0 := hfield.symm.trans (congrArg Fin.val h)
    omega
  have hdouble : twoTo 53 = 2 * twoTo 52 := twoTo_succ 52
  have hfraction : twoTo 52 + significand % twoTo 52 = significand := by
    rw [Nat.mod_eq_sub_mod hlow, Nat.mod_eq_of_lt (by omega)]
    omega
  have hexponent : (((exponent + 1075).toNat : Nat) : Int) - 1075 = exponent := by omega
  rw [heq]
  constructor
  · rw [isFinite, bne_iff_ne]
    intro h
    have hval : (exponent + 1075).toNat = 2047 := hfield.symm.trans (congrArg Fin.val h)
    omega
  · simp only [size, Binary64.significand, Binary64.exponent, if_neg hne, lowBits, hfraction,
      hfield, hexponent]

end OfSignificand

/-! ## Scales -/

section Scale

variable {num den : Nat}

/-- Sizes lie between powers of two. -/
theorem log2_bounds {n : Nat} (h : 0 < n) : (2 : ℚ) ^ n.log2 ≤ n ∧ (n : ℚ) < 2 ^ (n.log2 + 1) :=
  ⟨by exact_mod_cast Nat.log2_self_le h.ne', by exact_mod_cast Nat.lt_log2_self⟩

/-- The scale puts the first binary digit of a fraction at the 53rd place. -/
theorem exists_scaleOf_eq (hnum : 0 < num) (hden : 0 < den) :
    ∃ top : Int, (2 : ℚ) ^ top ≤ num / den ∧ (num : ℚ) / den < 2 ^ (top + 1) ∧
      scaleOf num den = max (top - 52) (-1074) := by
  obtain ⟨hnumLow, hnumHigh⟩ := log2_bounds hnum
  obtain ⟨hdenLow, hdenHigh⟩ := log2_bounds hden
  have hpos : (0 : ℚ) < den := by exact_mod_cast hden
  generalize hguess : (num.log2 : Int) - den.log2 = guess
  have hlow : (2 : ℚ) ^ (guess - 1) ≤ num / den := by
    rw [le_div_iff₀ hpos]
    calc (2 : ℚ) ^ (guess - 1) * den ≤ 2 ^ (guess - 1) * 2 ^ (den.log2 + 1) := by gcongr
      _ = 2 ^ num.log2 := by
          rw [← zpow_natCast, ← zpow_natCast, ← zpow_add₀ two_ne_zero]
          congr 1
          omega
      _ ≤ num := hnumLow
  have hhigh : (num : ℚ) / den < 2 ^ (guess + 1) := by
    rw [div_lt_iff₀ hpos]
    calc (num : ℚ) < 2 ^ (num.log2 + 1) := hnumHigh
      _ = 2 ^ (guess + 1) * 2 ^ den.log2 := by
          rw [← zpow_natCast, ← zpow_natCast, ← zpow_add₀ two_ne_zero]
          congr 1
          omega
      _ ≤ 2 ^ (guess + 1) * den := by gcongr
  have hless : num * twoTo (-guess).toNat < den * twoTo guess.toNat ↔
      (num : ℚ) / den < 2 ^ guess := by
    have hscaled : (0 : ℚ) < ((den * twoTo guess.toNat : Nat) : ℚ) := by
      exact_mod_cast Nat.mul_pos hden (twoTo_pos _)
    rw [← div_lt_one₀ (zpow_pos two_pos guess), ← scaled_eq, div_lt_one₀ hscaled, Nat.cast_lt]
  simp only [scaleOf, hguess]
  split
  · next h => exact ⟨guess - 1, hlow, by rw [sub_add_cancel]; exact hless.mp h, rfl⟩
  · next h => exact ⟨guess, not_lt.mp (mt hless.mpr h), hhigh, rfl⟩

/-- A fraction has at most 53 binary digits before the point at its scale, and exactly 53 unless
the scale is the smallest. -/
theorem scaleOf_spec (hnum : 0 < num) (hden : 0 < den) :
    -1074 ≤ scaleOf num den ∧ (num : ℚ) / den < 2 ^ (scaleOf num den + 53) ∧
      ((2 : ℚ) ^ (scaleOf num den + 52) ≤ num / den ∨ scaleOf num den = -1074) := by
  obtain ⟨top, hlow, hhigh, hscale⟩ := exists_scaleOf_eq hnum hden
  refine ⟨by omega, hhigh.trans_le (zpow_le_zpow_right₀ one_le_two (by omega)), ?_⟩
  rcases le_total (-1074) (top - 52) with h | h
  · refine Or.inl ?_
    rw [hscale, max_eq_left h, sub_add_cancel]
    exact hlow
  · exact Or.inr (hscale.trans (max_eq_right h))

/-- The scale is the only exponent at which a fraction has 53 digits. -/
theorem scaleOf_eq {exponent : Int} (hnum : 0 < num) (hden : 0 < den) (hexp : -1074 ≤ exponent)
    (hlow : (2 : ℚ) ^ (exponent + 52) ≤ num / den) (hhigh : (num : ℚ) / den < 2 ^ (exponent + 53)) :
    scaleOf num den = exponent := by
  obtain ⟨top, htopLow, htopHigh, hscale⟩ := exists_scaleOf_eq hnum hden
  have hle := (zpow_lt_zpow_iff_right₀ (one_lt_two (α := ℚ))).mp (hlow.trans_lt htopHigh)
  have hge := (zpow_lt_zpow_iff_right₀ (one_lt_two (α := ℚ))).mp (htopLow.trans_lt hhigh)
  omega

/-- Less than a power of two has its scale below it. -/
theorem scaleOf_le {exponent : Int} (hnum : 0 < num) (hden : 0 < den) (hexp : -1074 ≤ exponent)
    (h : (num : ℚ) / den < 2 ^ (exponent + 53)) : scaleOf num den ≤ exponent := by
  obtain ⟨top, htopLow, -, hscale⟩ := exists_scaleOf_eq hnum hden
  have hlt := (zpow_lt_zpow_iff_right₀ (one_lt_two (α := ℚ))).mp (htopLow.trans_lt h)
  omega

end Scale

/-! ## Rounded fractions -/

section OfRatio

variable {num den : Nat} {negative : Bool}

/-- The significand of a fraction at its scale, rounded. -/
def significandOf (num den : Nat) : Nat :=
  roundHalfEven (num * twoTo (-scaleOf num den).toNat) (den * twoTo (scaleOf num den).toNat)

theorem ofRatio_eq (hnum : 0 < num) :
    ofRatio negative num den =
      ofSignificand negative (significandOf num den) (scaleOf num den) := by
  rw [ofRatio, if_neg hnum.ne']
  rfl

theorem ofRatio_zero : ofRatio negative 0 den = zero negative := if_pos rfl

theorem negative_ofRatio : (ofRatio negative num den).negative = negative := by
  rcases Nat.eq_zero_or_pos num with rfl | hnum
  · rw [ofRatio_zero]
    rfl
  · rw [ofRatio_eq hnum, negative_ofSignificand]

/-- The significand is off by at most one half. -/
theorem abs_significandOf_sub_le (hden : 0 < den) :
    |(significandOf num den : ℚ) - num / den / 2 ^ scaleOf num den| ≤ 1 / 2 := by
  rw [← scaled_eq]
  exact abs_roundHalfEven_sub_le _ (Nat.mul_pos hden (twoTo_pos _))

theorem significandOf_le (hnum : 0 < num) (hden : 0 < den) : significandOf num den ≤ twoTo 53 := by
  obtain ⟨-, hhigh, -⟩ := scaleOf_spec hnum hden
  refine roundHalfEven_le (Nat.mul_pos hden (twoTo_pos _)) ?_
  rw [scaled_eq, natCast_twoTo, div_le_iff₀ (zpow_pos two_pos _), ← zpow_natCast,
    ← zpow_add₀ two_ne_zero, Int.add_comm]
  exact hhigh.le

theorem le_significandOf (hnum : 0 < num) (hden : 0 < den) :
    twoTo 52 ≤ significandOf num den ∨ scaleOf num den = -1074 := by
  obtain ⟨-, -, hlow | hscale⟩ := scaleOf_spec hnum hden
  · refine Or.inl (le_roundHalfEven (Nat.mul_pos hden (twoTo_pos _)) ?_)
    rw [scaled_eq, natCast_twoTo, le_div_iff₀ (zpow_pos two_pos _), ← zpow_natCast,
      ← zpow_add₀ two_ne_zero, Int.add_comm]
    exact hlow
  · exact Or.inr hscale

/-- The size of a rounded fraction that is not too large is its significand at its scale. -/
theorem size_ofRatio (negative : Bool) (hnum : 0 < num) (hden : 0 < den)
    (hscale : scaleOf num den ≤ 970) :
    (ofRatio negative num den).isFinite = true ∧
      (ofRatio negative num den).size = significandOf num den * 2 ^ scaleOf num den := by
  obtain ⟨hexp, -, -⟩ := scaleOf_spec hnum hden
  rw [ofRatio_eq hnum]
  rcases Nat.lt_or_ge (significandOf num den) (twoTo 52) with hsmall | hlow
  · rw [(le_significandOf hnum hden).resolve_left hsmall.not_ge]
    exact ofSignificand_small hsmall
  · rcases (significandOf_le hnum hden).lt_or_eq with hlt | hfull
    · exact ofSignificand_normal negative hlow hlt hexp (by omega)
    · have hhalf : twoTo 52 < twoTo 53 := by decide
      have hnext : -1074 ≤ scaleOf num den + 1 := by omega
      obtain ⟨hfinite, hsize⟩ := ofSignificand_normal negative le_rfl hhalf hnext (by omega)
      rw [hfull, ofSignificand_full, hsize]
      refine ⟨hfinite, ?_⟩
      rw [zpow_add_one₀ two_ne_zero, twoTo_succ 52]
      push_cast
      ring

/-- A rounded fraction is off by at most half a unit of its last place. -/
theorem abs_size_ofRatio_sub_le (negative : Bool) (hnum : 0 < num) (hden : 0 < den)
    (hscale : scaleOf num den ≤ 970) :
    |(ofRatio negative num den).size - num / den| ≤ 2 ^ scaleOf num den / 2 := by
  have hunit : (0 : ℚ) < 2 ^ scaleOf num den := zpow_pos two_pos _
  have hcancel : (num : ℚ) / den = num / den / 2 ^ scaleOf num den * 2 ^ scaleOf num den :=
    (div_mul_cancel₀ _ hunit.ne').symm
  rw [(size_ofRatio negative hnum hden hscale).2, hcancel, ← sub_mul, abs_mul, abs_of_pos hunit]
  calc _ ≤ 1 / 2 * 2 ^ scaleOf num den :=
        mul_le_mul_of_nonneg_right (abs_significandOf_sub_le hden) hunit.le
    _ = 2 ^ scaleOf num den / 2 := by ring

/-- A rounded fraction that is neither too large nor too small has a significand of 53 digits, at
its scale or, where it was rounded up to a power of two, right above it. -/
theorem exists_normal (negative : Bool) (hnum : 0 < num) (hden : 0 < den)
    (hscale : scaleOf num den ≤ 970) (hscale' : scaleOf num den ≠ -1074) :
    ∃ significand exponent, twoTo 52 ≤ significand ∧ significand < twoTo 53 ∧
      scaleOf num den ≤ exponent ∧
      ofRatio negative num den = ofSignificand negative significand exponent ∧
      (ofRatio negative num den).size = significand * 2 ^ exponent := by
  have hlow := (le_significandOf hnum hden).resolve_right hscale'
  obtain ⟨-, hsize⟩ := size_ofRatio negative hnum hden hscale
  rcases (significandOf_le hnum hden).lt_or_eq with hlt | hfull
  · exact ⟨_, _, hlow, hlt, le_rfl, ofRatio_eq hnum, hsize⟩
  · refine ⟨twoTo 52, scaleOf num den + 1, le_rfl, by decide, by omega, ?_, ?_⟩
    · rw [ofRatio_eq hnum, hfull, ofSignificand_full]
    · rw [hsize, hfull, zpow_add_one₀ two_ne_zero, twoTo_succ 52]
      push_cast
      ring

/-- A fraction that is nearer than half a unit to a number of 53 digits is rounded to it. -/
theorem ofRatio_eq_of_near {significand : Nat} {exponent : Int} (hnum : 0 < num) (hden : 0 < den)
    (hscale : scaleOf num den = exponent)
    (h : |(num : ℚ) / den - significand * 2 ^ exponent| < 2 ^ exponent / 2) :
    ofRatio negative num den = ofSignificand negative significand exponent := by
  have hunit : (0 : ℚ) < 2 ^ exponent := zpow_pos two_pos _
  have hnear : |(num : ℚ) / den / 2 ^ exponent - significand| < 1 / 2 := by
    have hsplit : (num : ℚ) / den / 2 ^ exponent - significand =
        (num / den - significand * 2 ^ exponent) / 2 ^ exponent := by
      field_simp
    rw [hsplit, abs_div, abs_of_pos hunit, div_lt_iff₀ hunit]
    linarith
  have hround : significandOf num den = significand := by
    rw [significandOf, hscale]
    refine roundHalfEven_eq (Nat.mul_pos hden (twoTo_pos _)) ?_
    rw [scaled_eq]
    exact hnear
  rw [ofRatio_eq hnum, hround, hscale]

end OfRatio

end Binary64

end Deferral
