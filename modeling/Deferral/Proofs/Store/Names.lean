/-
# Deferral.Proofs.Store.Names -- names of files

The name of a file is the numeral of an id. Whether there is one depends on the integer that
the id stands for, and two ids have one name only if they stand for one integer.
-/

import Deferral.Proofs.Failure.Chain
import Deferral.Proofs.Number.Digits
import Deferral.Store

namespace Deferral

theorem numeral?_eq_some {n : Int} {digits : List Char} (h : numeral? n = some digits) :
    digits = decimalInt n := by
  unfold numeral? at h
  generalize tenTo maxDigits = bound at h
  exact (Option.some.inj (Option.ite_none_right_eq_some.mp h).2).symm

/-- Whatever numeral there is, it is that of the integer. -/
theorem numeral_eq_ok {n : Int} {digits : List Char} (h : numeral n = .ok digits) :
    digits = decimalInt n := by
  -- Rewriting by the equation of the definition would compute the bound of its digits.
  delta numeral at h
  cases hdigits : numeral? n with
  | none =>
      rw [hdigits] at h
      cases h
  | some digits' =>
      rw [hdigits] at h
      cases h
      exact numeral?_eq_some hdigits

/-- Only integers that are not too large have numerals. -/
theorem natAbs_lt_of_numeral {n : Int} {digits : List Char} (h : numeral n = .ok digits) :
    n.natAbs < tenTo maxDigits := by
  delta numeral at h
  cases hdigits : numeral? n with
  | none =>
      rw [hdigits] at h
      cases h
  | some digits' =>
      unfold numeral? at hdigits
      generalize tenTo maxDigits = bound at hdigits
      exact (Option.ite_none_right_eq_some.mp hdigits).1

theorem numeral_eq_error {n : Int} {failure : Failure} (h : numeral n = .error failure) :
    failure = .malformedNumber := by
  delta numeral at h
  cases hdigits : numeral? n with
  | none =>
      rw [hdigits] at h
      cases h
      rfl
  | some digits =>
      rw [hdigits] at h
      cases h

namespace Store

/-- An integer has no file name only if it has no numeral. -/
theorem fileName_eq_error {n : Int} {failure : Failure} (h : fileName (.int n) = .error failure) :
    failure = .malformedNumber := by
  have hid : Value.toInteger (.int n) = .ok n := rfl
  rw [fileName, hid, ok_bind] at h
  rcases bind_eq_error h with hnumeral | ⟨digits, -, hname⟩
  · exact numeral_eq_error hnumeral
  · cases hname

theorem fileName_eq_ok {id : Value} {name : String} (h : fileName id = .ok name) :
    ∃ n, id.toInteger = .ok n ∧ name = String.ofList (decimalInt n ++ ".yaml".toList) := by
  obtain ⟨n, hn, h⟩ := bind_eq_ok h
  obtain ⟨digits, hdigits, h⟩ := bind_eq_ok h
  cases h
  exact ⟨n, hn, by rw [numeral_eq_ok hdigits]⟩

theorem fileName_congr {id other : Value} (h : id.toInteger = other.toInteger) :
    fileName id = fileName other := by
  rw [fileName, h, fileName]

/-- Ids of one file stand for one integer. -/
theorem toInteger_eq_of_fileName {id other : Value} {name : String} (h : fileName id = .ok name)
    (hother : fileName other = .ok name) : id.toInteger = other.toInteger := by
  obtain ⟨n, hn, rfl⟩ := fileName_eq_ok h
  obtain ⟨m, hm, hname⟩ := fileName_eq_ok hother
  have hnumeral := List.append_cancel_right (String.ofList_injective hname)
  rw [hn, hm, decimalInt_injective hnumeral]

end Store

end Deferral
