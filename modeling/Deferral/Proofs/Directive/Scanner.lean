/-
# Deferral.Proofs.Directive.Scanner -- the longest admissible number at a cursor

The loop that gives back digits can end in two ways, with a number or with the cursor where it
began. While it runs, the cursor stands right after the digits that are left, so that the value
and the cursor never come apart. From this follows what a bounded number is: the longest run of
digits at the cursor that has an admissible length and an admissible value.
-/

import Deferral.Directive.Scanner
import Mathlib.Data.List.TakeWhile

namespace Deferral

/-- Digits that may be taken as a number from `shortest` to `longest` digits that does not
exceed `maximum`. -/
structure Admissible (maximum shortest longest : Nat) (digits : List Char) : Prop where
  isDigit : ∀ c ∈ digits, c.isDigit = true
  shortest_le : shortest ≤ digits.length
  le_longest : digits.length ≤ longest
  value_le : valueOfAscii digits ≤ maximum

/-- The beginning of a text that is to be taken: it is admissible, and no admissible beginning is
longer. -/
structure LongestAdmissible (maximum shortest longest : Nat) (text digits : List Char) : Prop where
  begins : digits <+: text
  admissible : Admissible maximum shortest longest digits
  length_le : ∀ other, other <+: text → Admissible maximum shortest longest other →
    other.length ≤ digits.length

variable {maximum shortest longest : Nat} {text : List Char}

/-! ## Beginnings made of digits -/

/-- A run from the beginning of a text is part of the longest one. -/
theorem prefix_takeWhile_iff {p : Char → Bool} {run : List Char} :
    run <+: text.takeWhile p ↔ run <+: text ∧ ∀ c ∈ run, p c = true := by
  constructor
  · intro h
    exact ⟨h.trans (List.takeWhile_prefix p), fun c hc => List.mem_takeWhile_imp (h.subset hc)⟩
  · rintro ⟨⟨after, rfl⟩, hrun⟩
    rw [List.takeWhile_append_of_pos hrun]
    exact List.prefix_append run _

/-- The digits at the beginning of a text, `longest` of them at most. -/
theorem prefix_digits_iff {digits : List Char} :
    digits <+: (text.take longest).takeWhile Char.isDigit ↔
      digits <+: text ∧ digits.length ≤ longest ∧ ∀ c ∈ digits, c.isDigit = true := by
  rw [prefix_takeWhile_iff, List.prefix_take_iff, and_assoc]

/-- An admissible beginning is among the digits that are taken first. -/
theorem Admissible.begins_digits {digits : List Char}
    (h : Admissible maximum shortest longest digits) (hbegins : digits <+: text) :
    digits <+: (text.take longest).takeWhile Char.isDigit :=
  prefix_digits_iff.mpr ⟨hbegins, h.le_longest, h.isDigit⟩

/-- There is one longest beginning. -/
theorem LongestAdmissible.unique {digits other : List Char}
    (h : LongestAdmissible maximum shortest longest text digits)
    (hother : LongestAdmissible maximum shortest longest text other) : digits = other := by
  have hle := hother.length_le digits h.begins h.admissible
  have hge := h.length_le other hother.begins hother.admissible
  exact (List.prefix_of_prefix_length_le h.begins hother.begins hle).eq_of_length
    (Nat.le_antisymm hle hge)

namespace Scanner

/-! ## The loop -/

/-- One turn of the loop goes on with a digit less, and the cursor has gone back by it. -/
theorem backOff_succ {start length : Nat} {digits : List Char}
    (hlarge : maximum < valueOfAscii (digits.take (length + 1))) (hlong : shortest ≤ length) :
    backOff maximum shortest start digits (length + 1) ⟨text, start + (length + 1)⟩ =
      backOff maximum shortest start digits length ⟨text, start + length⟩ := by
  rw [backOff, if_neg (Nat.not_le_of_lt hlarge), if_neg (by omega)]

/-- The loop ends with the greatest length that gives a number which is not too large, and the
cursor is right after these digits; or no length does, and the cursor is at the start. -/
theorem backOff_outcome (hpos : 0 < shortest) (maximum start : Nat) (text digits : List Char)
    {length : Nat} (hlength : shortest ≤ length) :
    (∃ k, shortest ≤ k ∧ k ≤ length ∧ valueOfAscii (digits.take k) ≤ maximum ∧
        (∀ j, k < j → j ≤ length → maximum < valueOfAscii (digits.take j)) ∧
        backOff maximum shortest start digits length ⟨text, start + length⟩ =
          (some (valueOfAscii (digits.take k)), ⟨text, start + k⟩)) ∨
      (∀ k, shortest ≤ k → k ≤ length → maximum < valueOfAscii (digits.take k)) ∧
        backOff maximum shortest start digits length ⟨text, start + length⟩ =
          (none, ⟨text, start⟩) := by
  induction length with
  | zero => omega
  | succ length ih =>
      rcases Nat.lt_or_ge maximum (valueOfAscii (digits.take (length + 1))) with hlarge | hfits
      · rcases Nat.lt_or_ge length shortest with hshort | hlong
        · -- The shortest run is too large: the cursor is put back.
          refine .inr ⟨fun k hk hle => ?_, ?_⟩
          · rwa [show k = length + 1 by omega]
          · rw [backOff, if_neg (Nat.not_le_of_lt hlarge), if_pos (by omega)]
        · rw [backOff_succ hlarge hlong]
          rcases ih hlong with ⟨k, hk, hle, hfits, hlonger, heq⟩ | ⟨hall, heq⟩
          · refine .inl ⟨k, hk, Nat.le_succ_of_le hle, hfits, fun j hlt hj => ?_, heq⟩
            rcases Nat.lt_or_eq_of_le hj with hj | rfl
            · exact hlonger j hlt (Nat.le_of_lt_succ hj)
            · exact hlarge
          · refine .inr ⟨fun k hk hle => ?_, heq⟩
            rcases Nat.lt_or_eq_of_le hle with hlt | rfl
            · exact hall k hk (Nat.le_of_lt_succ hlt)
            · exact hlarge
      · refine .inl ⟨length + 1, hlength, Nat.le_refl _, hfits, fun j hlt hj => ?_, ?_⟩
        · omega
        · rw [backOff, if_pos hfits]

/-! ## Bounded numbers -/

/-- Either the longest admissible run is taken, and the cursor goes past it, or there is none, and
the cursor stays. -/
theorem takeBounded_outcome (hpos : 0 < shortest) (maximum longest : Nat) (s : Scanner) :
    (∃ digits, LongestAdmissible maximum shortest longest s.rest digits ∧
        s.takeBounded maximum shortest longest =
          (some (valueOfAscii digits), { s with position := s.position + digits.length })) ∨
      (∀ digits, digits <+: s.rest → ¬ Admissible maximum shortest longest digits) ∧
        s.takeBounded maximum shortest longest = (none, s) := by
  rw [takeBounded, takeDigits]
  generalize hrun : (s.rest.take longest).takeWhile Char.isDigit = run
  have hself : run <+: (s.rest.take longest).takeWhile Char.isDigit := hrun ▸ List.prefix_rfl
  obtain ⟨hbegins, hlong, hdigits⟩ := prefix_digits_iff.mp hself
  -- Whatever is admissible is a beginning of the digits that were taken first.
  have hadmissible : ∀ {digits}, digits <+: s.rest → Admissible maximum shortest longest digits →
      digits.length ≤ run.length ∧ digits = run.take digits.length := by
    intro digits hdigits h
    have hpart := hrun ▸ h.begins_digits hdigits
    exact ⟨hpart.length_le, List.prefix_iff_eq_take.mp hpart⟩
  rcases Nat.lt_or_ge run.length shortest with hfew | hmany
  · refine .inr ⟨fun digits hdigits h => ?_, ?_⟩
    · have := (hadmissible hdigits h).1
      have := h.shortest_le
      omega
    · simp only [hfew, if_true]
  · simp only [Nat.not_lt_of_le hmany, if_false]
    rcases backOff_outcome hpos maximum s.position s.text run hmany with
      ⟨k, hk, hle, hfits, hlonger, heq⟩ | ⟨hall, heq⟩
    · have hlength : (run.take k).length = k := List.length_take_of_le hle
      refine .inl ⟨run.take k, ⟨(List.take_prefix k run).trans hbegins, ?_, ?_⟩, ?_⟩
      · exact ⟨fun c hc => hdigits c (List.mem_of_mem_take hc), by omega, by omega, hfits⟩
      · intro other hother h
        obtain ⟨hle', htake⟩ := hadmissible hother h
        by_contra hlt
        have hlarge := hlonger other.length (by omega) hle'
        rw [← htake] at hlarge
        exact absurd h.value_le (Nat.not_le_of_lt hlarge)
      · rw [heq, hlength]
    · refine .inr ⟨fun digits hdigits h => ?_, heq⟩
      obtain ⟨hle', htake⟩ := hadmissible hdigits h
      have hlarge := hall digits.length h.shortest_le hle'
      rw [← htake] at hlarge
      exact absurd h.value_le (Nat.not_le_of_lt hlarge)

/-- **A bounded number is the longest admissible prefix.** The number that is taken at a cursor is
the value of the longest run of digits there that has from `shortest` to `longest` digits and does
not exceed `maximum`, and the cursor goes on by exactly the length of this run. Nothing is taken
exactly where there is no such run, and the cursor is then where it was. -/
theorem takeBounded_longest (hshortest : 1 ≤ shortest) (maximum longest : Nat) (s : Scanner) :
    (∀ n after, s.takeBounded maximum shortest longest = (some n, after) ↔
      ∃ digits, LongestAdmissible maximum shortest longest s.rest digits ∧
        n = valueOfAscii digits ∧ after = { s with position := s.position + digits.length }) ∧
    (∀ after, s.takeBounded maximum shortest longest = (none, after) ↔
      after = s ∧ ∀ digits, digits <+: s.rest → ¬ Admissible maximum shortest longest digits) := by
  rcases takeBounded_outcome hshortest maximum longest s with
    ⟨digits, hdigits, heq⟩ | ⟨hnone, heq⟩
  · constructor
    · intro n after
      rw [heq, Prod.mk.injEq, Option.some_inj]
      constructor
      · rintro ⟨rfl, rfl⟩
        exact ⟨digits, hdigits, rfl, rfl⟩
      · rintro ⟨other, hother, rfl, rfl⟩
        rw [hdigits.unique hother]
        exact ⟨rfl, rfl⟩
    · intro after
      rw [heq]
      refine iff_of_false (by simp) ?_
      rintro ⟨-, hall⟩
      exact hall digits hdigits.begins hdigits.admissible
  · constructor
    · intro n after
      rw [heq]
      refine iff_of_false (by simp) ?_
      rintro ⟨digits, hdigits, -⟩
      exact hnone digits hdigits.begins hdigits.admissible
    · intro after
      rw [heq, Prod.mk.injEq, and_iff_right rfl, and_iff_left hnone]
      exact eq_comm

/-- Of an hour that is too large the first digit is taken, and no longer run is admissible. Where
one digit is too few, the cursor comes back over the digits that were given back. -/
theorem takeBounded_longest_hour :
    (1 ≤ 1 ∧ (⟨"T24:00".toList, 1⟩ : Scanner).takeBounded 23 1 2 = (some 2, ⟨"T24:00".toList, 2⟩) ∧
      LongestAdmissible 23 1 2 "24:00".toList ['2']) ∧
    (1 ≤ 2 ∧ (⟨"T678".toList, 1⟩ : Scanner).takeBounded 59 2 3 = (none, ⟨"T678".toList, 1⟩) ∧
      ∀ digits, digits <+: "678".toList → ¬ Admissible 59 2 3 digits) := by
  have htaken : (⟨"T24:00".toList, 1⟩ : Scanner).takeBounded 23 1 2 =
      (some 2, ⟨"T24:00".toList, 2⟩) := by decide
  have hback : (⟨"T678".toList, 1⟩ : Scanner).takeBounded 59 2 3 =
      (none, ⟨"T678".toList, 1⟩) := by decide
  obtain ⟨digits, hdigits, -, hafter⟩ :=
    ((takeBounded_longest le_rfl 23 2 ⟨"T24:00".toList, 1⟩).1 2 _).mp htaken
  have hnone := (((takeBounded_longest (by decide) 59 3 ⟨"T678".toList, 1⟩).2 _).mp hback).2
  -- The run that was taken is as long as the way of the cursor.
  have hone : digits = ['2'] := by
    have hlength : 2 = 1 + digits.length := congrArg Scanner.position hafter
    exact (List.prefix_iff_eq_take.mp hdigits.begins).trans (by
      rw [show digits.length = 1 by omega]
      rfl)
  exact ⟨⟨le_rfl, htaken, hone ▸ hdigits⟩, by decide, hback, hnone⟩

end Scanner

end Deferral
