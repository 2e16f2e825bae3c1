/-
# Deferral.Proofs.Number.Digits -- numerals are read back

Timestamps are made of numerals with leading zeros. `decimalFixed` writes them, and
`takeFixed?` reads them. This module says that reading gives the
number back and leaves the text after it alone. Other numerals have no leading zeros;
they denote what was written, so that different integers have different numerals.
-/

import Deferral.Calendar.Iso
import Mathlib.Data.List.Induction
import Mathlib.Data.List.TakeWhile
import Mathlib.Tactic.IntervalCases

namespace Deferral

/-! ## Single digits -/

theorem isDigit_digitChar {d : Nat} (h : d < 10) : (digitChar d).isDigit = true := by
  interval_cases d <;> decide

theorem asciiDigitValue_digitChar {d : Nat} (h : d < 10) : asciiDigitValue (digitChar d) = d := by
  interval_cases d <;> decide

/-- The code points of the digits. -/
theorem toNat_of_isDigit {c : Char} (h : c.isDigit = true) : 48 ≤ c.toNat ∧ c.toNat ≤ 57 := by
  simp only [Char.isDigit, Bool.and_eq_true, decide_eq_true_eq] at h
  exact ⟨UInt32.le_iff_toNat_le.mp h.1, UInt32.le_iff_toNat_le.mp h.2⟩

theorem asciiDigitValue_lt {c : Char} (h : c.isDigit = true) : asciiDigitValue c < 10 := by
  have hrange := toNat_of_isDigit h
  rw [asciiDigitValue]
  omega

/-- No digit is blank. -/
theorem isBlank_of_isDigit {c : Char} (h : c.isDigit = true) : isBlank c = false := by
  have hcodes : ∀ n ∈ blankCodes, ¬ (48 ≤ n ∧ n ≤ 57) := by decide
  rw [isBlank, List.contains_eq_mem, decide_eq_false_iff_not]
  exact fun hmem => hcodes _ hmem (toNat_of_isDigit h)

/-! ## Numerals as strings of digits -/

@[simp]
theorem length_decimalFixed (width n : Nat) : (decimalFixed width n).length = width := by
  induction width generalizing n with
  | zero => rfl
  | succ width ih => simp [decimalFixed, ih]

theorem isDigit_of_mem_decimalFixed {width n : Nat} {c : Char} (h : c ∈ decimalFixed width n) :
    c.isDigit = true := by
  induction width generalizing n with
  | zero => simp [decimalFixed] at h
  | succ width ih =>
      rcases List.mem_append.mp h with h | h
      · exact ih h
      · rw [List.mem_singleton.mp h]
        exact isDigit_digitChar (Nat.mod_lt _ (by decide))

/-- A numeral begins with a digit, unless it has no width. -/
theorem decimalFixed_succ_eq_cons (width n : Nat) :
    ∃ c tail, decimalFixed (width + 1) n = c :: tail ∧ c.isDigit = true := by
  cases h : decimalFixed (width + 1) n with
  | nil =>
      have hlength := length_decimalFixed (width + 1) n
      rw [h] at hlength
      cases hlength
  | cons c tail =>
      have hc : c ∈ decimalFixed (width + 1) n := by simp [h]
      exact ⟨c, tail, rfl, isDigit_of_mem_decimalFixed hc⟩

theorem all_isDigit_decimalFixed (width n : Nat) :
    (decimalFixed width n).all Char.isDigit = true :=
  List.all_eq_true.mpr fun _ h => isDigit_of_mem_decimalFixed h

/-- One more digit at the end: what is there counts ten times as much. -/
theorem valueOfAscii_concat (digits : List Char) (c : Char) :
    valueOfAscii (digits ++ [c]) = valueOfAscii digits * 10 + asciiDigitValue c := by
  simp [valueOfAscii, valueOfDigits]

/-- Digits are as many as the number needs, or more. -/
theorem valueOfAscii_lt {digits : List Char} (h : ∀ c ∈ digits, c.isDigit = true) :
    valueOfAscii digits < 10 ^ digits.length := by
  induction digits using List.reverseRecOn with
  | nil => decide
  | append_singleton digits c ih =>
      have hdigits := ih fun d hd => h d (List.mem_append_left [c] hd)
      have hc : asciiDigitValue c < 10 := asciiDigitValue_lt (h c (by simp))
      rw [valueOfAscii_concat, List.length_append, List.length_singleton, Nat.pow_succ]
      omega

/-- A numeral of fixed width keeps the last digits of the number. -/
theorem valueOfAscii_decimalFixed (width n : Nat) :
    valueOfAscii (decimalFixed width n) = n % 10 ^ width := by
  induction width generalizing n with
  | zero => simp [decimalFixed, valueOfAscii, valueOfDigits, Nat.mod_one]
  | succ width ih =>
      have hdigit : asciiDigitValue (digitChar (n % 10)) = n % 10 :=
        asciiDigitValue_digitChar (Nat.mod_lt _ (by decide))
      rw [decimalFixed, valueOfAscii_concat, ih, hdigit, Nat.pow_succ, Nat.mul_comm (10 ^ width) 10,
        Nat.mod_mul]
      omega

/-! ## Numerals without leading zeros -/

theorem decimalOnto_append (n : Nat) (done after : List Char) :
    decimalOnto n (done ++ after) = decimalOnto n done ++ after := by
  induction n using Nat.strongRecOn generalizing done with
  | _ n ih =>
      rw [decimalOnto, decimalOnto.eq_def n done]
      split
      · rfl
      · next h =>
          rw [← List.cons_append]
          exact ih (n / 10) (by omega) _

/-- The last digit comes off the end. -/
theorem decimal_eq (n : Nat) :
    decimal n = (if n < 10 then [] else decimal (n / 10)) ++ [digitChar (n % 10)] := by
  rw [decimal, decimalOnto]
  split
  · next h => rw [Nat.mod_eq_of_lt h, List.nil_append]
  · exact decimalOnto_append (n / 10) [] [digitChar (n % 10)]

theorem isDigit_of_mem_decimal {n : Nat} {c : Char} (h : c ∈ decimal n) : c.isDigit = true := by
  induction n using Nat.strongRecOn with
  | _ n ih =>
      rw [decimal_eq] at h
      rcases List.mem_append.mp h with h | h
      · split at h
        · cases h
        · exact ih (n / 10) (by omega) h
      · rw [List.mem_singleton.mp h]
        exact isDigit_digitChar (Nat.mod_lt _ (by decide))

theorem valueOfAscii_decimal (n : Nat) : valueOfAscii (decimal n) = n := by
  induction n using Nat.strongRecOn with
  | _ n ih =>
      have hdigit : asciiDigitValue (digitChar (n % 10)) = n % 10 :=
        asciiDigitValue_digitChar (Nat.mod_lt _ (by decide))
      rw [decimal_eq, valueOfAscii_concat, hdigit]
      split
      · next h =>
          have hnil : valueOfAscii [] = 0 := rfl
          omega
      · rw [ih (n / 10) (by omega)]
        omega

theorem decimal_ne_nil (n : Nat) : decimal n ≠ [] := by
  rw [decimal_eq]
  exact List.append_ne_nil_of_right_ne_nil _ (List.cons_ne_nil _ _)

/-- An integer is its size with its sign. -/
theorem withSign_natAbs (n : Int) : withSign (n < 0) n.natAbs = n := by
  simp only [withSign, decide_eq_true_eq]
  split <;> omega

/-- No numeral of a natural number begins with a sign. -/
theorem decimal_ne_minus {n : Nat} {rest : List Char} : decimal n ≠ '-' :: rest := by
  intro h
  have hdigit := isDigit_of_mem_decimal (h ▸ List.mem_cons_self : '-' ∈ decimal n)
  exact absurd hdigit (by decide)

theorem decimalInt_ne_nil (n : Int) : decimalInt n ≠ [] := by
  rw [decimalInt]
  split
  · exact List.cons_ne_nil _ _
  · exact decimal_ne_nil _

/-- Different integers have different numerals. -/
theorem decimalInt_injective {m n : Int} (h : decimalInt m = decimalInt n) : m = n := by
  have hsize : ∀ {a b : Nat}, decimal a = decimal b → a = b := by
    intro a b hab
    rw [← valueOfAscii_decimal a, hab, valueOfAscii_decimal]
  rw [decimalInt, decimalInt] at h
  split at h
  · split at h
    · have := hsize (List.cons.inj h).2
      omega
    · exact absurd h.symm decimal_ne_minus
  · split at h
    · exact absurd h decimal_ne_minus
    · have := hsize h
      omega

/-! ## Reading -/

/-- The ten ASCII digits are the first run of digits that is looked at. -/
theorem digitValue?_of_isDigit {c : Char} (h : c.isDigit = true) :
    digitValue? c = some (asciiDigitValue c) := by
  have hrange := toNat_of_isDigit h
  have hcodes : zeroCodes = 0x30 :: zeroCodes.tail := rfl
  have hfirst : (decide (0x30 ≤ c.toNat) && decide (c.toNat < 0x30 + 10)) = true := by
    simp only [Bool.and_eq_true, decide_eq_true_eq]
    omega
  rw [digitValue?, hcodes]
  simp only [List.find?_cons, hfirst]
  rfl

theorem digitValues?_of_isDigit {digits : List Char} (hne : digits ≠ [])
    (h : ∀ c ∈ digits, c.isDigit = true) :
    digitValues? digits = some (digits.map asciiDigitValue) := by
  induction digits with
  | nil => exact absurd rfl hne
  | cons c digits ih =>
      have hc := digitValue?_of_isDigit (h c List.mem_cons_self)
      cases digits with
      | nil =>
          rw [digitValues?, hc]
          rfl
      | cons d digits =>
          have hmark : ∀ rest, d :: digits ≠ '_' :: rest := by
            rintro rest heq
            obtain ⟨rfl, -⟩ := List.cons.inj heq
            exact absurd (h '_' (by simp)) (by decide)
          have hrest := ih (List.cons_ne_nil _ _) fun x hx => h x (List.mem_cons_of_mem _ hx)
          rw [digitValues?, hc, hrest]
          · rfl
          · exact List.cons_ne_nil d digits
          · exact hmark

@[simp]
theorem take_decimalFixed (width n : Nat) (rest : List Char) :
    (decimalFixed width n ++ rest).take width = decimalFixed width n := by
  rw [List.take_append_of_le_length (by simp), List.take_of_length_le (by simp)]

@[simp]
theorem drop_decimalFixed (width n : Nat) (rest : List Char) :
    (decimalFixed width n ++ rest).drop width = rest := by
  rw [List.drop_append_of_le_length (by simp), List.drop_of_length_le (by simp), List.nil_append]

theorem takeFixed?_decimalFixed {width n : Nat} (h : n < 10 ^ width) (rest : List Char) :
    takeFixed? width (decimalFixed width n ++ rest) = some (n, rest) := by
  rw [takeFixed?, take_decimalFixed, drop_decimalFixed, valueOfAscii_decimalFixed,
    Nat.mod_eq_of_lt h]
  simp only [length_decimalFixed, all_isDigit_decimalFixed, and_self, if_true]

/-- A run of digits before a character that is none. -/
theorem takeWhile_isDigit_append {digits rest : List Char} {c : Char}
    (h : ∀ d ∈ digits, d.isDigit = true) (hc : c.isDigit = false) :
    (digits ++ c :: rest).takeWhile Char.isDigit = digits := by
  rw [List.takeWhile_append_of_pos h, List.takeWhile_cons_of_neg (by simp [hc]), List.append_nil]

theorem dropWhile_isDigit_append {digits rest : List Char} {c : Char}
    (h : ∀ d ∈ digits, d.isDigit = true) (hc : c.isDigit = false) :
    (digits ++ c :: rest).dropWhile Char.isDigit = c :: rest := by
  rw [List.dropWhile_append_of_pos h, List.dropWhile_cons_of_neg (by simp [hc])]

end Deferral
