/-
# Deferral.Proofs.Yaml.Numerals -- integers as plain scalars

The numeral of an integer may be written plain, and a plain scalar that is one stands for the
integer: it is no double, since it has no point, and among the forms of integers it is a decimal
one, or the octal zero.
-/

import Deferral.Proofs.Store.Names
import Deferral.Proofs.Yaml.PlainScalars

namespace Deferral

/-! ## Digits -/

/-- What holds of the ten digits holds of every digit. -/
theorem of_isDigit {p : Char → Bool} {c : Char} (h : c.isDigit = true)
    (hp : "0123456789".toList.all p = true) : p c = true := by
  refine List.all_eq_true.mp hp c ?_
  simp only [Char.isDigit, Bool.and_eq_true, decide_eq_true_eq] at h
  have hlow : 48 ≤ c.toNat := h.1
  have hhigh : c.toNat ≤ 57 := h.2
  rw [← Char.ofNat_toNat c]
  generalize c.toNat = code at hlow hhigh
  interval_cases code <;> decide

theorem length_decimal_le {n width : Nat} (hwidth : 0 < width) (h : n < tenTo width) :
    (decimal n).length ≤ width := by
  induction width generalizing n with
  | zero => cases hwidth
  | succ width ih =>
      rw [decimal_eq, List.length_append, List.length_singleton]
      split
      · exact Nat.le_add_left 1 width
      · next hn =>
          rw [tenTo_succ] at h
          have hwidth : 0 < width := by
            refine Nat.pos_of_ne_zero fun hzero => ?_
            rw [hzero] at h
            exact hn h
          have hrest : n / 10 < tenTo width := by omega
          exact Nat.succ_le_succ (ih hwidth hrest)

/-- No numeral of a positive number begins with a zero. -/
theorem head?_decimal {n : Nat} (h : n ≠ 0) : (decimal n).head? ≠ some '0' := by
  induction n using Nat.strongRecOn with
  | _ n ih =>
      rw [decimal_eq]
      split
      · next hn =>
          interval_cases n <;> first | exact absurd rfl h | decide
      · next hn =>
          obtain ⟨d, digits, hdigits⟩ := List.exists_cons_of_ne_nil (decimal_ne_nil (n / 10))
          have hrest := ih (n / 10) (by omega) (by omega)
          rw [hdigits] at hrest ⊢
          exact hrest

namespace Yaml

/-! ## Numerals may be plain -/

/-- A text without colons and number signs has nothing in it that ends a plain scalar. -/
theorem hasInnerIndicator_eq_false {text : List Char} (h : ∀ c ∈ text, c ≠ ':' ∧ c ≠ '#') :
    hasInnerIndicator text = false := by
  induction text with
  | nil => rfl
  | cons c rest ih =>
      cases rest with
      | nil => rfl
      | cons d rest =>
          obtain ⟨hcolon, hmark⟩ := h d (List.mem_cons_of_mem _ List.mem_cons_self)
          rw [hasInnerIndicator, ih fun e he => h e (List.mem_cons_of_mem _ he),
            beq_eq_false_iff_ne.mpr hcolon, beq_eq_false_iff_ne.mpr hmark]
          rfl

/-- A character of a numeral. -/
def isNumeralChar (c : Char) : Bool := c == '-' || c.isDigit

theorem isNumeralChar_of_isDigit {c : Char} (h : c.isDigit = true) : isNumeralChar c = true := by
  rw [isNumeralChar, h, Bool.or_true]

/-- What holds of the minus sign and of the ten digits holds of all characters of numerals. -/
theorem of_isNumeralChar {p : Char → Bool} {c : Char} (h : isNumeralChar c = true)
    (hp : "-0123456789".toList.all p = true) : p c = true := by
  obtain ⟨hminus, hdigits⟩ := Bool.and_eq_true_iff.mp hp
  rcases Bool.or_eq_true_iff.mp h with hc | hc
  · rw [beq_iff_eq.mp hc]
    exact hminus
  · exact of_isDigit hc hdigits

theorem isNumeralChar_of_mem {n : Int} {c : Char} (h : c ∈ decimalInt n) :
    isNumeralChar c = true := by
  rw [decimalInt] at h
  split at h
  · rcases List.mem_cons.mp h with rfl | h
    · rfl
    · exact isNumeralChar_of_isDigit (isDigit_of_mem_decimal h)
  · exact isNumeralChar_of_isDigit (isDigit_of_mem_decimal h)

theorem decimal_eq_cons (n : Nat) : ∃ d digits, decimal n = d :: digits ∧ d.isDigit = true := by
  cases h : decimal n with
  | nil => exact absurd h (decimal_ne_nil n)
  | cons d digits => exact ⟨d, digits, rfl, isDigit_of_mem_decimal (h ▸ List.mem_cons_self)⟩

/-- A numeral is a digit and more, perhaps after a sign. -/
theorem decimalInt_cases (n : Int) : ∃ d digits, d.isDigit = true ∧
    (decimalInt n = d :: digits ∨ decimalInt n = '-' :: d :: digits) := by
  obtain ⟨d, digits, hdigits, hd⟩ := decimal_eq_cons n.natAbs
  refine ⟨d, digits, hd, ?_⟩
  rw [decimalInt, hdigits]
  split
  · exact Or.inr rfl
  · exact Or.inl rfl

section Plain

variable (n : Int)

/-- What holds of the minus sign and of the ten digits holds throughout a numeral. -/
theorem forall_mem_decimalInt {p : Char → Bool} (hp : "-0123456789".toList.all p = true) :
    ∀ c ∈ decimalInt n, p c = true :=
  fun _ hc => of_isNumeralChar (isNumeralChar_of_mem hc) hp

theorem any_isBreak_decimalInt : (decimalInt n).any isBreak = false := by
  refine List.any_eq_false.mpr fun c hc hbreak => ?_
  have hnone := forall_mem_decimalInt n (p := fun c => !isBreak c) (by decide) c hc
  rw [hbreak] at hnone
  cases hnone

theorem hasOuterGap_decimalInt : hasOuterGap (decimalInt n) = false := by
  have hend : ∀ c ∈ decimalInt n, (c == ' ' || isBreak c) = false := by
    intro c hc
    have hnone := forall_mem_decimalInt n (p := fun c => !(c == ' ' || isBreak c)) (by decide) c hc
    simpa only [Bool.not_eq_true'] using hnone
  rw [hasOuterGap, Bool.or_eq_false_iff]
  constructor
  · cases hhead : (decimalInt n).head? with
    | none => rfl
    | some c => exact hend c (List.mem_of_mem_head? hhead)
  · cases hlast : (decimalInt n).getLast? with
    | none => rfl
    | some c => exact hend c (List.mem_of_mem_getLast? hlast)

theorem hasInnerIndicator_decimalInt : hasInnerIndicator (decimalInt n) = false := by
  refine hasInnerIndicator_eq_false fun c hc => ?_
  have hmarks := forall_mem_decimalInt n (p := fun c => c != ':' && c != '#') (by decide) c hc
  simpa only [Bool.and_eq_true, bne_iff_ne] using hmarks

/-- A minus sign with a digit after it begins no list. -/
theorem hasLeadingIndicator_decimalInt : hasLeadingIndicator (decimalInt n) = false := by
  obtain ⟨d, digits, hd, hcases⟩ := decimalInt_cases n
  have hdigit := of_isDigit
    (p := fun c => !(isLeadingIndicator c || isHalfIndicator c || isGap c)) hd (by decide)
  simp only [Bool.not_eq_true', Bool.or_eq_false_iff] at hdigit
  obtain ⟨⟨hleading, hhalf⟩, hgap⟩ := hdigit
  rcases hcases with h | h
  · rw [h, hasLeadingIndicator, hleading, hhalf]
    rfl
  · rw [h, hasLeadingIndicator, atGap, hgap, Bool.and_false]
    decide

/-- Nor does it begin a document. -/
theorem beginsLikeMarker_decimalInt : beginsLikeMarker (decimalInt n) = false := by
  obtain ⟨d, digits, hd, hcases⟩ := decimalInt_cases n
  have hmarks := of_isDigit (p := fun c => c != '-' && c != '.') hd (by decide)
  simp only [Bool.and_eq_true, bne_iff_ne] at hmarks
  rcases hcases with h | h
  · rw [h]
    unfold beginsLikeMarker
    split
    · next heq => exact absurd (List.cons.inj heq).1 hmarks.1
    · next heq => exact absurd (List.cons.inj heq).1 hmarks.2
    · rfl
  · rw [h]
    unfold beginsLikeMarker
    split
    · next heq => exact absurd (List.cons.inj (List.cons.inj heq).2).1 hmarks.1
    · next heq => cases heq
    · rfl

theorem allowsPlain_decimalInt : allowsPlain (decimalInt n) = true := by
  have hordinary : (decimalInt n).all isOrdinary = true :=
    List.all_eq_true.mpr (forall_mem_decimalInt n (by decide))
  rw [allowsPlain, hordinary, any_isBreak_decimalInt, hasOuterGap_decimalInt,
    beginsLikeMarker_decimalInt, hasLeadingIndicator_decimalInt, hasInnerIndicator_decimalInt]
  rfl

end Plain

/-! ## What numerals stand for -/

/-- No word is a numeral. -/
theorem ne_word {text : List Char} {word : String} (h : ∀ c ∈ text, isNumeralChar c = true)
    (hword : word.toList.any (fun c => !isNumeralChar c) = true) : String.ofList text ≠ word := by
  rintro rfl
  rw [String.toList_ofList] at hword
  obtain ⟨c, hc, hnone⟩ := List.any_eq_true.mp hword
  rw [h c hc] at hnone
  cases hnone

theorem splitSign_decimalInt (n : Int) :
    splitSign (decimalInt n) = (decide (n < 0), decimal n.natAbs) := by
  rw [decimalInt]
  split
  · next h => rw [splitSign, decide_eq_true h]
  · next h =>
      obtain ⟨d, digits, hdigits, hd⟩ := decimal_eq_cons n.natAbs
      have hsign : d ≠ '-' ∧ d ≠ '+' := by
        have hsigns := of_isDigit (p := fun c => c != '-' && c != '+') hd (by decide)
        simpa only [Bool.and_eq_true, bne_iff_ne] using hsigns
      rw [decide_eq_false h, hdigits]
      unfold splitSign
      split
      · next heq => exact absurd (List.cons.inj heq).1 hsign.1
      · next heq => exact absurd (List.cons.inj heq).1 hsign.2
      · rfl

/-- A numeral is no double. -/
theorem double?_decimalInt (n : Int) : double? (decimalInt n) = none := by
  have hchars : ∀ c ∈ decimalInt n, isNumeralChar c = true := fun c => isNumeralChar_of_mem
  have hdigits : ∀ c ∈ decimal n.natAbs, c.isDigit = true := fun c => isDigit_of_mem_decimal
  have hrun : ∀ c ∈ decimal n.natAbs, isNumeralChar c = true := fun c hc =>
    isNumeralChar_of_isDigit (hdigits c hc)
  have hspaced : ∀ c ∈ decimal n.natAbs, isSpacedDigit c = true := fun c hc => by
    rw [isSpacedDigit, hdigits c hc, Bool.true_or]
  have hpoint : ∀ c ∈ decimal n.natAbs, (c != '.') = true := fun c hc =>
    of_isDigit (p := (· != '.')) (hdigits c hc) (by decide)
  have hinf : [".inf", ".Inf", ".INF"].contains (String.ofList (decimal n.natAbs)) = false := by
    simp only [List.contains_cons, List.contains_nil, Bool.or_eq_false_iff, beq_eq_false_iff_ne]
    exact ⟨ne_word hrun (by decide), ne_word hrun (by decide), ne_word hrun (by decide), trivial⟩
  have hnan : [".nan", ".NaN", ".NAN"].contains (String.ofList (decimalInt n)) = false := by
    simp only [List.contains_cons, List.contains_nil, Bool.or_eq_false_iff, beq_eq_false_iff_ne]
    exact ⟨ne_word hchars (by decide), ne_word hchars (by decide), ne_word hchars (by decide),
      trivial⟩
  have hpointed : pointed? (decide (n < 0)) (decimal n.natAbs) = none := by
    rw [pointed?, List.dropWhile_eq_nil_iff.mpr hspaced]
  have hsixty : sixtyDouble? (decide (n < 0)) (decimal n.natAbs) = none := by
    rw [sixtyDouble?, List.dropWhile_eq_nil_iff.mpr hpoint]
  rw [double?, splitSign_decimalInt]
  dsimp only
  rw [hinf, hnan, hpointed, hsixty]
  simp only [Bool.false_eq_true, if_false, Option.or_none, ite_self]
  split
  · next heq =>
      have hmem : '.' ∈ decimalInt n := heq ▸ List.mem_cons_self
      exact absurd (hchars '.' hmem) (by decide)
  · rfl

/-- A numeral that does not begin with a zero is a decimal one. -/
theorem unsignedInteger?_of_isSpacedNumeral {negative : Bool} {text : List Char}
    (hzero : text.head? ≠ some '0') (h : isSpacedNumeral text = true) :
    unsignedInteger? negative text =
      some ((decimalNumeral (dropUnderscores text)).map fun n => .int (withSign negative n)) := by
  unfold unsignedInteger?
  split
  · exact absurd rfl hzero
  · exact absurd rfl hzero
  · exact absurd rfl hzero
  · rw [if_pos h]

/-- A numeral has the form of the integer. -/
theorem integer?_decimalInt {n : Int} (h : n.natAbs < tenTo maxDigits) :
    integer? (decimalInt n) = some (.ok (.int n)) := by
  rw [integer?, splitSign_decimalInt]
  dsimp only
  by_cases hzero : n.natAbs = 0
  · have hn : n = 0 := Int.natAbs_eq_zero.mp hzero
    have hdecimal : decimal 0 = ['0'] := decimal_eq 0
    rw [hn, Int.natAbs_zero, hdecimal]
    rfl
  · obtain ⟨d, digits, hdigits, hd⟩ := decimal_eq_cons n.natAbs
    have hall : ∀ c ∈ decimal n.natAbs, c.isDigit = true := fun c => isDigit_of_mem_decimal
    have hspaced : isSpacedNumeral (decimal n.natAbs) = true := by
      rw [hdigits] at hall ⊢
      rw [isSpacedNumeral, hd, Bool.true_and, List.all_eq_true]
      intro c hc
      rw [isSpacedDigit, hall c (List.mem_cons_of_mem _ hc), Bool.true_or]
    have hplain : dropUnderscores (decimal n.natAbs) = decimal n.natAbs :=
      List.filter_eq_self.mpr fun c hc =>
        of_isDigit (p := (· != '_')) (hall c hc) (by decide)
    have hlength : (decimal n.natAbs).length ≤ maxDigits := length_decimal_le (by decide) h
    rw [unsignedInteger?_of_isSpacedNumeral (head?_decimal hzero) hspaced, hplain, decimalNumeral,
      if_pos hlength, valueOfAscii_decimal]
    show some (Except.ok (Value.int _)) = _
    rw [withSign_natAbs]

/-- A plain scalar that is a numeral stands for the integer. -/
theorem special?_numeral {n : Int} {text : List Char} (h : numeral n = .ok text) :
    special? text = some (.ok (.int n)) := by
  have hsize := natAbs_lt_of_numeral h
  obtain rfl := numeral_eq_ok h
  have hword : ∀ word : String, word.toList.any (fun c => !isNumeralChar c) = true →
      String.ofList (decimalInt n) ≠ word := fun word => ne_word fun c => isNumeralChar_of_mem
  have hnull : nullWords.contains (String.ofList (decimalInt n)) = false := by
    refine Bool.eq_false_iff.mpr fun hcontains => ?_
    rcases List.mem_cons.mp (List.contains_iff_mem.mp hcontains) with hempty | hmem
    · exact decimalInt_ne_nil n (String.ofList_eq_empty_iff.mp hempty)
    · have hall : nullWords.tail.all (fun word => word.toList.any fun c => !isNumeralChar c) =
          true := by decide
      exact hword _ (List.all_eq_true.mp hall _ hmem) rfl
  have hbool : boolWords.lookup (String.ofList (decimalInt n)) = none := by
    have hall : boolWords.all (fun entry => entry.1.toList.any fun c => !isNumeralChar c) =
        true := by decide
    exact List.lookup_eq_none_iff.mpr fun entry hentry =>
      bne_iff_ne.mpr (hword _ (List.all_eq_true.mp hall entry hentry))
  rw [special?, hnull, hbool, double?_decimalInt, integer?_decimalInt hsize]
  rfl

end Yaml

end Deferral
