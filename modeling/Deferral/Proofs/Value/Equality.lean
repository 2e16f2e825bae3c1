/-
# Deferral.Proofs.Value.Equality -- when values are equal

Equality of values is transitive, and a value without NaN is equal to itself. An equal
value is of the same kind, but for numbers, which are equal across kinds. In particular
an equal value is present when the other one is, and a text or a moment is equal to
nothing but texts and moments.
-/

import Deferral.Value
import Mathlib.Tactic.Ring

namespace Deferral.Value

/-! ## Values with NaN -/

mutual

/-- NaN is the value, or stands somewhere in it. -/
def hasNaN : Value → Bool
  | float x => x.isNaN
  | list items => someHasNaN items
  | map entries => someEntryHasNaN entries
  | _ => false

/-- NaN stands somewhere in the items. -/
def someHasNaN : List Value → Bool
  | [] => false
  | x :: xs => x.hasNaN || someHasNaN xs

/-- NaN stands somewhere in the entries. -/
def someEntryHasNaN : List (Value × Value) → Bool
  | [] => false
  | (key, value) :: rest => key.hasNaN || value.hasNaN || someEntryHasNaN rest

end

/-! ## Numbers -/

/-- The denominator of a number is positive. -/
theorem ratio?_pos {v : Value} {p : Int} {q : Nat} (h : v.ratio? = some (p, q)) : 0 < q := by
  cases v <;> simp only [ratio?, Option.some.injEq, Prod.mk.injEq, reduceCtorEq] at h
  case bool b => omega
  case int n => omega
  case float x =>
    split at h
    · cases h
      exact twoTo_pos _
    · cases h

/-- A number that is finite, infinite or NaN. -/
def isNumber : Value → Bool
  | bool _ => true
  | int _ => true
  | float _ => true
  | _ => false

/-- Numbers are compared as numbers. -/
theorem same_of_isNumber {a : Value} (h : a.isNumber = true) (b : Value) :
    a.same b = a.sameNumber b := by
  cases a with
  | bool p => cases b <;> rfl
  | int n => cases b <;> rfl
  | float x => cases b <;> rfl
  | _ => cases h

theorem isNumber_of_ratio? {v : Value} {r : Int × Nat} (h : v.ratio? = some r) :
    v.isNumber = true := by
  cases v <;> first | rfl | cases h

theorem ratio?_of_isInfinite {x : Binary64} (h : x.isInfinite = true) :
    (float x).ratio? = none := by
  simp only [Binary64.isInfinite, Bool.and_eq_true, beq_iff_eq] at h
  rw [ratio?, Binary64.isFinite, h.1]
  rfl

/-- Two numbers are the same if they are equal as fractions, or the same infinity. -/
theorem sameNumber_iff {a b : Value} : a.sameNumber b = true ↔
    (∃ p q r s, a.ratio? = some (p, q) ∧ b.ratio? = some (r, s) ∧ p * (s : Int) = r * q) ∨
    ∃ x y, a = float x ∧ b = float y ∧ x.isInfinite = true ∧ y.isInfinite = true ∧
      x.negative = y.negative := by
  constructor
  · intro h
    unfold sameNumber at h
    split at h
    · next hp hr => exact Or.inl ⟨_, _, _, _, hp, hr, beq_iff_eq.mp h⟩
    · split at h
      · simp only [Bool.and_eq_true, beq_iff_eq] at h
        exact Or.inr ⟨_, _, rfl, rfl, h.1.1, h.1.2, h.2⟩
      · cases h
    · cases h
  · rintro (⟨p, q, r, s, hp, hr, heq⟩ | ⟨x, y, rfl, rfl, hx, hy, hsign⟩)
    · unfold sameNumber
      rw [hp, hr]
      exact beq_iff_eq.mpr heq
    · unfold sameNumber
      rw [ratio?_of_isInfinite hx, ratio?_of_isInfinite hy]
      dsimp only
      rw [hx, hy, hsign]
      exact beq_self_eq_true y.negative

theorem isNumber_of_sameNumber {a b : Value} (h : a.sameNumber b = true) :
    a.isNumber = true ∧ b.isNumber = true := by
  rcases sameNumber_iff.mp h with ⟨_, _, _, _, hp, hr, -⟩ | ⟨_, _, rfl, rfl, -⟩
  · exact ⟨isNumber_of_ratio? hp, isNumber_of_ratio? hr⟩
  · exact ⟨rfl, rfl⟩

/-- Fractions that equal one fraction equal each other. -/
theorem ratio_trans {p r u : Int} {q s v : Nat} (hs : 0 < s) (hpr : p * s = r * q)
    (hru : r * v = u * s) : p * v = u * q := by
  have hs' : (s : Int) ≠ 0 := by omega
  refine Int.eq_of_mul_eq_mul_right hs' ?_
  calc p * v * s = p * s * v := by ring
    _ = r * q * v := by rw [hpr]
    _ = r * v * q := by ring
    _ = u * s * q := by rw [hru]
    _ = u * q * s := by ring

theorem sameNumber_trans {a b c : Value} (hab : a.sameNumber b = true)
    (hbc : b.sameNumber c = true) : a.sameNumber c = true := by
  refine sameNumber_iff.mpr ?_
  rcases sameNumber_iff.mp hab with
    ⟨p, q, r, s, hp, hr, hpr⟩ | ⟨x, y, rfl, rfl, hx, hy, hxy⟩
  · rcases sameNumber_iff.mp hbc with
      ⟨r', s', u, v, hr', hu, hru⟩ | ⟨y, _, rfl, -, hy, -⟩
    · rw [hr] at hr'
      cases hr'
      exact Or.inl ⟨p, q, u, v, hp, hu, ratio_trans (ratio?_pos hr) hpr hru⟩
    · rw [ratio?_of_isInfinite hy] at hr
      cases hr
  · rcases sameNumber_iff.mp hbc with
      ⟨_, _, _, _, hr, -⟩ | ⟨y', z, hy', rfl, -, hz, hyz⟩
    · rw [ratio?_of_isInfinite hy] at hr
      cases hr
    · cases hy'
      exact Or.inr ⟨x, z, rfl, rfl, hx, hz, hxy.trans hyz⟩

theorem sameNumber_self {v : Value} (hnumber : v.isNumber = true) (h : v.hasNaN = false) :
    v.sameNumber v = true := by
  refine sameNumber_iff.mpr ?_
  cases hr : v.ratio? with
  | some r => exact Or.inl ⟨r.1, r.2, r.1, r.2, rfl, rfl, rfl⟩
  | none =>
      cases v with
      | bool b => cases hr
      | int n => cases hr
      | float x =>
          have hinfinite : x.isInfinite = true := by
            simp only [hasNaN, Binary64.isNaN, Bool.and_eq_false_iff, beq_eq_false_iff_ne] at h
            simp only [ratio?, Binary64.isFinite, ite_eq_right_iff, reduceCtorEq, imp_false,
              bne_iff_ne, ne_eq, not_not] at hr
            rcases h with h | h
            · exact absurd hr h
            · rw [Binary64.isInfinite, hr]
              simpa using h
          exact Or.inr ⟨x, x, rfl, rfl, hinfinite, hinfinite, rfl⟩
      | _ => cases hnumber

/-! ## All values -/

/-- Every entry has an equal one. -/
theorem sameEntries_iff {xs ys : List (Value × Value)} :
    sameEntries xs ys = true ↔
      ∀ x ∈ xs, ∃ y ∈ ys, x.1.same y.1 = true ∧ x.2.same y.2 = true := by
  induction xs with
  | nil => simp [sameEntries]
  | cons x xs ih => simp [sameEntries, ih]

mutual

/-- A value is equal to itself unless NaN stands in it. -/
theorem same_self : ∀ {v : Value}, v.hasNaN = false → v.same v = true
  | null, _ => rfl
  | bool _, h => (same_of_isNumber rfl _).trans (sameNumber_self rfl h)
  | int _, h => (same_of_isNumber rfl _).trans (sameNumber_self rfl h)
  | float _, h => (same_of_isNumber rfl _).trans (sameNumber_self rfl h)
  | text s, _ => beq_self_eq_true s
  | list items, h => by
      rw [hasNaN] at h
      rw [same]
      exact sameItems_self h
  | map entries, h => by
      rw [hasNaN] at h
      rw [same, beq_self_eq_true, Bool.true_and, sameEntries_iff]
      exact fun e he => ⟨e, he, entries_same_self h e he⟩
  | date d, _ => beq_self_eq_true d
  | dateTime t, _ => by simp [same, DateTime.sameMoment]

theorem sameItems_self : ∀ {xs : List Value}, someHasNaN xs = false → sameItems xs xs = true
  | [], _ => rfl
  | x :: xs, h => by
      rw [someHasNaN, Bool.or_eq_false_iff] at h
      rw [sameItems, same_self h.1, sameItems_self h.2]
      rfl

theorem entries_same_self : ∀ {xs : List (Value × Value)}, someEntryHasNaN xs = false →
    ∀ x ∈ xs, x.1.same x.1 = true ∧ x.2.same x.2 = true
  | [], _, _, hmem => nomatch hmem
  | (key, value) :: xs, h, x, hmem => by
      rw [someEntryHasNaN, Bool.or_eq_false_iff, Bool.or_eq_false_iff] at h
      rcases List.mem_cons.mp hmem with rfl | hmem
      · exact ⟨same_self h.1.1, same_self h.1.2⟩
      · exact entries_same_self h.2 x hmem

end

/-! ## Kinds -/

/-- The ways in which values are equal, one for each kind of values. -/
inductive Equal : Value → Value → Prop
  | null : Equal null null
  | number {a b : Value} (ha : a.isNumber = true) (hb : b.isNumber = true)
      (h : a.sameNumber b = true) : Equal a b
  | text (s : String) : Equal (text s) (text s)
  | list {xs ys : List Value} (h : sameItems xs ys = true) : Equal (list xs) (list ys)
  | map {xs ys : List (Value × Value)} (hlength : xs.length = ys.length)
      (h : sameEntries xs ys = true) : Equal (map xs) (map ys)
  | date (d : Date) : Equal (date d) (date d)
  | dateTime {t u : DateTime} (h : t.sameMoment u = true) : Equal (dateTime t) (dateTime u)

/-- Equal values are equal within a kind. -/
theorem equal_of_same {a b : Value} (h : a.same b = true) : Equal a b := by
  by_cases ha : a.isNumber = true
  · rw [same_of_isNumber ha] at h
    exact .number ha (isNumber_of_sameNumber h).2 h
  · -- Values that are no numbers are not compared across kinds.
    have hnot : a.sameNumber b ≠ true := fun h => ha (isNumber_of_sameNumber h).1
    cases a <;> cases b <;> try exact absurd h hnot
    case null.null => exact .null
    case text.text s t =>
      rw [beq_iff_eq.mp h]
      exact .text t
    case list.list xs ys => exact .list h
    case map.map xs ys =>
      rw [same, Bool.and_eq_true, beq_iff_eq] at h
      exact .map h.1 h.2
    case date.date d e =>
      rw [beq_iff_eq.mp h]
      exact .date e
    case dateTime.dateTime t u => exact .dateTime h

theorem eq_null_of_same_null {a : Value} (h : a.same null = true) : a = null := by
  cases equal_of_same h with
  | null => rfl
  | number _ hb _ => cases hb

theorem eq_text_of_same {a : Value} {s : String} (h : a.same (text s) = true) : a = text s := by
  cases equal_of_same h with
  | text => rfl
  | number _ hb _ => cases hb

theorem eq_text_of_text_same {s : String} {b : Value} (h : (text s).same b = true) :
    b = text s := by
  cases equal_of_same h with
  | text => rfl
  | number ha _ _ => cases ha

theorem eq_dateTime_of_same {a : Value} {t : DateTime} (h : a.same (dateTime t) = true) :
    ∃ u, a = dateTime u ∧ u.sameMoment t = true := by
  cases equal_of_same h with
  | dateTime hmoment => exact ⟨_, rfl, hmoment⟩
  | number _ hb _ => cases hb

/-! ## Presence -/

/-- A finite number is present when it is not zero. -/
theorem isPresent_of_ratio? {v : Value} {p : Int} {q : Nat} (h : v.ratio? = some (p, q)) :
    v.isPresent = true ↔ p ≠ 0 := by
  cases v <;> simp only [ratio?, Option.some.injEq, Prod.mk.injEq, reduceCtorEq] at h
  case bool b =>
    obtain ⟨rfl, rfl⟩ := h
    cases b <;> decide
  case int n =>
    obtain ⟨rfl, rfl⟩ := h
    simp [isPresent]
  case float x =>
    split at h
    · simp only [Option.some.injEq, Prod.mk.injEq] at h
      obtain ⟨rfl, rfl⟩ := h
      have hsize : x.numerator = 0 ↔ x.isZero = true := by
        have hpos := twoTo_pos x.exponent.toNat
        have hlead := twoTo_pos 52
        rw [Binary64.numerator, Nat.mul_eq_zero, Binary64.significand, Binary64.isZero]
        split
        · next hzero => simp [hzero]; omega
        · next hzero => simp [hzero]; omega
      have hsigned : x.signedNumerator = 0 ↔ x.numerator = 0 := by
        rw [Binary64.signedNumerator]
        split <;> omega
      rw [isPresent, Bool.not_eq_true', ne_eq, hsigned, hsize, Bool.not_eq_true]
    · cases h

/-- An infinity is not zero. -/
theorem isPresent_of_isInfinite {x : Binary64} (h : x.isInfinite = true) :
    (float x).isPresent = true := by
  simp only [Binary64.isInfinite, Bool.and_eq_true, beq_iff_eq] at h
  rw [isPresent, Binary64.isZero, h.1]
  rfl

/-- Of two equal fractions both are zero, or neither is. -/
theorem ratio_eq_zero_iff {p r : Int} {q s : Nat} (hq : 0 < q) (hs : 0 < s)
    (h : p * (s : Int) = r * q) : p = 0 ↔ r = 0 := by
  constructor
  · rintro rfl
    rw [Int.zero_mul] at h
    rcases Int.mul_eq_zero.mp h.symm with h0 | h0
    · exact h0
    · omega
  · rintro rfl
    rw [Int.zero_mul] at h
    rcases Int.mul_eq_zero.mp h with h0 | h0
    · exact h0
    · omega

theorem isPresent_eq_of_sameNumber {a b : Value} (h : a.sameNumber b = true) :
    a.isPresent = b.isPresent := by
  rcases sameNumber_iff.mp h with ⟨p, q, r, s, hp, hr, heq⟩ | ⟨x, y, rfl, rfl, hx, hy, -⟩
  · rw [Bool.eq_iff_iff, isPresent_of_ratio? hp, isPresent_of_ratio? hr, not_iff_not]
    exact ratio_eq_zero_iff (ratio?_pos hp) (ratio?_pos hr) heq
  · rw [isPresent_of_isInfinite hx, isPresent_of_isInfinite hy]

/-- Of two equal values both are present, or neither is. -/
theorem isPresent_eq_of_same {a b : Value} (h : a.same b = true) : a.isPresent = b.isPresent := by
  cases equal_of_same h with
  | number _ _ h => exact isPresent_eq_of_sameNumber h
  | @list xs ys h =>
      cases xs with
      | nil =>
          cases ys with
          | nil => rfl
          | cons y ys => cases h
      | cons x xs =>
          cases ys with
          | nil => cases h
          | cons y ys => rfl
  | @map xs ys hlength _ =>
      have hempty : xs.isEmpty = ys.isEmpty := by
        rw [Bool.eq_iff_iff, List.isEmpty_iff_length_eq_zero, List.isEmpty_iff_length_eq_zero,
          hlength]
      rw [isPresent, isPresent, hempty]
  | _ => rfl

/-! ## Transitivity -/

mutual

theorem same_trans : ∀ {a b c : Value}, a.same b = true → b.same c = true → a.same c = true
  | a, b, c, hab, hbc => by
      cases equal_of_same hab with
      | null => exact hbc
      | number ha hb h =>
          rw [same_of_isNumber hb] at hbc
          rw [same_of_isNumber ha]
          exact sameNumber_trans h hbc
      | text s => exact hbc
      | list h =>
          cases equal_of_same hbc with
          | list h' => exact sameItems_trans h h'
          | number hb _ _ => cases hb
      | map hlength h =>
          cases equal_of_same hbc with
          | map hlength' h' =>
              rw [same, Bool.and_eq_true, beq_iff_eq]
              exact ⟨hlength.trans hlength', sameEntries_trans h h'⟩
          | number hb _ _ => cases hb
      | date d => exact hbc
      | dateTime h =>
          cases equal_of_same hbc with
          | dateTime h' =>
              simp only [same, DateTime.sameMoment, Bool.and_eq_true, beq_iff_eq] at h h' ⊢
              exact ⟨h.1.trans h'.1, h.2.trans h'.2⟩
          | number hb _ _ => cases hb

theorem sameItems_trans : ∀ {xs ys zs : List Value}, sameItems xs ys = true →
    sameItems ys zs = true → sameItems xs zs = true
  | [], [], _, _, hbc => hbc
  | x :: xs, y :: ys, z :: zs, hab, hbc => by
      rw [sameItems, Bool.and_eq_true] at hab hbc ⊢
      exact ⟨same_trans hab.1 hbc.1, sameItems_trans hab.2 hbc.2⟩

theorem sameEntries_trans : ∀ {xs ys zs : List (Value × Value)}, sameEntries xs ys = true →
    sameEntries ys zs = true → sameEntries xs zs = true
  | [], _, _, _, _ => rfl
  | (key, value) :: xs, ys, zs, hab, hbc => by
      rw [sameEntries, Bool.and_eq_true, List.any_eq_true] at hab ⊢
      obtain ⟨⟨y, hy, hxy⟩, hrest⟩ := hab
      obtain ⟨z, hz, hkey, hvalue⟩ := sameEntries_iff.mp hbc y hy
      rw [Bool.and_eq_true] at hxy
      refine ⟨⟨z, hz, ?_⟩, sameEntries_trans hrest hbc⟩
      rw [Bool.and_eq_true]
      exact ⟨same_trans hxy.1 hkey, same_trans hxy.2 hvalue⟩

end

/-! ## Identity -/

mutual

/-- Two values are one datum, which is more than to be equal. -/
def identical : Value → Value → Bool
  | null, null => true
  | bool a, bool b => a == b
  | int m, int n => m == n
  | float x, float y => x == y
  | text s, text t => s == t
  | list xs, list ys => identicalItems xs ys
  | map xs, map ys => identicalEntries xs ys
  | date d, date e => d == e
  | dateTime t, dateTime u => t == u
  | _, _ => false

/-- Two lists have identical items. -/
def identicalItems : List Value → List Value → Bool
  | [], [] => true
  | x :: xs, y :: ys => x.identical y && identicalItems xs ys
  | _, _ => false

/-- Two mappings have identical entries in the same order. -/
def identicalEntries : List (Value × Value) → List (Value × Value) → Bool
  | [], [] => true
  | (key, value) :: xs, (key', value') :: ys =>
    key.identical key' && value.identical value' && identicalEntries xs ys
  | _, _ => false

end

mutual

theorem eq_of_identical : ∀ {a b : Value}, a.identical b = true → a = b
  | a, b, h => by
      cases a <;> cases b <;> first | rfl | cases h | skip
      all_goals rw [identical] at h
      case bool.bool => rw [beq_iff_eq.mp h]
      case int.int => rw [beq_iff_eq.mp h]
      case float.float => rw [beq_iff_eq.mp h]
      case text.text => rw [beq_iff_eq.mp h]
      case list.list => rw [eq_of_identicalItems h]
      case map.map => rw [eq_of_identicalEntries h]
      case date.date => rw [beq_iff_eq.mp h]
      case dateTime.dateTime => rw [beq_iff_eq.mp h]

theorem eq_of_identicalItems : ∀ {xs ys : List Value}, identicalItems xs ys = true → xs = ys
  | [], [], _ => rfl
  | x :: xs, y :: ys, h => by
      rw [identicalItems, Bool.and_eq_true] at h
      rw [eq_of_identical h.1, eq_of_identicalItems h.2]

theorem eq_of_identicalEntries : ∀ {xs ys : List (Value × Value)},
    identicalEntries xs ys = true → xs = ys
  | [], [], _ => rfl
  | (key, value) :: xs, (key', value') :: ys, h => by
      rw [identicalEntries, Bool.and_eq_true, Bool.and_eq_true] at h
      rw [eq_of_identical h.1.1, eq_of_identical h.1.2, eq_of_identicalEntries h.2]

end

end Deferral.Value
