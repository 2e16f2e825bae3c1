/-
# Deferral.Proofs.Calendar.Pivots -- several shifts at once, in any order

A pivot takes its shifts from the largest unit to the smallest, whatever the order in which they
are given, so it depends only on how many units of each kind there are (`amountOf`). A unit that
is not given counts as none of it. What a pivot does is then a fixed chain of seven shifts: the
years, the months, and five spans of fixed length, which add up as long as every step of the way
stays on the calendar.
-/

import Mathlib.Data.List.Infix
import Deferral.Proofs.Calendar.Monotonicity

namespace Deferral

open DateTime (shiftsOfKeywords largestFirst baseKeyword)

/-! ## Keywords -/

namespace TimeUnit

theorem ofKeyword?_keyword (unit : TimeUnit) : ofKeyword? unit.keyword = some unit := by
  cases unit <;> decide

theorem keyword_inj {unit other : TimeUnit} : unit.keyword = other.keyword ↔ unit = other := by
  constructor
  · intro h
    have hsame := congrArg ofKeyword? h
    simpa only [ofKeyword?_keyword, Option.some.injEq] using hsame
  · rintro rfl
    rfl

theorem keyword_ne_baseKeyword (unit : TimeUnit) : unit.keyword ≠ baseKeyword := by
  cases unit <;> decide

theorem eq_keyword_of_ofKeyword? {keyword : String} {unit : TimeUnit}
    (h : ofKeyword? keyword = some unit) : keyword = unit.keyword := by
  have hsame := List.find?_some h
  exact (eq_of_beq hsame).symm

end TimeUnit

/-- Amounts of different units, by keyword. -/
structure IsAssignment (amounts : List (String × Int)) : Prop where
  known : ∀ entry ∈ amounts, ∃ unit : TimeUnit, entry.1 = unit.keyword
  distinct : (amounts.map Prod.fst).Nodup

/-- How many units of a kind are asked for. -/
def amountOf (amounts : List (String × Int)) (unit : TimeUnit) : Int :=
  (amounts.lookup unit.keyword).getD 0

/-- The first keyword that no unit has. -/
def firstUnknown? (amounts : List (String × Int)) : Option String :=
  (amounts.map Prod.fst).find? fun keyword => TimeUnit.ofKeyword? keyword == none

section Lookup

variable {amounts others : List (String × Int)} {keyword : String} {amount : Int}

theorem lookup_eq_none_of_not_mem (h : keyword ∉ amounts.map Prod.fst) :
    amounts.lookup keyword = none := by
  rw [List.lookup_eq_none_iff]
  intro entry hentry
  rw [bne_iff_ne]
  rintro rfl
  exact h (List.mem_map_of_mem hentry)

/-- Among different keywords, the amount of one is the one that stands beside it. -/
theorem lookup_eq_some_iff_mem (h : (amounts.map Prod.fst).Nodup) :
    amounts.lookup keyword = some amount ↔ (keyword, amount) ∈ amounts := by
  induction amounts with
  | nil => simp
  | cons entry rest ih =>
      obtain ⟨first, value⟩ := entry
      rw [List.map_cons, List.nodup_cons] at h
      have hnew : first ∉ rest.map Prod.fst := h.1
      rw [List.lookup_cons, List.mem_cons, Prod.mk.injEq]
      by_cases hkeyword : keyword = first
      · subst hkeyword
        have hrest : (keyword, amount) ∉ rest := fun hmem => hnew (List.mem_map_of_mem hmem)
        simp [hrest, eq_comm]
      · have hne : (keyword == first) = false := beq_eq_false_iff_ne.mpr hkeyword
        rw [hne]
        simpa only [hkeyword, false_and, false_or] using ih h.2

theorem lookup_eq_of_perm (h : (amounts.map Prod.fst).Nodup) (hperm : others.Perm amounts) :
    others.lookup keyword = amounts.lookup keyword := by
  have hothers : (others.map Prod.fst).Nodup := ((hperm.map Prod.fst).nodup_iff).mpr h
  apply Option.ext
  intro amount
  rw [lookup_eq_some_iff_mem h, lookup_eq_some_iff_mem hothers, hperm.mem_iff]

end Lookup

namespace IsAssignment

variable {amounts others : List (String × Int)}

theorem of_perm (h : IsAssignment amounts) (hperm : others.Perm amounts) : IsAssignment others where
  known := by
    intro entry hentry
    exact h.known entry (hperm.mem_iff.mp hentry)
  distinct := ((hperm.map Prod.fst).nodup_iff).mpr h.distinct

theorem amountOf_eq (h : IsAssignment amounts) (hperm : others.Perm amounts) :
    amountOf others = amountOf amounts := by
  funext unit
  rw [amountOf, amountOf, lookup_eq_of_perm h.distinct hperm]

theorem baseKeyword_not_mem (h : IsAssignment amounts) :
    baseKeyword ∉ amounts.map Prod.fst := by
  intro hmem
  obtain ⟨entry, hentry, hkeyword⟩ := List.mem_map.mp hmem
  obtain ⟨unit, hunit⟩ := h.known entry hentry
  exact unit.keyword_ne_baseKeyword (hunit.symm.trans hkeyword)

/-- All keywords are understood. Of every unit there is the one shift that is asked for, or
none. -/
theorem exists_shifts (h : IsAssignment amounts) :
    ∃ shifts, shiftsOfKeywords amounts = .ok shifts ∧ ∀ unit : TimeUnit,
      shifts.filter (·.1 == unit) = ((amounts.lookup unit.keyword).map (unit, ·)).toList := by
  induction amounts with
  | nil => exact ⟨[], rfl, fun unit => rfl⟩
  | cons entry rest ih =>
      obtain ⟨keyword, amount⟩ := entry
      obtain ⟨first, hfirst⟩ := h.known _ List.mem_cons_self
      obtain ⟨hnew, hdistinct⟩ := List.nodup_cons.mp h.distinct
      obtain ⟨shifts, hshifts, hfilter⟩ :=
        ih ⟨fun entry hentry => h.known entry (List.mem_cons_of_mem _ hentry), hdistinct⟩
      dsimp only at hfirst hnew
      subst hfirst
      refine ⟨(first, amount) :: shifts, ?_, ?_⟩
      · rw [shiftsOfKeywords, TimeUnit.ofKeyword?_keyword, hshifts]
        rfl
      · intro unit
        rw [List.filter_cons, List.lookup_cons, hfilter]
        by_cases hunit : unit = first
        · -- The keyword is new, so the rest asks for no more of the same unit.
          subst hunit
          simp [lookup_eq_none_of_not_mem hnew]
        · have hkeyword : (unit.keyword == first.keyword) = false := by
            rw [beq_eq_false_iff_ne]
            exact fun hsame => hunit (TimeUnit.keyword_inj.mp hsame)
          simp [hkeyword, Ne.symm hunit]

end IsAssignment

/-- The first keyword that is not understood decides. -/
theorem shiftsOfKeywords_eq_error {amounts : List (String × Int)} {keyword : String}
    (h : firstUnknown? amounts = some keyword) :
    shiftsOfKeywords amounts = .error (.unknownShift keyword) := by
  induction amounts with
  | nil => cases h
  | cons entry rest ih =>
      rw [firstUnknown?, List.map_cons, List.find?_cons] at h
      rw [shiftsOfKeywords]
      cases hunit : TimeUnit.ofKeyword? entry.1 with
      | none =>
          rw [hunit] at h
          cases h
          rfl
      | some unit =>
          rw [hunit] at h
          rw [ih h]
          rfl

/-! ## The chain of shifts -/

namespace Instant

theorem addAll_append (i : Instant) (shifts more : List (TimeUnit × Int)) :
    i.addAll (shifts ++ more) = i.addAll shifts >>= fun moved => moved.addAll more := by
  induction shifts generalizing i with
  | nil => rfl
  | cons shift shifts ih =>
      simp only [List.cons_append, addAll, ih]
      cases i.add shift.1 shift.2 <;> rfl

theorem addAll_cons_eq_ok_iff {i moved : Instant} {unit : TimeUnit} {amount : Int}
    {shifts : List (TimeUnit × Int)} :
    i.addAll ((unit, amount) :: shifts) = .ok moved ↔
      ∃ between, i.add unit amount = .ok between ∧ between.addAll shifts = .ok moved := by
  rw [addAll]
  constructor
  · exact bind_eq_ok
  · rintro ⟨between, hbetween, hmoved⟩
    rw [hbetween]
    exact hmoved

/-- A unit that is not asked for is one of which there are none. -/
theorem addAll_toList (i : Instant) (unit : TimeUnit) (amount : Option Int) :
    i.addAll (amount.map (unit, ·)).toList = i.add unit (amount.getD 0) := by
  cases amount with
  | none => exact (i.add_zero unit).symm
  | some amount =>
      show (i.add unit amount >>= fun moved => moved.addAll []) = i.add unit amount
      cases i.add unit amount <;> rfl

/-- Shifts that are collected unit by unit are the chain of what is asked for of each unit. -/
theorem addAll_flatMap {amounts : List (String × Int)} {shifts : List (TimeUnit × Int)}
    (h : ∀ unit : TimeUnit,
      shifts.filter (·.1 == unit) = ((amounts.lookup unit.keyword).map (unit, ·)).toList)
    (units : List TimeUnit) (i : Instant) :
    i.addAll (units.flatMap fun unit => shifts.filter (·.1 == unit)) =
      i.addAll (units.map fun unit => (unit, amountOf amounts unit)) := by
  induction units generalizing i with
  | nil => rfl
  | cons unit units ih =>
      rw [List.flatMap_cons, addAll_append, h, addAll_toList, List.map_cons, addAll]
      simp only [ih]
      rfl

end Instant

/-- The spans of fixed length that an assignment asks for, in microseconds, the longest unit
first. -/
def spans (amounts : List (String × Int)) : List Int :=
  fixedUnits.reverse.map fun entry => amountOf amounts entry.1 * (entry.2 * microsPerSecond : Nat)

/-- An instant is the pivot of another one: the years and then the months lie between, each cut to
the length of the month, and then all of the spans, on the calendar all the way. -/
def Instant.PivotsTo (b : Instant) (amounts : List (String × Int)) (moved : Instant) : Prop :=
  ∃ inYear inMonth,
    b.MonthsAfter (12 * amountOf amounts .year) inYear ∧
    inYear.MonthsAfter (amountOf amounts .month) inMonth ∧
    (moved.micros : Int) = inMonth.micros + (spans amounts).sum ∧
    ∀ way, way <+: spans amounts → HasMicros (inMonth.micros + way.sum)

namespace Instant

/-- A way stays on the calendar if it does so before its first step and from there on. -/
theorem forall_way_cons {start step : Int} {steps : List Int} :
    (∀ way, way <+: step :: steps → HasMicros (start + way.sum)) ↔
      HasMicros start ∧ ∀ way, way <+: steps → HasMicros (start + step + way.sum) := by
  constructor
  · intro h
    refine ⟨by simpa using h [] List.nil_prefix, ?_⟩
    intro way hway
    rw [Int.add_assoc, ← List.sum_cons]
    exact h _ ((List.prefix_cons_inj _).mpr hway)
  · rintro ⟨hstart, hrest⟩ way hway
    rcases List.prefix_cons_iff.mp hway with rfl | ⟨rest, rfl, hprefix⟩
    · rwa [List.sum_nil, Int.add_zero]
    · rw [List.sum_cons, ← Int.add_assoc]
      exact hrest rest hprefix

/-- Shifts by units of a fixed length are one shift by their sum, if none of them leaves the
calendar. -/
theorem addAll_fixed_iff {entries : List (TimeUnit × Nat)} (amount : TimeUnit → Int)
    (h : ∀ entry ∈ entries, entry ∈ fixedUnits) {i moved : Instant} :
    let steps : List Int :=
      entries.map fun entry => amount entry.1 * (entry.2 * microsPerSecond : Nat)
    i.addAll (entries.map fun entry => (entry.1, amount entry.1)) = .ok moved ↔
      (moved.micros : Int) = i.micros + steps.sum ∧
      ∀ way, way <+: steps → HasMicros (i.micros + way.sum) := by
  induction entries generalizing i with
  | nil =>
      simp only [List.map_nil, List.sum_nil, Int.add_zero, List.prefix_nil, forall_eq]
      rw [addAll, Except.ok.injEq]
      constructor
      · rintro rfl
        exact ⟨rfl, i.hasMicros⟩
      · rintro ⟨hmicros, -⟩
        exact (eq_of_micros_eq (Int.ofNat.inj hmicros)).symm
  | cons entry entries ih =>
      obtain ⟨unit, seconds⟩ := entry
      have hunit := h _ List.mem_cons_self
      have hentries : ∀ entry ∈ entries, entry ∈ fixedUnits :=
        fun entry hentry => h entry (List.mem_cons_of_mem _ hentry)
      dsimp only at ih ⊢
      simp only [List.map_cons, List.sum_cons, addAll_cons_eq_ok_iff,
        add_of_mem_fixedUnits hunit, addSpan_eq_ok_iff, ih hentries]
      rw [forall_way_cons, ← Int.add_assoc]
      constructor
      · rintro ⟨between, hbetween, hmoved, hway⟩
        rw [hbetween] at hmoved hway
        exact ⟨hmoved, i.hasMicros, hway⟩
      · rintro ⟨hmoved, -, hway⟩
        -- The first step leads to an instant, since the way begins with it.
        have hfirst := hway [] List.nil_prefix
        rw [List.sum_nil, Int.add_zero, ← exists_addSpan_iff] at hfirst
        obtain ⟨between, hbetween⟩ := hfirst
        rw [addSpan_eq_ok_iff] at hbetween
        rw [← hbetween] at hmoved hway
        exact ⟨between, hbetween, hmoved, hway⟩

theorem add_year (i : Instant) (amount : Int) : i.add .year amount = i.addMonths (12 * amount) :=
  add_of_mem_monthUnits (by decide) i amount

/-- The chain of all units leads to the pivot. -/
theorem addAll_all_iff {b moved : Instant} (amounts : List (String × Int)) :
    b.addAll (TimeUnit.all.reverse.map fun unit => (unit, amountOf amounts unit)) = .ok moved ↔
      b.PivotsTo amounts moved := by
  have hall : TimeUnit.all.reverse.map (fun unit => (unit, amountOf amounts unit)) =
      (.year, amountOf amounts .year) :: (.month, amountOf amounts .month) ::
        fixedUnits.reverse.map fun entry => (entry.1, amountOf amounts entry.1) := rfl
  have hfixed : ∀ entry ∈ fixedUnits.reverse, entry ∈ fixedUnits :=
    fun entry hentry => List.mem_reverse.mp hentry
  simp only [hall, addAll_cons_eq_ok_iff, add_year, add_month, addMonths_eq_ok_iff,
    addAll_fixed_iff (amountOf amounts) hfixed]
  constructor
  · rintro ⟨inYear, hyear, inMonth, hmonth, hmoved⟩
    exact ⟨inYear, inMonth, hyear, hmonth, hmoved⟩
  · rintro ⟨inYear, inMonth, hyear, hmonth, hmoved⟩
    exact ⟨inYear, hyear, inMonth, hmonth, hmoved⟩

end Instant

/-! ## Pivots -/

namespace DateTime

variable {base : DateTime} {b : Instant} {amounts : List (String × Int)}

theorem repeatsBase_iff :
    amounts.any (·.1 == baseKeyword) = true ↔ baseKeyword ∈ amounts.map Prod.fst := by
  simp only [List.any_eq_true, beq_iff_eq, List.mem_map]

theorem pivot_of_repeatsBase (h : baseKeyword ∈ amounts.map Prod.fst) :
    base.pivot amounts = .error .repeatedBase := by
  rw [pivot, repeatsBase_iff.mpr h]
  rfl

/-- Without the keyword of the reading, the shifts are read and then made one after the other. -/
theorem pivot_eq (hb : base.toInstant = .ok b) (h : baseKeyword ∉ amounts.map Prod.fst) :
    base.pivot amounts =
      shiftsOfKeywords amounts >>= fun shifts => b.addAll (largestFirst shifts) := by
  have hbase : amounts.any (·.1 == baseKeyword) = false :=
    eq_false_of_ne_true (mt repeatsBase_iff.mp h)
  rw [pivot, hbase, hb]
  rfl

theorem pivot_of_isAssignment (hb : base.toInstant = .ok b) (h : IsAssignment amounts) :
    base.pivot amounts =
      b.addAll (TimeUnit.all.reverse.map fun unit => (unit, amountOf amounts unit)) := by
  obtain ⟨shifts, hshifts, hfilter⟩ := h.exists_shifts
  rw [pivot_eq hb h.baseKeyword_not_mem, hshifts, ok_bind, largestFirst,
    Instant.addAll_flatMap hfilter]

theorem pivot_of_unknown (hb : base.toInstant = .ok b) {keyword : String}
    (hbase : baseKeyword ∉ amounts.map Prod.fst) (h : firstUnknown? amounts = some keyword) :
    base.pivot amounts = .error (.unknownShift keyword) := by
  rw [pivot_eq hb hbase, shiftsOfKeywords_eq_error h]
  rfl

/-- **Several shifts at once do not depend on their order.** Amounts of different units give the
same result, or the same failure, in any two orders, and a result is the pivot: the years and then
the months, and from there the sum of all spans of fixed length. With an unknown keyword among the
others there is no result. The failure names the first such keyword, unless one of the keywords is
that of the reading itself, which is noticed before anything else. -/
theorem pivot_any_order (h : base.OnCalendar) :
    ∃ b, base.toInstant = .ok b ∧
      (∀ amounts others, IsAssignment amounts → others.Perm amounts →
        base.pivot others = base.pivot amounts) ∧
      (∀ amounts, IsAssignment amounts → ∀ moved,
        base.pivot amounts = .ok moved ↔ b.PivotsTo amounts moved) ∧
      (∀ amounts, baseKeyword ∈ amounts.map Prod.fst →
        base.pivot amounts = .error .repeatedBase) ∧
      ∀ amounts, baseKeyword ∉ amounts.map Prod.fst → ∀ entry ∈ amounts,
        (∀ unit : TimeUnit, entry.1 ≠ unit.keyword) →
          ∃ keyword, firstUnknown? amounts = some keyword ∧
            base.pivot amounts = .error (.unknownShift keyword) := by
  obtain ⟨b, hb⟩ := exists_toInstant_iff.mpr h
  refine ⟨b, hb, ?_, ?_, ?_, ?_⟩
  · intro amounts others hamounts hperm
    rw [pivot_of_isAssignment hb hamounts, pivot_of_isAssignment hb (hamounts.of_perm hperm),
      hamounts.amountOf_eq hperm]
  · intro amounts hamounts moved
    rw [pivot_of_isAssignment hb hamounts]
    exact Instant.addAll_all_iff amounts
  · intro amounts hbase
    exact pivot_of_repeatsBase hbase
  · intro amounts hbase entry hentry hunknown
    obtain ⟨keyword, hkeyword⟩ : ∃ keyword, firstUnknown? amounts = some keyword := by
      rw [← Option.isSome_iff_exists, firstUnknown?, List.find?_isSome]
      refine ⟨entry.1, List.mem_map_of_mem hentry, ?_⟩
      cases hunit : TimeUnit.ofKeyword? entry.1 with
      | none => rfl
      | some unit => exact absurd (TimeUnit.eq_keyword_of_ofKeyword? hunit) (hunknown unit)
    exact ⟨keyword, hkeyword, pivot_of_unknown hb hbase hkeyword⟩

end DateTime

/-- From the 29th of February 2024 a month and a day lead to the 30th of March, the day named
first or last. -/
theorem pivot_any_order_leapDay :
    marchHour.OnCalendar ∧ IsAssignment [("days", 1), ("months", 1)] ∧
      marchHour.pivot [("days", 1), ("months", 1)] = .ok ⟨63847434600000000, by decide⟩ ∧
      marchHour.pivot [("months", 1), ("days", 1)] = .ok ⟨63847434600000000, by decide⟩ := by
  have hon : marchHour.OnCalendar := ⟨by decide, by decide⟩
  have hamounts : IsAssignment [("days", 1), ("months", 1)] := by
    refine ⟨?_, by decide⟩
    rw [List.forall_mem_cons, List.forall_mem_singleton]
    exact ⟨⟨.day, by decide⟩, ⟨.month, by decide⟩⟩
  obtain ⟨b, hb, horder, hpivot, -, -⟩ := DateTime.pivot_any_order hon
  cases hb.symm.trans (show marchHour.toInstant = .ok ⟨63844842600000000, by decide⟩ from rfl)
  have hmoved : marchHour.pivot [("days", 1), ("months", 1)] =
      .ok ⟨63847434600000000, by decide⟩ := by
    rw [hpivot _ hamounts]
    refine ⟨_, ⟨63847348200000000, by decide⟩, .refl _,
      ⟨by decide +kernel, by decide +kernel, by decide +kernel⟩, by decide +kernel, ?_⟩
    intro way hway
    rw [← List.mem_inits] at hway
    revert way
    unfold HasMicros
    decide +kernel
  exact ⟨hon, hamounts, hmoved, (horder _ _ hamounts (.swap ..)).trans hmoved⟩

/-- An unknown keyword does not always have the failure name it: the keyword of the reading can
be among the others. -/
theorem pivot_of_base_unnamed :
    ¬ ∀ (base : DateTime) (amounts : List (String × Int)), base.OnCalendar →
      (amounts.map Prod.fst).Nodup → (∃ entry ∈ amounts, ∀ unit : TimeUnit,
        entry.1 ≠ unit.keyword) →
          ∃ keyword, base.pivot amounts = .error (.unknownShift keyword) := by
  intro h
  have hunknown : ∀ unit : TimeUnit, "fortnights" ≠ unit.keyword := by
    intro unit
    cases unit <;> decide
  obtain ⟨keyword, hfailed⟩ := h marchHour [("fortnights", 2), ("base", 1)]
    ⟨by decide, by decide⟩ (by decide) ⟨("fortnights", 2), by decide, hunknown⟩
  have hbase : marchHour.pivot [("fortnights", 2), ("base", 1)] = .error .repeatedBase :=
    DateTime.pivot_of_repeatsBase (by decide)
  cases hbase.symm.trans hfailed

end Deferral
