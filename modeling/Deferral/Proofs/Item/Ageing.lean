/-
# Deferral.Proofs.Item.Ageing -- the order of comments follows the age of an item

Only the comments of an item that is neither pinned nor a profile have an order that depends on
the time. It compares the moment of creation with a cut-off that lies whole days of 86400 seconds
back, and it does so strictly and to the microsecond. The cut-off moves on with the clock and
comes closer with fewer days, so an item that is old stays old.
-/

import Deferral.Item.Order
import Deferral.Proofs.Calendar.Pivots

namespace Deferral

/-! ## The cut-off -/

/-- The microseconds of the moment some days of 86400 seconds before a reading. -/
def DateTime.daysBefore (t : DateTime) (days : Int) : Int :=
  t.shownUtcMicros - days * (86400 * microsPerSecond : Nat)

section CutOff

variable {now : DateTime} {b : Instant} {days : Int}

theorem micros_add_eq_daysBefore (hb : now.toInstant = .ok b) :
    (b.micros : Int) + -(days * microsPerDay) = now.daysBefore days := by
  have hday : microsPerDay = 86400 * microsPerSecond := by decide
  rw [DateTime.daysBefore, DateTime.shownUtcMicros_eq, ← DateTime.toInstant_eq_ok_iff.mp hb, hday]
  omega

theorem oldBefore_int (b : Instant) (days : Int) :
    oldBefore b (.int days) = b.addSpan (-(days * microsPerDay)) := rfl

theorem oldBefore_eq_ok_iff (hb : now.toInstant = .ok b) {limit : Instant} :
    oldBefore b (.int days) = .ok limit ↔ (limit.micros : Int) = now.daysBefore days := by
  rw [oldBefore_int, Instant.addSpan_eq_ok_iff, micros_add_eq_daysBefore hb]

theorem exists_oldBefore (hb : now.toInstant = .ok b) (h : HasMicros (now.daysBefore days)) :
    ∃ limit, oldBefore b (.int days) = .ok limit := by
  rw [← micros_add_eq_daysBefore hb] at h
  exact Instant.exists_addSpan_iff.mpr h

theorem oldBefore_of_not_hasMicros (hb : now.toInstant = .ok b)
    (h : ¬ HasMicros (now.daysBefore days)) : oldBefore b (.int days) = .error .offCalendar := by
  rw [← micros_add_eq_daysBefore hb] at h
  exact Instant.addSpan_of_not_hasMicros h

/-- The cut-off is the pivot of the current time by so many days back. -/
theorem oldBefore_eq_pivot (hb : now.toInstant = .ok b) (days : Int) :
    oldBefore b (.int days) = now.pivot [(TimeUnit.day.keyword, -days)] := by
  have hshifts : DateTime.shiftsOfKeywords [(TimeUnit.day.keyword, -days)] =
      .ok [(.day, -days)] := by
    simp only [DateTime.shiftsOfKeywords, TimeUnit.ofKeyword?_keyword, Except.map]
  have hbase : DateTime.baseKeyword ∉ [(TimeUnit.day.keyword, -days)].map Prod.fst := by
    rw [List.map_singleton, List.mem_singleton]
    exact (TimeUnit.keyword_ne_baseKeyword .day).symm
  have hlargest : DateTime.largestFirst [(.day, -days)] = [(.day, -days)] := rfl
  have hspan : b.add .day (-days) = b.addSpan (-(days * microsPerDay)) := by
    show b.addSpan (microsPerDay * -days) = _
    rw [Int.mul_neg, Int.mul_comm]
  rw [DateTime.pivot_eq hb hbase, hshifts, ok_bind, hlargest, oldBefore_int, Instant.addAll, hspan]
  cases b.addSpan (-(days * microsPerDay)) with
  | error failure => rfl
  | ok limit => rfl

end CutOff

/-! ## The order of the comments -/

section SortMode

variable {pinned bio : Value} {now created : DateTime} {b : Instant} {days : Int}

theorem chooseSortMode_of_pinned (h : pinned.isPresent) (bio createdAt : Value) (now : DateTime)
    (days : Value) : chooseSortMode pinned bio createdAt now days = .ok .recent := by
  rw [chooseSortMode, if_pos h]
  rfl

theorem chooseSortMode_of_bio (hnow : now.OnCalendar) (hpinned : ¬ pinned.isPresent)
    (hbio : bio.isPresent) (createdAt days : Value) :
    chooseSortMode pinned bio createdAt now days = .ok .hot := by
  obtain ⟨b, hb⟩ := DateTime.exists_toInstant_iff.mpr hnow
  rw [chooseSortMode, if_neg hpinned, hb]
  show (if bio.isPresent then _ else _) = _
  rw [if_pos hbio]
  rfl

/-- The order of an item whose age counts: the cut-off decides, or fails. -/
theorem chooseSortMode_of_plain (hb : now.toInstant = .ok b) (hpinned : ¬ pinned.isPresent)
    (hbio : ¬ bio.isPresent) {c : Instant} (hc : created.toInstant = .ok c) (days : Value) :
    chooseSortMode pinned bio (.dateTime created) now days =
      (oldBefore b days).map fun limit => if c < limit then .top else .hot := by
  rw [chooseSortMode, if_neg hpinned, hb]
  show (if bio.isPresent then _ else created.toInstant >>= _) = _
  rw [if_neg hbio, hc]
  show oldBefore b days >>= _ = _
  cases oldBefore b days with
  | error failure => rfl
  | ok limit => rfl

/-- An item is old if it was created strictly before the cut-off. -/
theorem chooseSortMode_of_cutOff (hnow : now.OnCalendar) (hcreated : created.OnCalendar)
    (hpinned : ¬ pinned.isPresent) (hbio : ¬ bio.isPresent)
    (h : HasMicros (now.daysBefore days)) :
    chooseSortMode pinned bio (.dateTime created) now (.int days) =
      .ok (if created.shownUtcMicros + days * (86400 * microsPerSecond : Nat) <
        now.shownUtcMicros then .top else .hot) := by
  obtain ⟨b, hb⟩ := DateTime.exists_toInstant_iff.mpr hnow
  obtain ⟨c, hc⟩ := DateTime.exists_toInstant_iff.mpr hcreated
  obtain ⟨limit, hlimit⟩ := exists_oldBefore hb h
  have hbefore : c < limit ↔ created.shownUtcMicros + days * (86400 * microsPerSecond : Nat) <
      now.shownUtcMicros := by
    have hmicros := (oldBefore_eq_ok_iff hb).mp hlimit
    rw [DateTime.daysBefore] at hmicros
    have hcmicros := DateTime.toInstant_eq_ok_iff.mp hc
    rw [← DateTime.shownUtcMicros_eq] at hcmicros
    show c.micros < limit.micros ↔ _
    omega
  rw [chooseSortMode_of_plain hb hpinned hbio hc, hlimit]
  simp only [Except.map, hbefore]

theorem chooseSortMode_of_no_cutOff (hnow : now.OnCalendar) (hcreated : created.OnCalendar)
    (hpinned : ¬ pinned.isPresent) (hbio : ¬ bio.isPresent)
    (h : ¬ HasMicros (now.daysBefore days)) :
    chooseSortMode pinned bio (.dateTime created) now (.int days) = .error .offCalendar := by
  obtain ⟨b, hb⟩ := DateTime.exists_toInstant_iff.mpr hnow
  obtain ⟨c, hc⟩ := DateTime.exists_toInstant_iff.mpr hcreated
  rw [chooseSortMode_of_plain hb hpinned hbio hc, oldBefore_of_not_hasMicros hb h]
  rfl

/-- Only the age of an item has its comments come by score. -/
theorem chooseSortMode_eq_top_iff (hnow : now.OnCalendar) (hcreated : created.OnCalendar) :
    chooseSortMode pinned bio (.dateTime created) now (.int days) = .ok .top ↔
      ¬ pinned.isPresent ∧ ¬ bio.isPresent ∧ HasMicros (now.daysBefore days) ∧
        created.shownUtcMicros < now.daysBefore days := by
  by_cases hpinned : pinned.isPresent
  · rw [chooseSortMode_of_pinned hpinned]
    simp [hpinned]
  by_cases hbio : bio.isPresent
  · rw [chooseSortMode_of_bio hnow hpinned hbio]
    simp [hbio]
  by_cases hcut : HasMicros (now.daysBefore days)
  · have hbefore : created.shownUtcMicros + days * (86400 * microsPerSecond : Nat) <
        now.shownUtcMicros ↔ created.shownUtcMicros < now.daysBefore days := by
      rw [DateTime.daysBefore]
      omega
    rw [chooseSortMode_of_cutOff hnow hcreated hpinned hbio hcut]
    simp only [hbefore]
    by_cases hold : created.shownUtcMicros < now.daysBefore days <;> simp [*]
  · rw [chooseSortMode_of_no_cutOff hnow hcreated hpinned hbio hcut]
    simp [hcut]

/-- Readings of the same instants give the same order, whatever their offsets. -/
theorem chooseSortMode_congr (hnow : now.OnCalendar) (hcreated : created.OnCalendar)
    {sameNow sameCreated : DateTime} (hsameNow : sameNow.utcMicros = now.utcMicros)
    (hsameCreated : sameCreated.utcMicros = created.utcMicros) (pinned bio days : Value) :
    chooseSortMode pinned bio (.dateTime sameCreated) sameNow days =
      chooseSortMode pinned bio (.dateTime created) now days := by
  have hsame : ∀ {t same : DateTime}, t.OnCalendar → same.utcMicros = t.utcMicros →
      same.toInstant = t.toInstant := by
    intro t same ht hmicros
    obtain ⟨i, hi⟩ := DateTime.exists_toInstant_iff.mpr ht
    rw [hi, DateTime.toInstant_eq_ok_iff, hmicros]
    exact DateTime.toInstant_eq_ok_iff.mp hi
  simp only [chooseSortMode, Value.toInstant, hsame hnow hsameNow, hsame hcreated hsameCreated]

/-- The cut-off moves on with the clock and with fewer days. -/
theorem daysBefore_le {later : DateTime} {fewer : Int} (hlater : now.utcMicros ≤ later.utcMicros)
    (hfewer : fewer ≤ days) : now.daysBefore days ≤ later.daysBefore fewer := by
  have hlength := Int.mul_le_mul_of_nonneg_right hfewer
    (Int.natCast_nonneg (86400 * microsPerSecond))
  rw [DateTime.daysBefore, DateTime.daysBefore, DateTime.shownUtcMicros_eq,
    DateTime.shownUtcMicros_eq]
  omega

end SortMode

/-- **Comments are ordered by the exact age of their item, and items only grow older.** Comments
of a pinned item, and no others, come newest first, and those of a profile that is not pinned come
by activity. For any other item the cut-off has to lie on the calendar: the comments then come by
score exactly if the item and the days after which it is old end strictly before the current time,
and by activity otherwise. Once they come by score, they do so at every later time and with every
smaller number of days for which there is a cut-off. Only the instants count, and not the offsets
with which they are written. -/
theorem chooseSortMode_by_age {now created : DateTime} (hnow : now.OnCalendar)
    (hcreated : created.OnCalendar) (pinned bio : Value) (days : Int) :
    let mode := chooseSortMode pinned bio (.dateTime created)
    (mode now (.int days) = .ok .recent ↔ pinned.isPresent) ∧
    (¬ pinned.isPresent → bio.isPresent → mode now (.int days) = .ok .hot) ∧
    (¬ pinned.isPresent → ¬ bio.isPresent → HasMicros (now.daysBefore days) →
      mode now (.int days) =
        .ok (if created.shownUtcMicros + days * (86400 * microsPerSecond : Nat) <
          now.shownUtcMicros then .top else .hot)) ∧
    (¬ pinned.isPresent → ¬ bio.isPresent → ¬ HasMicros (now.daysBefore days) →
      mode now (.int days) = .error .offCalendar) ∧
    (mode now (.int days) = .ok .top → ∀ (later : DateTime) (fewer : Int), later.OnCalendar →
      now.utcMicros ≤ later.utcMicros → fewer ≤ days → HasMicros (later.daysBefore fewer) →
        mode later (.int fewer) = .ok .top) ∧
    ∀ sameNow sameCreated : DateTime, sameNow.utcMicros = now.utcMicros →
      sameCreated.utcMicros = created.utcMicros →
        chooseSortMode pinned bio (.dateTime sameCreated) sameNow (.int days) =
          mode now (.int days) := by
  refine ⟨⟨fun h => ?_, fun h => chooseSortMode_of_pinned h ..⟩,
    fun hpinned hbio => chooseSortMode_of_bio hnow hpinned hbio ..,
    fun hpinned hbio => chooseSortMode_of_cutOff hnow hcreated hpinned hbio,
    fun hpinned hbio => chooseSortMode_of_no_cutOff hnow hcreated hpinned hbio, ?_,
    fun sameNow sameCreated hsameNow hsameCreated =>
      chooseSortMode_congr hnow hcreated hsameNow hsameCreated ..⟩
  · -- An item that is not pinned is in one of the other cases, and none gives this order.
    by_contra hpinned
    by_cases hbio : bio.isPresent
    · cases (chooseSortMode_of_bio hnow hpinned hbio ..).symm.trans h
    by_cases hcut : HasMicros (now.daysBefore days)
    · rw [chooseSortMode_of_cutOff hnow hcreated hpinned hbio hcut] at h
      split at h <;> cases h
    · cases (chooseSortMode_of_no_cutOff hnow hcreated hpinned hbio hcut).symm.trans h
  · intro htop later fewer hlater hafter hfewer hcut
    obtain ⟨hpinned, hbio, -, hold⟩ := (chooseSortMode_eq_top_iff hnow hcreated).mp htop
    exact (chooseSortMode_eq_top_iff hlater hcreated).mpr
      ⟨hpinned, hbio, hcut, lt_of_lt_of_le hold (daysBefore_le hafter hfewer)⟩

/-- A minute before the end of a year, on a clock that does not say where it is. -/
def yearEnd : DateTime := ⟨⟨63839664000000000 - microsPerMinute, by decide⟩, none⟩

/-- On the first of March the comments of an item from the end of the year before come by score,
with any number of days below sixty. -/
theorem chooseSortMode_by_age_march :
    marchHour.OnCalendar ∧ yearEnd.OnCalendar ∧
      ∀ days < 60, HasMicros (marchHour.daysBefore days) →
        chooseSortMode (.bool false) (.bool false) (.dateTime yearEnd) marchHour (.int days) =
          .ok .top := by
  have hmarch : marchHour.OnCalendar := ⟨by decide, by decide⟩
  have hyear : yearEnd.OnCalendar := ⟨by decide, by decide⟩
  have hpresent : ¬ (Value.bool false).isPresent := by decide
  obtain ⟨-, -, hdecided, -, hages, -⟩ :=
    chooseSortMode_by_age hmarch hyear (.bool false) (.bool false) 59
  have hcut : HasMicros (marchHour.daysBefore 59) := ⟨by decide +kernel, by decide +kernel⟩
  have htop := hdecided hpresent hpresent hcut
  rw [if_pos (by decide +kernel)] at htop
  exact ⟨hmarch, hyear, fun days hdays => hages htop marchHour days hmarch le_rfl (by omega)⟩

end Deferral
