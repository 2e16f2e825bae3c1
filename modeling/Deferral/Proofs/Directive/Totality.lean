/-
# Deferral.Proofs.Directive.Totality -- resolving a text always gives something

Whatever a text says, resolving it fails for one reason only: a delay has to be counted from a
clock whose own reading lies off the calendar. A delay that leads off the calendar itself, also
one with a number of any length, asks for nothing. `resolveDelete_cases` and
`resolveSchedule_cases` say what a resolution can be, and everything else follows from them.
-/

import Deferral.Directive.Resolve
import Deferral.Proofs.Calendar.Shifts

namespace Deferral

/-! ## What is found in a text -/

/-- A search finds a delay in a text. -/
def FindsDelay (search : List Char → Match Delay) (text : Option (List Char))
    (delay : Delay) : Prop :=
  ∃ chars start stop, text = some chars ∧ search chars = .found delay start stop

/-- A publication at a timestamp is found in a text. -/
def FindsMoment (text : Option (List Char)) (moment : Moment) : Prop :=
  ∃ chars start stop, text = some chars ∧ matchScheduleMoment chars = .found moment start stop

/-- The instant after a delay lies on the calendar. -/
def Delay.Stays (delay : Delay) (now : Instant) : Prop :=
  now.ShiftStays delay.unit delay.number

theorem Delay.exists_after?_iff {delay : Delay} {now : Instant} :
    (∃ due, delay.after? now = some due) ↔ delay.Stays now := by
  rw [Stays, ← Instant.exists_add_iff, after?]
  cases now.add delay.unit delay.number with
  | error failure => simp only [Except.toOption, reduceCtorEq, exists_false]
  | ok due => simp only [Except.toOption, Option.some.injEq, Except.ok.injEq]

variable {text : Option (List Char)} {now : DateTime}

/-! ## What a resolution can be -/

/-- A deletion is resolved by the clock if a delay is found, and without it otherwise. -/
theorem resolveDelete_cases (text : Option (List Char)) (now : DateTime) :
    (∃ delay, FindsDelay matchDelete text delay ∧
      resolveDelete text now = now.toInstant.map fun i => ⟨text, delay.after? i⟩) ∨
    (∀ delay, ¬ FindsDelay matchDelete text delay) ∧
      resolveDelete text now = .ok ⟨text, none⟩ := by
  rw [resolveDelete]
  split
  · next delay start stop hfound =>
      obtain ⟨chars, rfl, hmatch⟩ := Option.map_eq_some_iff.mp hfound
      refine Or.inl ⟨delay, ⟨chars, start, stop, rfl, hmatch⟩, ?_⟩
      cases now.toInstant <;> rfl
  · next hnot =>
      refine Or.inr ⟨?_, rfl⟩
      rintro delay ⟨chars, start, stop, rfl, hmatch⟩
      exact hnot delay start stop (congrArg some hmatch)

/-- The resolution of a delay that stands from `start` to `stop`, counted from an instant. -/
def pinnedAt (chars : List Char) (delay : Delay) (start stop : Nat) (i : Instant) : Resolution :=
  match delay.after? i with
  | none => ⟨some chars, none⟩
  | some due => ⟨some (splice chars start stop (publicationPhrase due.truncateToMillis)),
      some due.truncateToMillis⟩

/-- Nothing changes where there is no instant. -/
theorem pinnedAt_unfound {chars : List Char} {delay : Delay} {start stop : Nat} {i : Instant}
    (h : (pinnedAt chars delay start stop i).timestamp = none) :
    pinnedAt chars delay start stop i = ⟨some chars, none⟩ := by
  unfold pinnedAt at h ⊢
  cases hdue : delay.after? i with
  | none => rfl
  | some due =>
      rw [hdue] at h
      cases h

theorem pinDelay_of_found {chars : List Char} {delay : Delay} {start stop : Nat}
    (h : matchScheduleDelay chars = .found delay start stop) (now : DateTime) :
    pinDelay chars now = now.toInstant.map (pinnedAt chars delay start stop) := by
  simp only [pinDelay, h]
  cases now.toInstant with
  | error failure => rfl
  | ok i =>
      rw [ok_bind]
      simp only [Except.map, pinnedAt]
      cases delay.after? i <;> rfl

/-- A timestamp decides a publication without the clock. Where there is none, a delay is
counted from the clock, and where there is no delay either nothing is asked for. -/
theorem resolveSchedule_cases (text : Option (List Char)) (now : DateTime) :
    (∃ moment, FindsMoment text moment ∧
      resolveSchedule text now = .ok ⟨text, some moment.instant⟩) ∨
    (∀ moment, ¬ FindsMoment text moment) ∧
      ((∃ chars delay start stop, text = some chars ∧
        matchScheduleDelay chars = .found delay start stop ∧
        resolveSchedule text now = now.toInstant.map (pinnedAt chars delay start stop)) ∨
      (∀ delay, ¬ FindsDelay matchScheduleDelay text delay) ∧
        resolveSchedule text now = .ok ⟨text, none⟩) := by
  cases text with
  | none =>
      refine Or.inr ⟨?_, Or.inr ⟨?_, rfl⟩⟩
      · rintro moment ⟨chars, start, stop, h, -⟩
        cases h
      · rintro delay ⟨chars, start, stop, h, -⟩
        cases h
  | some chars =>
      rw [resolveSchedule]
      split
      · next moment start stop hmatch =>
          exact Or.inl ⟨moment, ⟨chars, start, stop, rfl, hmatch⟩, rfl⟩
      · next hnot =>
          refine Or.inr ⟨?_, ?_⟩
          · rintro moment ⟨chars', start, stop, heq, hmatch⟩
            cases heq
            exact hnot moment start stop hmatch
          · cases hmatch : matchScheduleDelay chars with
            | found delay start stop =>
                exact Or.inl ⟨chars, delay, start, stop, rfl, hmatch, pinDelay_of_found hmatch now⟩
            | absent | malformed =>
                refine Or.inr ⟨?_, by simp only [pinDelay, hmatch]⟩
                rintro delay ⟨chars', start, stop, heq, hfound⟩
                cases heq
                cases hmatch.symm.trans hfound

/-! ## On a clock that reads an instant, and on any other -/

/-- What has to wait for the clock is there if the clock has an instant, and else fails. -/
theorem map_toInstant_of_onCalendar {α : Type} (h : now.OnCalendar) (f : Instant → α) :
    ∃ i, now.toInstant = .ok i ∧ now.toInstant.map f = .ok (f i) := by
  obtain ⟨i, hi⟩ := DateTime.exists_toInstant_iff.mpr h
  refine ⟨i, hi, ?_⟩
  rw [hi]
  rfl

theorem map_toInstant_of_not_onCalendar {α : Type} (h : ¬ now.OnCalendar) (f : Instant → α) :
    now.toInstant.map f = .error .offCalendar := by
  rw [DateTime.toInstant_of_not_onCalendar h]
  rfl

/-- The years of all instants are those of the calendar. -/
theorem Instant.year_mem (i : Instant) : 1 ≤ i.date.year ∧ i.date.year ≤ 9999 :=
  ⟨i.date.one_le_year, i.date.year_le⟩

/-- The text of a resolution of a deletion is the one that was given. -/
theorem text_of_resolveDelete {r : Resolution} (h : resolveDelete text now = .ok r) :
    r.text = text := by
  rcases resolveDelete_cases text now with ⟨delay, -, hdelay⟩ | ⟨-, hnone⟩
  · rw [hdelay] at h
    obtain ⟨i, -, rfl⟩ := map_eq_ok h
    rfl
  · rw [hnone] at h
    cases h
    rfl

/-- The text of a resolution of a publication differs only if there is a timestamp. -/
theorem timestamp_of_resolveSchedule {r : Resolution} (h : resolveSchedule text now = .ok r)
    (hr : r.text ≠ text) : ∃ t, r.timestamp = some t := by
  rcases resolveSchedule_cases text now with
    ⟨moment, -, hmoment⟩ | ⟨-, ⟨chars, delay, start, stop, rfl, -, hdelay⟩ | ⟨-, hnone⟩⟩
  · rw [hmoment] at h
    cases h
    exact absurd rfl hr
  · rw [hdelay] at h
    obtain ⟨i, -, rfl⟩ := map_eq_ok h
    cases htimestamp : (pinnedAt chars delay start stop i).timestamp with
    | some t => exact ⟨t, rfl⟩
    | none =>
        rw [pinnedAt_unfound htimestamp] at hr
        exact absurd rfl hr
  · rw [hnone] at h
    cases h
    exact absurd rfl hr

/-- What resolving a text gives on a clock that reads an instant. -/
structure Resolves (text : Option (List Char)) (now : DateTime) : Prop where
  delete : ∃ r, resolveDelete text now = .ok r
  schedule : ∃ r, resolveSchedule text now = .ok r
  command : ∃ b, hasDeleteCommand text now = .ok b ∧ (b = true ↔
    ∃ delay i, FindsDelay matchDelete text delay ∧ now.toInstant = .ok i ∧ delay.Stays i)

/-- What resolving a text gives on a clock whose reading lies off the calendar. -/
structure Overflows (text : Option (List Char)) (now : DateTime) : Prop where
  delete_error : resolveDelete text now = .error .offCalendar ↔
    ∃ delay, FindsDelay matchDelete text delay
  delete_ok : (∃ r, resolveDelete text now = .ok r) ↔
    ¬ ∃ delay, FindsDelay matchDelete text delay
  schedule_error : resolveSchedule text now = .error .offCalendar ↔
    (¬ ∃ moment, FindsMoment text moment) ∧ ∃ delay, FindsDelay matchScheduleDelay text delay
  schedule_ok : (∃ r, resolveSchedule text now = .ok r) ↔
    ¬ ((¬ ∃ moment, FindsMoment text moment) ∧
      ∃ delay, FindsDelay matchScheduleDelay text delay)

theorem resolves_of_onCalendar (text : Option (List Char)) (h : now.OnCalendar) :
    Resolves text now where
  delete := by
    rcases resolveDelete_cases text now with ⟨delay, -, hdelay⟩ | ⟨-, hnone⟩
    · obtain ⟨i, -, hi⟩ := map_toInstant_of_onCalendar h fun i =>
        (⟨text, delay.after? i⟩ : Resolution)
      exact ⟨_, hdelay.trans hi⟩
    · exact ⟨_, hnone⟩
  schedule := by
    rcases resolveSchedule_cases text now with
      ⟨moment, -, hmoment⟩ | ⟨-, ⟨chars, delay, start, stop, -, -, hdelay⟩ | ⟨-, hnone⟩⟩
    · exact ⟨_, hmoment⟩
    · obtain ⟨i, -, hi⟩ := map_toInstant_of_onCalendar h (pinnedAt chars delay start stop)
      exact ⟨_, hdelay.trans hi⟩
    · exact ⟨_, hnone⟩
  command := by
    rcases resolveDelete_cases text now with ⟨delay, hfound, hdelay⟩ | ⟨hnot, hnone⟩
    · obtain ⟨i, hi, hmap⟩ := map_toInstant_of_onCalendar h fun i =>
        (⟨text, delay.after? i⟩ : Resolution)
      refine ⟨(delay.after? i).isSome, ?_, ?_⟩
      · rw [hasDeleteCommand, hdelay, hmap]
        rfl
      · rw [Option.isSome_iff_exists, Delay.exists_after?_iff]
        constructor
        · intro hstays
          exact ⟨delay, i, hfound, hi, hstays⟩
        · rintro ⟨delay', i', ⟨chars, start, stop, rfl, hmatch⟩, hi', hstays⟩
          -- A text has one first delay, and a clock one instant.
          obtain ⟨chars', start', stop', heq, hmatch'⟩ := hfound
          cases heq
          cases hmatch.symm.trans hmatch'
          cases hi.symm.trans hi'
          exact hstays
    · refine ⟨false, ?_, ?_⟩
      · rw [hasDeleteCommand, hnone]
        rfl
      · constructor
        · intro hfalse
          cases hfalse
        · rintro ⟨delay, i, hfound, -⟩
          exact absurd hfound (hnot delay)

theorem overflows_of_not_onCalendar (text : Option (List Char)) (h : ¬ now.OnCalendar) :
    Overflows text now := by
  have hdelete : (resolveDelete text now = .error .offCalendar ∧
        ∃ delay, FindsDelay matchDelete text delay) ∨
      ((∃ r, resolveDelete text now = .ok r) ∧
        ¬ ∃ delay, FindsDelay matchDelete text delay) := by
    rcases resolveDelete_cases text now with ⟨delay, hfound, hdelay⟩ | ⟨hnot, hnone⟩
    · exact Or.inl ⟨hdelay.trans (map_toInstant_of_not_onCalendar h _), delay, hfound⟩
    · exact Or.inr ⟨⟨_, hnone⟩, not_exists.mpr hnot⟩
  have hschedule : (resolveSchedule text now = .error .offCalendar ∧
        (¬ ∃ moment, FindsMoment text moment) ∧
          ∃ delay, FindsDelay matchScheduleDelay text delay) ∨
      ((∃ r, resolveSchedule text now = .ok r) ∧
        ¬ ((¬ ∃ moment, FindsMoment text moment) ∧
          ∃ delay, FindsDelay matchScheduleDelay text delay)) := by
    rcases resolveSchedule_cases text now with
      ⟨moment, hfound, hmoment⟩ |
      ⟨hnot, ⟨chars, delay, start, stop, rfl, hmatch, hdelay⟩ | ⟨hnone, hresult⟩⟩
    · exact Or.inr ⟨⟨_, hmoment⟩, fun hboth => hboth.1 ⟨moment, hfound⟩⟩
    · exact Or.inl ⟨hdelay.trans (map_toInstant_of_not_onCalendar h _), not_exists.mpr hnot, delay,
        chars, start, stop, rfl, hmatch⟩
    · exact Or.inr ⟨⟨_, hresult⟩, fun hboth => not_exists.mpr hnone hboth.2⟩
  have hexclusive : ∀ {x : Except Failure Resolution} {p : Prop},
      (x = .error .offCalendar ∧ p) ∨ ((∃ r, x = .ok r) ∧ ¬ p) →
        (x = .error .offCalendar ↔ p) ∧ ((∃ r, x = .ok r) ↔ ¬ p) := by
    rintro x p (⟨rfl, hp⟩ | ⟨⟨r, rfl⟩, hp⟩)
    · simp [hp]
    · simp [hp]
  obtain ⟨hdeleteError, hdeleteOk⟩ := hexclusive hdelete
  obtain ⟨hscheduleError, hscheduleOk⟩ := hexclusive hschedule
  exact ⟨hdeleteError, hdeleteOk, hscheduleError, hscheduleOk⟩

/-- **Resolving is total.** On a clock that reads an instant, which one without an offset always
does, no text makes a resolution fail, and a text commands a deletion exactly if the delay that
is found in it stays on the calendar. On any other clock a resolution fails exactly if it has to
count a delay. A deletion leaves the text as it is, only a publication with a timestamp changes
it, and all timestamps are instants of the years from 1 to 9999. -/
theorem resolution_total (text : Option (List Char)) (now : DateTime) :
    (now.offset = none → now.OnCalendar) ∧
    (now.OnCalendar → Resolves text now) ∧ (¬ now.OnCalendar → Overflows text now) ∧
    (∀ r, resolveDelete text now = .ok r → r.text = text) ∧
    (∀ r, resolveSchedule text now = .ok r → r.text ≠ text → ∃ t, r.timestamp = some t) ∧
    ∀ r t, resolveDelete text now = .ok r ∨ resolveSchedule text now = .ok r →
      r.timestamp = some t → 1 ≤ t.date.year ∧ t.date.year ≤ 9999 :=
  ⟨DateTime.onCalendar_of_offset_none, resolves_of_onCalendar text,
    overflows_of_not_onCalendar text, fun _ => text_of_resolveDelete,
    fun _ => timestamp_of_resolveSchedule, fun _ t _ _ => t.year_mem⟩

/-- A clock at the beginning of the calendar. -/
def firstMidnight : DateTime := ⟨.first, none⟩

/-- A clock that is an hour ahead of UTC, at the beginning of the calendar. -/
def firstHour : DateTime := ⟨.first, some ⟨microsPerHour, by decide, by decide⟩⟩

theorem matchDelete_threeDays :
    matchDelete "@delete in 3 days".toList = .found ⟨3, .day⟩ 0 17 := by decide +kernel

/-- On this clock no delay can be counted, and on one without its offset every one can. -/
theorem resolution_total_firstHour :
    ¬ firstHour.OnCalendar ∧
    resolveDelete (some "@delete in 3 days".toList) firstHour = .error .offCalendar ∧
    (∃ r, resolveSchedule (some "@delete in 3 days".toList) firstHour = .ok r) ∧
    ∃ b, hasDeleteCommand (some "@delete in 3 days".toList) firstMidnight = .ok b := by
  have hoff : ¬ firstHour.OnCalendar := by
    rintro ⟨hfirst, -⟩
    exact absurd hfirst (by decide)
  have hnaive := resolution_total (some "@delete in 3 days".toList) firstMidnight
  obtain ⟨b, hb, -⟩ := (hnaive.2.1 (hnaive.1 rfl)).command
  have hoverflows := (resolution_total (some "@delete in 3 days".toList) firstHour).2.2.1 hoff
  refine ⟨hoff, hoverflows.delete_error.mpr ?_, hoverflows.schedule_ok.mpr ?_, b, hb⟩
  · exact ⟨_, _, _, _, rfl, matchDelete_threeDays⟩
  · rintro ⟨-, delay, chars, start, stop, heq, hmatch⟩
    have habsent : matchScheduleDelay "@delete in 3 days".toList = .absent := by decide +kernel
    rw [← Option.some.inj heq, habsent] at hmatch
    cases hmatch

end Deferral
