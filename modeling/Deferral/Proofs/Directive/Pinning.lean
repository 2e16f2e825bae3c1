/-
# Deferral.Proofs.Directive.Pinning -- a resolved publication stays resolved

The first resolution of a text that finds a publication decides it. From then on the
text holds a timestamp, and whenever the text is read again this timestamp is the first
that is found. No phrase before it can have become complete by the change, because no
phrase reaches beyond an `@`, and the timestamp itself is read back whatever follows.
-/

import Deferral.Proofs.Directive.Locality
import Deferral.Proofs.Directive.Mentions
import Deferral.Proofs.Directive.Timestamp
import Deferral.Proofs.Failure.Chain

namespace Deferral

variable {α : Type} {token : List Char} {read : List Char → Option (α × List Char)}

/-! ## Tokens -/

/-- A text that begins with a token begins with `@`. -/
theorem eq_cons_of_startsWithWord {word text : List Char}
    (h : startsWithWord ('@' :: word) text = true) : ∃ rest, text = '@' :: rest := by
  cases text with
  | nil => cases h
  | cons c rest =>
      rw [startsWithWord, dropWord?] at h
      split at h
      · next hc => exact ⟨rest, by rw [eq_of_lowerToAscii hc (by decide)]⟩
      · cases h

/-! ## The first phrase -/

/-- A phrase that is put in the place of a mention is the first one, when there was none. -/
theorem findSome?_mentionsFrom_splice {word : List Char} (htoken : '@' ∉ word)
    (hread : ∀ c t u a b, MeetAt t u a b → read (c :: a) = none → read (c :: b) = none)
    {before : Option Char} {index : Nat} {start t u rest : List Char} {value : α}
    (hnone : (mentionsFrom ('@' :: word) before index (start ++ '@' :: t)).findSome?
      (matchAt read) = none)
    (hboundary : isBoundary (charBefore before start) = true)
    (hword : startsWithWord ('@' :: word) ('@' :: u) = true)
    (hvalue : read ('@' :: u) = some (value, rest)) :
    ∃ stop, (mentionsFrom ('@' :: word) before index (start ++ '@' :: u)).findSome?
      (matchAt read) = some (.found value (index + start.length) stop) := by
  induction start generalizing before index with
  | nil =>
      have hhere : (isBoundary before && startsWithWord ('@' :: word) ('@' :: u)) = true :=
        Bool.and_eq_true_iff.mpr ⟨hboundary, hword⟩
      rw [List.nil_append, mentionsFrom, if_pos hhere, List.findSome?_cons, matchAt, hvalue]
      exact ⟨_, rfl⟩
  | cons c start ih =>
      have hlength : index + (c :: start).length = index + 1 + start.length := by
        rw [List.length_cons]
        omega
      obtain ⟨t', u', hmeet⟩ := MeetAt.of_append start t u
      have hsame : startsWithWord ('@' :: word) (c :: (start ++ '@' :: t)) =
          startsWithWord ('@' :: word) (c :: (start ++ '@' :: u)) := by
        exact isSome_eq_of_rel (dropToken?_rel htoken c hmeet)
      rw [List.cons_append, mentionsFrom, hsame] at hnone
      rw [List.cons_append, mentionsFrom, hlength]
      split at hnone
      · next hhere =>
          rw [List.findSome?_cons] at hnone
          split at hnone
          · cases hnone
          · next hfails =>
              have hfails' : read (c :: (start ++ '@' :: u)) = none :=
                hread c t' u' _ _ hmeet (Option.map_eq_none_iff.mp hfails)
              rw [if_pos hhere, List.findSome?_cons, matchAt, hfails']
              exact ih hnone hboundary
      · next hhere =>
          rw [if_neg hhere]
          exact ih hnone hboundary

/-! ## Pinned publications -/

theorem scheduleToken_eq_cons : scheduleToken = '@' :: "schedule".toList := by decide

theorem scheduleWord_at : '@' ∉ "schedule".toList := by decide

theorem publicationPhrase_eq_cons (i : Instant) : ∃ w, publicationPhrase i = '@' :: w := by
  rw [publicationPhrase, scheduleToken_eq_cons, List.cons_append, List.cons_append]
  exact ⟨_, rfl⟩

theorem startsWithWord_publicationPhrase (i : Instant) (rest : List Char) :
    startsWithWord scheduleToken (publicationPhrase i ++ rest) = true := by
  rw [publicationPhrase, List.append_assoc, List.append_assoc, startsWithWord,
    dropWord?_append lowerToAscii_of_mem_scheduleToken, Option.isSome_some]

/-- A text without a timestamp has none at any mention. -/
theorem findSome?_of_not_found {text : List Char}
    (h : ∀ moment a b, matchScheduleMoment text ≠ .found moment a b) :
    (mentions scheduleToken text).findSome? (matchAt readPublication?) = none := by
  rcases firstMatch_cases scheduleToken readPublication? momentForm text with
    ⟨moment, a, b, hfound, -⟩ | ⟨-, hsearch⟩
  · exact absurd hfound (h moment a b)
  · exact hsearch

/-- A delay is found at a mention. -/
theorem mem_mentions_of_found {text : List Char} {delay : Delay} {start stop : Nat}
    (h : matchScheduleDelay text = .found delay start stop) :
    ∃ place ∈ mentions scheduleToken text, place.1 = start := by
  rcases firstMatch_cases scheduleToken (readDelay? scheduleToken) delayForm text with
    ⟨_, _, _, hfound, hsome⟩ | ⟨hnot, -⟩
  · obtain ⟨place, hmem, hat⟩ := List.exists_of_findSome?_eq_some hsome
    obtain ⟨phrase, -, heq⟩ := Option.map_eq_some_iff.mp hat
    rw [matchScheduleDelay, hfound] at h
    cases h
    cases heq
    exact ⟨place, hmem, rfl⟩
  · exact absurd h (hnot delay start stop)

/-- In a text whose delay was replaced by a timestamp, the timestamp is what is found. -/
theorem matchScheduleMoment_splice {text : List Char} {delay : Delay} {start stop : Nat}
    (hnone : ∀ moment a b, matchScheduleMoment text ≠ .found moment a b)
    (hdelay : matchScheduleDelay text = .found delay start stop) (i : Instant) :
    ∃ stop', matchScheduleMoment (splice text start stop (publicationPhrase i)) =
      .found ⟨i.isoMillis, i.truncateToMillis⟩ start stop' := by
  have hsearch := findSome?_of_not_found hnone
  obtain ⟨⟨n, x⟩, hmem, rfl⟩ := mem_mentions_of_found hdelay
  obtain ⟨p, htext, hn, hboundary, hword⟩ := (mem_mentionsFrom_iff (by decide)).mp hmem
  rw [scheduleToken_eq_cons] at hword
  obtain ⟨t, rfl⟩ := eq_cons_of_startsWithWord hword
  dsimp only at htext hn
  rw [Nat.zero_add] at hn
  subst hn
  -- The phrase and the text after it make up what stands at the place now.
  obtain ⟨w, hw⟩ := publicationPhrase_eq_cons i
  have hu : '@' :: (w ++ text.drop stop) = publicationPhrase i ++ text.drop stop := by
    rw [hw, List.cons_append]
  have hsplice : splice text p.length stop (publicationPhrase i) =
      p ++ '@' :: (w ++ text.drop stop) := by
    rw [hu, splice]
    conv =>
      lhs
      rw [htext]
    rw [List.take_left, List.append_assoc, ← htext]
  have hvalue : readPublication? ('@' :: (w ++ text.drop stop)) =
      some (⟨i.isoMillis, i.truncateToMillis⟩, text.drop stop) := by
    rw [hu, readPublication?_publicationPhrase]
  have htoken : startsWithWord scheduleToken ('@' :: (w ++ text.drop stop)) = true := by
    rw [hu, startsWithWord_publicationPhrase]
  rw [mentions, htext] at hsearch
  rw [scheduleToken_eq_cons] at hsearch htoken
  obtain ⟨stop', hfound⟩ := findSome?_mentionsFrom_splice scheduleWord_at
    (fun c _ _ _ _ hmeet h => (none_iff_of_rel (readPublication?_rel c hmeet)).mp h)
    hsearch hboundary htoken hvalue
  rw [Nat.zero_add] at hfound
  refine ⟨stop', firstMatch_eq_of_findSome? ?_⟩
  rw [hsplice, scheduleToken_eq_cons]
  exact hfound

/-- A text at a timestamp asks for this timestamp at any time, also on a clock whose own
reading lies off the calendar. -/
theorem resolveSchedule_of_moment {text : List Char} {moment : Moment} {start stop : Nat}
    (h : matchScheduleMoment text = .found moment start stop) (now : DateTime) :
    resolveSchedule (some text) now = .ok ⟨some text, some moment.instant⟩ := by
  rw [resolveSchedule, h]

/-- A resolution that finds nothing leaves the text as it is. -/
theorem resolveSchedule_unfound {text : Option (List Char)} {now : DateTime} {r : Resolution}
    (h : resolveSchedule text now = .ok r) (hr : r.timestamp = none) : r = ⟨text, none⟩ := by
  cases text with
  | none =>
      cases h
      rfl
  | some text =>
      rw [resolveSchedule] at h
      split at h
      · cases h
        cases hr
      · rw [pinDelay] at h
        split at h
        · obtain ⟨i, -, h⟩ := bind_eq_ok h
          split at h
          · cases h
            rfl
          · cases h
            cases hr
        · cases h
          rfl

/-- What was found once is found again, at any time. -/
theorem resolveSchedule_found {text : Option (List Char)} {now : DateTime} {r : Resolution}
    {t : Instant} (h : resolveSchedule text now = .ok r) (hr : r.timestamp = some t)
    (later : DateTime) : resolveSchedule r.text later = .ok r := by
  cases text with
  | none =>
      cases h
      cases hr
  | some text =>
      rw [resolveSchedule] at h
      split at h
      · next hmoment =>
          cases h
          exact resolveSchedule_of_moment hmoment later
      · next hnone =>
          rw [pinDelay] at h
          split at h
          · next hdelay =>
              obtain ⟨i, -, h⟩ := bind_eq_ok h
              split at h
              · cases h
                cases hr
              · next due hdue =>
                  cases h
                  obtain ⟨stop', hfound⟩ :=
                    matchScheduleMoment_splice hnone hdelay due.truncateToMillis
                  rw [Instant.truncateToMillis_truncateToMillis] at hfound
                  exact resolveSchedule_of_moment hfound later
          · cases h
            cases hr

/-! ## Whole runs -/

/-- Where every resolution gives the same, all entries are the same. -/
theorem resolveScheduleAgain_of_fixed {r : Resolution}
    (h : ∀ now, resolveSchedule r.text now = .ok r) (nows : List DateTime) :
    resolveScheduleAgain r.text nows = List.replicate nows.length (.ok r) := by
  induction nows with
  | nil => rfl
  | cons now later ih =>
      rw [resolveScheduleAgain, h now, List.length_cons, List.replicate_succ]
      exact congrArg _ ih

theorem length_resolveScheduleAgain (text : Option (List Char)) (nows : List DateTime) :
    (resolveScheduleAgain text nows).length = nows.length := by
  induction nows generalizing text with
  | nil => rfl
  | cons now later ih =>
      rw [resolveScheduleAgain]
      split <;> rw [List.length_cons, List.length_cons, ih]

/-- An entry finds a timestamp, or the run goes on with the text as it was. -/
theorem resolveScheduleAgain_cons (text : Option (List Char)) (now : DateTime)
    (later : List DateTime) :
    (∃ r t, resolveSchedule text now = .ok r ∧ r.timestamp = some t) ∨
    (resolveScheduleAgain text (now :: later) =
        resolveSchedule text now :: resolveScheduleAgain text later ∧
      (resolveSchedule text now = .ok ⟨text, none⟩ ∨
        ∃ failure, resolveSchedule text now = .error failure)) := by
  rw [resolveScheduleAgain]
  cases h : resolveSchedule text now with
  | error failure => exact Or.inr ⟨rfl, Or.inr ⟨failure, rfl⟩⟩
  | ok r =>
      cases hr : r.timestamp with
      | some t => exact Or.inl ⟨r, t, rfl, hr⟩
      | none =>
          obtain rfl := resolveSchedule_unfound h hr
          exact Or.inr ⟨rfl, Or.inl rfl⟩

/-- The entries of a run before `first` fail or give the text back, and from `first` on they
are all the same success. Up to `first` it is the original text that is resolved. -/
structure DividesAt (text : Option (List Char)) (nows : List DateTime) (first : Nat) : Prop where
  le : first ≤ nows.length
  resolved : ∀ i ≤ first,
    (resolveScheduleAgain text nows)[i]? = nows[i]?.map (resolveSchedule text)
  unfound : ∀ i < first, (resolveScheduleAgain text nows)[i]? = some (.ok ⟨text, none⟩) ∨
    ∃ failure, (resolveScheduleAgain text nows)[i]? = some (.error failure)
  pinned : first < nows.length → ∃ r t, r.timestamp = some t ∧
    ∀ i, first ≤ i → i < nows.length → (resolveScheduleAgain text nows)[i]? = some (.ok r)

theorem dividesAt_nil (text : Option (List Char)) : DividesAt text [] 0 where
  le := Nat.le_refl 0
  resolved := fun i _ => rfl
  unfound := by
    intro i hi
    exact absurd hi (Nat.not_lt_zero i)
  pinned := by
    intro h
    exact absurd h (Nat.lt_irrefl 0)

/-- A first entry that finds a timestamp decides, and all others repeat it. -/
theorem dividesAt_zero {text : Option (List Char)} {now : DateTime} {later : List DateTime}
    {r : Resolution} {t : Instant} (h : resolveSchedule text now = .ok r)
    (hr : r.timestamp = some t) : DividesAt text (now :: later) 0 := by
  have hrun : resolveScheduleAgain text (now :: later) =
      List.replicate (now :: later).length (.ok r) := by
    rw [resolveScheduleAgain, h, List.length_cons, List.replicate_succ]
    exact congrArg _ (resolveScheduleAgain_of_fixed (resolveSchedule_found h hr) later)
  refine ⟨Nat.zero_le _, ?_, ?_, fun _ => ⟨r, t, hr, ?_⟩⟩
  · intro i hi
    obtain rfl := Nat.le_zero.mp hi
    rw [hrun, List.getElem?_cons_zero, Option.map_some, h]
    rfl
  · intro i hi
    exact absurd hi (Nat.not_lt_zero i)
  · intro i _ hi
    rw [hrun, List.getElem?_replicate_of_lt hi]

/-- Before a first entry that finds no timestamp the run goes on with the same text. -/
theorem DividesAt.cons {text : Option (List Char)} {now : DateTime} {later : List DateTime}
    {first : Nat} (h : DividesAt text later first)
    (hrun : resolveScheduleAgain text (now :: later) =
      resolveSchedule text now :: resolveScheduleAgain text later)
    (hentry : resolveSchedule text now = .ok ⟨text, none⟩ ∨
      ∃ failure, resolveSchedule text now = .error failure) :
    DividesAt text (now :: later) (first + 1) := by
  refine ⟨Nat.succ_le_succ h.le, ?_, ?_, ?_⟩
  · intro i hi
    cases i with
    | zero => rw [hrun, List.getElem?_cons_zero, List.getElem?_cons_zero, Option.map_some]
    | succ i =>
        rw [hrun, List.getElem?_cons_succ, List.getElem?_cons_succ]
        exact h.resolved i (Nat.le_of_succ_le_succ hi)
  · intro i hi
    cases i with
    | zero =>
        rw [hrun, List.getElem?_cons_zero]
        rcases hentry with hsame | ⟨failure, hfails⟩
        · exact Or.inl (congrArg some hsame)
        · exact Or.inr ⟨failure, congrArg some hfails⟩
    | succ i =>
        rw [hrun, List.getElem?_cons_succ]
        exact h.unfound i (Nat.lt_of_succ_lt_succ hi)
  · intro hlt
    obtain ⟨r, t, hr, hall⟩ := h.pinned (Nat.lt_of_succ_lt_succ hlt)
    refine ⟨r, t, hr, fun i hfrom hto => ?_⟩
    cases i with
    | zero => exact absurd hfrom (Nat.not_succ_le_zero first)
    | succ i =>
        rw [hrun, List.getElem?_cons_succ]
        exact hall i (Nat.le_of_succ_le_succ hfrom) (Nat.lt_of_succ_lt_succ hto)

/-- Every run divides somewhere, at its end if no entry finds a timestamp. -/
theorem exists_dividesAt (text : Option (List Char)) (nows : List DateTime) :
    ∃ first, DividesAt text nows first := by
  induction nows with
  | nil => exact ⟨0, dividesAt_nil text⟩
  | cons now later ih =>
      rcases resolveScheduleAgain_cons text now later with ⟨r, t, h, hr⟩ | ⟨hrun, hentry⟩
      · exact ⟨0, dividesAt_zero h hr⟩
      · obtain ⟨first, hdivides⟩ := ih
        exact ⟨first + 1, hdivides.cons hrun hentry⟩

/-- A run over any instants divides at the first entry that finds a timestamp, if there is
one. Up to it the original text is resolved, and the entries before it fail or give this
text back. From it on every entry is a success and the same one. -/
theorem resolveScheduleAgain_pinned (text : Option (List Char)) (nows : List DateTime) :
    (resolveScheduleAgain text nows).length = nows.length ∧
    ∃ first ≤ nows.length,
      (∀ i ≤ first, (resolveScheduleAgain text nows)[i]? = nows[i]?.map (resolveSchedule text)) ∧
      (∀ i < first, (resolveScheduleAgain text nows)[i]? = some (.ok ⟨text, none⟩) ∨
        ∃ failure, (resolveScheduleAgain text nows)[i]? = some (.error failure)) ∧
      (first < nows.length → ∃ r t, r.timestamp = some t ∧ ∀ i, first ≤ i → i < nows.length →
        (resolveScheduleAgain text nows)[i]? = some (.ok r)) := by
  obtain ⟨first, hdivides⟩ := exists_dividesAt text nows
  exact ⟨length_resolveScheduleAgain text nows, first, hdivides.le, hdivides.resolved,
    hdivides.unfound, hdivides.pinned⟩

/-- A text that asks for a publication in three hours. -/
def threeHoursText : Option (List Char) := some "post @schedule in 3 hours".toList

/-- What it is resolved to at the first midnight. -/
def threeHoursResolution : Resolution where
  text := some "post @schedule on 0001-01-01T03:00:00.000Z".toList
  timestamp := some ⟨3 * microsPerHour, by decide⟩

/-- The first midnight, that of a week later, and the first one again. -/
def threeMidnights : List DateTime :=
  [.utc .first, .utc ⟨7 * microsPerDay, by decide⟩, .utc .first]

/-- What is found at first is found each time. -/
theorem resolveScheduleAgain_pinned_threeHours : ∀ i < 3,
    (resolveScheduleAgain threeHoursText threeMidnights)[i]? =
      some (.ok threeHoursResolution) := by
  obtain ⟨-, first, -, hresolved, hunfound, hpinned⟩ :=
    resolveScheduleAgain_pinned threeHoursText threeMidnights
  have hmidnight : resolveSchedule threeHoursText (.utc .first) =
      .ok threeHoursResolution := by decide +kernel
  have hentry : (resolveScheduleAgain threeHoursText threeMidnights)[0]? =
      some (.ok threeHoursResolution) :=
    (hresolved 0 (Nat.zero_le first)).trans (congrArg some hmidnight)
  -- The first entry finds a timestamp, so the run divides there.
  have hfirst : first = 0 := by
    by_contra hne
    rcases hunfound 0 (Nat.pos_of_ne_zero hne) with hsame | ⟨failure, hfails⟩
    · have hr := Except.ok.inj (Option.some.inj (hentry.symm.trans hsame))
      exact Option.some_ne_none _ (congrArg Resolution.timestamp hr)
    · exact nomatch Option.some.inj (hentry.symm.trans hfails)
  subst hfirst
  obtain ⟨r, t, -, hall⟩ := hpinned (by decide)
  have hfound := hentry.symm.trans (hall 0 (Nat.le_refl 0) (by decide))
  rw [Except.ok.inj (Option.some.inj hfound)]
  exact fun i hi => hall i (Nat.zero_le i) hi

end Deferral
