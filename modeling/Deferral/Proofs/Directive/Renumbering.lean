/-
# Deferral.Proofs.Directive.Renumbering -- a longer delay asks for a later instant

When the number of the delay that a text asks for is changed, the text asks for the new number of
the same units. Nothing before the phrase can have become complete by the change, since no phrase
reaches beyond the `@` of the next one (`firstMatch_renew`). A larger number is then a longer
delay. It leads to a later instant, or off the calendar, where the smaller one may lead as well,
but not the smaller one alone.
-/

import Deferral.Proofs.Calendar.Monotonicity
import Deferral.Proofs.Directive.Delays
import Deferral.Proofs.Directive.Pinning

namespace Deferral

variable {α : Type} {read : List Char → Option (α × List Char)} {word : List Char}

/-! ## The first phrase, changed -/

section Renew

variable (hat : '@' ∉ word) (hword : ('@' :: word).all isWordLetter = true)
include hat hword

/-- Texts that agree up to an `@` mention a token at the same places before it. -/
theorem MentionedAt.of_meet {start t u : List Char} {index : Nat} (hindex : index < start.length)
    (h : MentionedAt ('@' :: word) (start ++ '@' :: t) index) :
    MentionedAt ('@' :: word) (start ++ '@' :: u) index where
  boundary := by
    rcases h.boundary with hzero | ⟨c, hc, hboundary⟩
    · exact Or.inl hzero
    · rw [List.getElem?_append_left (by omega)] at hc
      refine Or.inr ⟨c, ?_, hboundary⟩
      rw [List.getElem?_append_left (by omega)]
      exact hc
  spelled := by
    have hspelled := (startsWithWord_iff hword).mpr h.spelled
    apply (startsWithWord_iff hword).mp
    rw [List.drop_append_of_le_length hindex.le] at hspelled ⊢
    rw [List.drop_eq_getElem_cons hindex] at hspelled ⊢
    obtain ⟨t', u', hmeet⟩ := MeetAt.of_append (start.drop (index + 1)) t u
    have hsame := isSome_eq_of_rel (dropToken?_rel hat start[index] hmeet)
    exact hsame.symm.trans hspelled

/-- Where the first phrase of a text stands, another one can be put, and it is the first one
then. -/
theorem firstMatch_renew (hlocal : ∀ c t u a b, MeetAt t u a b →
      read (c :: a) = none → read (c :: b) = none)
    {start tail tail' rest : List Char} {value value' : α} {stop : Nat} {expected : String}
    (hfound : firstMatch ('@' :: word) read expected (start ++ tail) =
      .found value start.length stop)
    (hspelled : startsWithWord ('@' :: word) tail' = true)
    (hread : read tail' = some (value', rest)) :
    firstMatch ('@' :: word) read expected (start ++ tail') =
      .found value' start.length (start.length + (tail'.length - rest.length)) := by
  have hne : '@' :: word ≠ [] := List.cons_ne_nil _ _
  rw [firstMatch_eq_found_iff hne hword] at hfound ⊢
  obtain ⟨hmention, -, hearlier⟩ := hfound
  have htail := hmention.spelled
  rw [List.drop_left, ← startsWithWord_iff hword] at htail
  obtain ⟨t, rfl⟩ := eq_cons_of_startsWithWord htail
  obtain ⟨u, rfl⟩ := eq_cons_of_startsWithWord hspelled
  refine ⟨⟨?_, ?_⟩, ⟨rest, ?_, ?_⟩, ?_⟩
  · exact (isBoundary_charBefore_iff _).mp ((isBoundary_charBefore_iff _).mpr hmention.boundary)
  · rw [List.drop_left]
    exact (startsWithWord_iff hword).mp hspelled
  · rw [List.drop_left]
    exact hread
  · rw [List.drop_left]
  · -- What failed before the phrase has seen nothing but what is still there.
    intro index hindex hindexMention
    have hfails := hearlier index hindex (hindexMention.of_meet hat hword hindex)
    rw [List.drop_append_of_le_length hindex.le, List.drop_eq_getElem_cons hindex] at hfails ⊢
    obtain ⟨t', u', hmeet⟩ := MeetAt.of_append (start.drop (index + 1)) t u
    exact hlocal _ t' u' _ _ hmeet hfails

end Renew

/-! ## Another number -/

/-- Digits that a delay may have for its number. -/
structure IsNumber (digits : List Char) : Prop where
  ne_nil : digits ≠ []
  isDigit : ∀ c ∈ digits, c.isDigit = true
  length_le : digits.length ≤ maxDigits

namespace DelayPhrase

variable {token : List Char} {delay : Delay} {digits : List Char}

/-- The same phrase with other digits. -/
def withNumber (p : DelayPhrase token delay) (h : IsNumber digits) :
    DelayPhrase token ⟨valueOfAscii digits, delay.unit⟩ :=
  { p with
    digits := digits
    digits_ne_nil := h.ne_nil
    isDigit := h.isDigit
    length_le := h.length_le
    value_eq := rfl }

theorem startsWithWord_text (hword : token.all isWordLetter = true) (p : DelayPhrase token delay)
    (rest : List Char) : startsWithWord token (p.text ++ rest) = true := by
  rw [startsWithWord_iff hword, text, List.append_assoc]
  exact ⟨p.mark, _, rfl, p.mark_spells⟩

/-- The delay of a text stands in it as a phrase. -/
theorem exists_of_matchDelete {text : List Char} {start stop : Nat}
    (h : matchDelete text = .found delay start stop) :
    ∃ (p : DelayPhrase deleteToken delay) (after : List Char),
      text = text.take start ++ (p.text ++ after) ∧ (text.take start).length = start := by
  obtain ⟨-, ⟨after, hread, -⟩, -⟩ :=
    (firstMatch_eq_found_iff (by decide) isWordLetter_deleteToken).mp h
  obtain ⟨p, hp⟩ := exists_delayPhrase_of_readDelay? isWordLetter_deleteToken hread
  refine ⟨p, after, ?_, ?_⟩
  · rw [← hp, List.take_append_drop]
  · apply List.length_take_of_le
    by_contra hlt
    rw [List.drop_eq_nil_of_le (by omega)] at hread
    cases hread

/-- A text whose first delay gets another number has the same delay of this number. -/
theorem matchDelete_withNumber (p : DelayPhrase deleteToken delay) (h : IsNumber digits)
    {before after : List Char} {stop : Nat}
    (hfound : matchDelete (before ++ (p.text ++ after)) = .found delay before.length stop) :
    ∃ stop', matchDelete (before ++ ((p.withNumber h).text ++ after)) =
      .found ⟨valueOfAscii digits, delay.unit⟩ before.length stop' := by
  obtain ⟨rest, hread, -⟩ := readDelay?_delayPhrase isWordLetter_deleteToken (p.withNumber h) after
  have hspelled := startsWithWord_text isWordLetter_deleteToken (p.withNumber h) after
  have hat : '@' ∉ "delete".toList := by decide
  refine ⟨_, firstMatch_renew hat isWordLetter_deleteToken ?_ hfound hspelled hread⟩
  intro c t u a b hmeet
  exact (none_iff_of_rel (readDelay?_rel (by decide) c hmeet)).mp

end DelayPhrase

/-! ## What is asked for -/

/-- Whenever the second outcome has an instant the first one has an earlier instant. -/
def AsksSooner (sooner later : Except Failure Resolution) : Prop :=
  ∀ r' due', later = .ok r' → r'.timestamp = some due' →
    ∃ r due, sooner = .ok r ∧ r.timestamp = some due ∧ due < due'

theorem resolveDelete_of_found {text : List Char} {delay : Delay} {start stop : Nat}
    (h : matchDelete text = .found delay start stop) (now : DateTime) :
    resolveDelete (some text) now =
      now.toInstant.map fun i => ⟨some text, delay.after? i⟩ := by
  rw [resolveDelete, Option.map_some, h]
  cases now.toInstant <;> rfl

theorem Delay.after?_eq_some_iff {delay : Delay} {now due : Instant} :
    delay.after? now = some due ↔ now.add delay.unit delay.number = .ok due := by
  rw [after?]
  cases now.add delay.unit delay.number <;> simp [Except.toOption]

/-- Of two delays in the same unit the one with the smaller number ends earlier. -/
theorem asksSooner_of_found {text text' : List Char} {unit : TimeUnit} {n n' : Nat}
    {start stop start' stop' : Nat} (h : matchDelete text = .found ⟨n, unit⟩ start stop)
    (h' : matchDelete text' = .found ⟨n', unit⟩ start' stop') (hlt : n < n') (now : DateTime) :
    AsksSooner (resolveDelete (some text) now) (resolveDelete (some text') now) := by
  intro r' due' hr' hdue'
  rw [resolveDelete_of_found h'] at hr'
  obtain ⟨i, hi, rfl⟩ := map_eq_ok hr'
  have hadd : i.add unit n' = .ok due' := Delay.after?_eq_some_iff.mp hdue'
  obtain ⟨due, hdue, hsooner⟩ :=
    Instant.exists_add_lt hadd (Int.natCast_nonneg n) (Int.ofNat_lt.mpr hlt)
  refine ⟨⟨some text, some due⟩, due, ?_, rfl, hsooner⟩
  have hafter : (⟨n, unit⟩ : Delay).after? i = some due := Delay.after?_eq_some_iff.mpr hdue
  rw [resolveDelete_of_found h, hi, Except.map, hafter]

/-- **A longer delay is always later.** Of two shifts of a clock reading by one unit the larger
leads to a later instant, a shift by none to the instant of the reading, and between two shifts
that exist there is no gap. So in a text in which a deletion is found, the number of its delay may
be changed, and then the deletion of the larger number is later than that of the smaller one, or
off the calendar. -/
theorem longer_delay_is_later (now : DateTime) :
    (now.OnCalendar → ∃ b, now.toInstant = .ok b ∧ ∀ unit : TimeUnit,
      now.addUnits unit.name 0 = .ok b ∧
      ∀ m n sooner later, m < n → now.addUnits unit.name m = .ok sooner →
        now.addUnits unit.name n = .ok later →
          sooner < later ∧ ∀ k, m ≤ k → k ≤ n →
            ∃ between, now.addUnits unit.name k = .ok between) ∧
    ∀ text delay start stop, matchDelete text = .found delay start stop →
      ∃ (p : DelayPhrase deleteToken delay) (after : List Char),
        text = text.take start ++ (p.text ++ after) ∧
        ∀ digits (h : IsNumber digits),
          let other := text.take start ++ ((p.withNumber h).text ++ after)
          (∃ stop', matchDelete other = .found ⟨valueOfAscii digits, delay.unit⟩ start stop') ∧
          (delay.number < valueOfAscii digits →
            AsksSooner (resolveDelete (some text) now) (resolveDelete (some other) now)) ∧
          (valueOfAscii digits < delay.number →
            AsksSooner (resolveDelete (some other) now) (resolveDelete (some text) now)) := by
  constructor
  · intro hnow
    obtain ⟨b, hb⟩ := DateTime.exists_toInstant_iff.mpr hnow
    refine ⟨b, hb, ?_⟩
    intro unit
    simp only [DateTime.addUnits_of_toInstant hb]
    refine ⟨b.add_zero unit, ?_⟩
    intro m n sooner later hlt hm hn
    refine ⟨Instant.add_lt_add hm hn hlt, ?_⟩
    intro k hmk hkn
    exact Instant.exists_add_between hm hn hmk hkn
  · intro text delay start stop hfound
    obtain ⟨p, after, htext, hstart⟩ := DelayPhrase.exists_of_matchDelete hfound
    refine ⟨p, after, htext, ?_⟩
    intro digits h
    have hplaced : matchDelete (text.take start ++ (p.text ++ after)) =
        .found delay (text.take start).length stop := by
      rw [← htext, hstart]
      exact hfound
    obtain ⟨stop', hfound'⟩ := p.matchDelete_withNumber h hplaced
    rw [hstart] at hfound'
    refine ⟨⟨stop', hfound'⟩, ?_, ?_⟩
    · intro hlt
      exact asksSooner_of_found hfound hfound' hlt now
    · intro hlt
      exact asksSooner_of_found hfound' hfound hlt now

/-- With ten for two, the deletion is found again, and it is later. -/
theorem longer_delay_is_later_tenDays :
    ∃ other stop r r' due due', matchDelete other = .found ⟨10, .day⟩ 4 stop ∧
      resolveDelete (some "bye @delete in 2 days!".toList) (.utc .first) = .ok r ∧
      r.timestamp = some due ∧
      resolveDelete (some other) (.utc .first) = .ok r' ∧ r'.timestamp = some due' ∧
      due < due' := by
  have hfound : matchDelete "bye @delete in 2 days!".toList = .found ⟨2, .day⟩ 4 21 := by
    decide +kernel
  have hten : IsNumber ['1', '0'] := ⟨by decide, by simp, by decide⟩
  obtain ⟨p, after, -, hother⟩ := (longer_delay_is_later (.utc .first)).2 _ _ _ _ hfound
  obtain ⟨⟨stop, hfound'⟩, hlonger, -⟩ := hother ['1', '0'] hten
  change matchDelete _ = .found ⟨10, .day⟩ 4 stop at hfound'
  have hlate : (⟨10, .day⟩ : Delay).after? .first = some ⟨10 * microsPerDay, by decide⟩ := by
    decide +kernel
  have hr' := resolveDelete_of_found hfound' (.utc .first)
  simp only [DateTime.toInstant_utc, Except.map, hlate] at hr'
  obtain ⟨r, due, hr, hdue, hlt⟩ := hlonger (by decide) _ _ hr' rfl
  exact ⟨_, stop, r, _, due, _, hfound', hr, hdue, hr', rfl, hlt⟩

end Deferral
