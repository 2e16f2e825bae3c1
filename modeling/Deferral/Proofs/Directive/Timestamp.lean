/-
# Deferral.Proofs.Directive.Timestamp -- a written publication is read back

A publication that was pinned is the token, `on` and an instant to the millisecond.
The reader of publications takes exactly this phrase, whatever text follows it, and
finds the instant again. The years of the calendar have four digits, so that the
numerals are never too long.
-/

import Deferral.Directive.Resolve
import Deferral.Proofs.Calendar.Fields
import Deferral.Proofs.Directive.Parts

namespace Deferral

/-! ## Words -/

/-- A word in lower case, as it is written, is dropped from the text before anything else. -/
theorem dropWord?_append {word : List Char} (h : ∀ c ∈ word, lowerToAscii c = c)
    (rest : List Char) : dropWord? word (word ++ rest) = some rest := by
  induction word with
  | nil => rfl
  | cons c word ih =>
      obtain ⟨hc, hword⟩ := List.forall_mem_cons.mp h
      rw [List.cons_append, dropWord?, if_pos hc]
      exact ih hword

/-- Blanks end where the text goes on with another character. -/
theorem dropBlanks?_space {c : Char} (h : isBlank c = false) (rest : List Char) :
    dropBlanks? (' ' :: c :: rest) = some (c :: rest) := by
  have hspace : isBlank ' ' = true := by decide
  rw [dropBlanks?, if_pos hspace, List.dropWhile_cons_of_neg (by simp [h])]

/-! ## The clock -/

/-- Seconds and milliseconds before the sign of UTC. -/
theorem readSeconds_millis {second millis : Nat} (hsecond : second ≤ 59) (hmillis : millis < 1000)
    (rest : List Char) :
    readSeconds (':' :: decimalFixed 2 second ++ '.' :: decimalFixed 3 millis ++ 'Z' :: rest) =
      (second, millis * 1000, 'Z' :: rest) := by
  have hcolon : dropWord? [':'] (':' :: decimalFixed 2 second ++ '.' :: decimalFixed 3 millis ++
      'Z' :: rest) = some (decimalFixed 2 second ++ '.' :: decimalFixed 3 millis ++ 'Z' :: rest) :=
    rfl
  have hread : takeSixtieth? (decimalFixed 2 second ++ '.' :: (decimalFixed 3 millis ++
      'Z' :: rest)) = some (second, '.' :: (decimalFixed 3 millis ++ 'Z' :: rest)) :=
    takeBounded?_decimalFixed (by omega) hsecond _
  have hdigits : ∀ d ∈ decimalFixed 3 millis, d.isDigit = true :=
    fun _ => isDigit_of_mem_decimalFixed
  have hfraction : fractionMicros (decimalFixed 3 millis) = millis * 1000 := by
    rw [fractionMicros, List.take_of_length_le (by simp), valueOfAscii_decimalFixed,
      length_decimalFixed, Nat.mod_eq_of_lt (show millis < 10 ^ 3 from hmillis)]
    rfl
  rw [readSeconds, hcolon, Option.bind_some, List.append_assoc, List.cons_append, hread]
  have hz : Char.isDigit 'Z' = false := by decide
  simp only [takeWhile_isDigit_append hdigits hz, dropWhile_isDigit_append hdigits hz, hfraction]

/-! ## Timestamps -/

/-- The form to the millisecond denotes the instant cut to milliseconds, and nothing that
follows is taken. -/
theorem readMoment?_isoMillis (i : Instant) (rest : List Char) :
    readMoment? (i.isoMillis ++ rest) = some (i.truncateToMillis, rest) := by
  have hmillis : i.microsecond / 1000 < 1000 := by
    have := i.microsecond_lt
    simp only [microsPerSecond] at this
    omega
  have hhour : ∀ text, takeHour? (decimalFixed 2 i.hour ++ text) = some (i.hour, text) :=
    takeBounded?_decimalFixed (Nat.lt_of_le_of_lt i.hour_le (by decide)) i.hour_le
  have hminute : ∀ text, takeSixtieth? (decimalFixed 2 i.minute ++ text) = some (i.minute, text) :=
    takeBounded?_decimalFixed (Nat.lt_of_le_of_lt i.minute_le (by decide)) i.minute_le
  have hseconds := readSeconds_millis i.second_le hmillis rest
  have hword : ∀ (c : Char) (text : List Char), lowerToAscii c = c →
      dropWord? [c] (c :: text) = some text :=
    fun c text hc => dropWord?_append (List.forall_mem_singleton.mpr hc) text
  have ht : ∀ text, dropWord? ['t'] ('T' :: text) = some text := fun _ => rfl
  have hzone : readZone? ('Z' :: rest) = some (0, rest) := rfl
  have htext : i.isoMillis ++ rest = decimalFixed 4 i.date.year ++ '-' ::
      (decimalFixed 2 i.date.month ++ '-' :: (decimalFixed 2 i.date.dayOfMonth ++ 'T' ::
        (decimalFixed 2 i.hour ++ ':' :: (decimalFixed 2 i.minute ++
          (':' :: decimalFixed 2 i.second ++ '.' :: decimalFixed 3 (i.microsecond / 1000) ++
            'Z' :: rest))))) := by
    simp [Instant.isoMillis, Date.iso, isoClock]
  rw [htext]
  refine Option.bind_eq_some_iff.mpr ⟨_, takeFixed?_decimalFixed i.date.year_lt _, ?_⟩
  refine Option.bind_eq_some_iff.mpr ⟨_, hword '-' _ rfl, ?_⟩
  refine Option.bind_eq_some_iff.mpr ⟨_, takeFixed?_decimalFixed i.date.month_lt _, ?_⟩
  refine Option.bind_eq_some_iff.mpr ⟨_, hword '-' _ rfl, ?_⟩
  refine Option.bind_eq_some_iff.mpr ⟨_, takeFixed?_decimalFixed i.date.dayOfMonth_lt _, ?_⟩
  refine Option.bind_eq_some_iff.mpr ⟨_, ht _, ?_⟩
  refine Option.bind_eq_some_iff.mpr ⟨_, hhour _, ?_⟩
  refine Option.bind_eq_some_iff.mpr ⟨_, hword ':' _ rfl, ?_⟩
  refine Option.bind_eq_some_iff.mpr ⟨_, hminute _, ?_⟩
  dsimp only
  rw [hseconds]
  refine Option.bind_eq_some_iff.mpr ⟨_, hzone, ?_⟩
  refine Option.bind_eq_some_iff.mpr ⟨_, i.ofFields?_millis, ?_⟩
  refine Option.bind_eq_some_iff.mpr ⟨i.truncateToMillis, ?_, rfl⟩
  rw [Int.zero_mul, Int.neg_zero, Instant.shift?_zero]

/-! ## Phrases -/

/-- A timestamp begins with a digit of its year. -/
theorem isoMillis_eq_cons (i : Instant) :
    ∃ c tail, i.isoMillis = c :: tail ∧ c.isDigit = true := by
  obtain ⟨c, tail, hyear, hc⟩ := decimalFixed_succ_eq_cons 3 i.date.year
  rw [Instant.isoMillis, Date.iso, hyear]
  exact ⟨c, _, rfl, hc⟩

theorem lowerToAscii_of_all {word : List Char}
    (h : (word.all fun c => lowerToAscii c == c) = true) : ∀ c ∈ word, lowerToAscii c = c := by
  intro c hc
  exact beq_iff_eq.mp (List.all_eq_true.mp h c hc)

theorem lowerToAscii_of_mem_scheduleToken : ∀ c ∈ scheduleToken, lowerToAscii c = c :=
  lowerToAscii_of_all (by decide)

/-- A pinned publication is read as the moment that it was written for, whatever follows. -/
theorem readPublication?_publicationPhrase (i : Instant) (rest : List Char) :
    readPublication? (publicationPhrase i ++ rest) =
      some (⟨i.isoMillis, i.truncateToMillis⟩, rest) := by
  have hon : ∀ c ∈ "on".toList, lowerToAscii c = c := lowerToAscii_of_all (by decide)
  have ho : isBlank 'o' = false := by decide
  have hblank : dropBlanks? (' ' :: (i.isoMillis ++ rest)) = some (i.isoMillis ++ rest) := by
    obtain ⟨c, tail, hiso, hc⟩ := isoMillis_eq_cons i
    rw [hiso]
    exact dropBlanks?_space (isBlank_of_isDigit hc) _
  have hword : dropOneOf? momentWords ("on".toList ++ ' ' :: (i.isoMillis ++ rest)) =
      some ((), ' ' :: (i.isoMillis ++ rest)) := by
    rw [dropOneOf?, momentWords, List.findSome?_cons, dropWord?_append hon]
    rfl
  have hphrase : publicationPhrase i ++ rest =
      scheduleToken ++ ' ' :: ("on".toList ++ ' ' :: (i.isoMillis ++ rest)) := by
    simp [publicationPhrase]
  have htake : (i.isoMillis ++ rest).take ((i.isoMillis ++ rest).length - rest.length) =
      i.isoMillis := by
    simp
  have hspace : dropBlanks? (' ' :: ("on".toList ++ ' ' :: (i.isoMillis ++ rest))) =
      some ("on".toList ++ ' ' :: (i.isoMillis ++ rest)) :=
    dropBlanks?_space ho _
  simp only [readPublication?, hphrase, dropWord?_append lowerToAscii_of_mem_scheduleToken,
    hspace, hword, hblank, readMoment?_isoMillis, htake, Option.bind_eq_bind, Option.bind_some]

end Deferral
