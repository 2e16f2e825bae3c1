/-
# Deferral.Proofs.Calendar.IsoRoundTrip -- a written timestamp is read back

Reading takes many more forms than the one that is written. For that form it gives the
same clock reading, with one exception: an offset that is shorter than a second, and not
zero, is taken for UTC, so that the moment is another one. No reading has such an offset,
and a timestamp that was read once is written and read without loss from then on.
-/

import Deferral.Proofs.Calendar.Fields
import Deferral.Proofs.Number.Digits

namespace Deferral

/-! ## Offsets that timestamps carry -/

/-- The offset is zero or at least a second long, to either side. -/
def Offset.Portable (o : Offset) : Prop := o.micros = 0 ∨ microsPerSecond ≤ o.micros.natAbs

/-- The offset, if it is known, is one that a timestamp carries. -/
def DateTime.Portable (t : DateTime) : Prop := ∀ o, t.offset = some o → o.Portable

instance (o : Offset) : Decidable o.Portable := inferInstanceAs (Decidable (_ ∨ _))

/-- The offset as a timestamp carries it: one shorter than a second becomes UTC. -/
def Offset.carried (o : Offset) : Offset := if o.micros.natAbs < microsPerSecond then .utc else o

/-- The clock reading as its timestamp carries it. -/
def DateTime.carried (t : DateTime) : DateTime := { t with offset := t.offset.map Offset.carried }

theorem Offset.carried_of_portable {o : Offset} (h : o.Portable) : o.carried = o := by
  rw [carried]
  split
  · next hshort =>
      have hzero : o.micros = 0 := by
        rcases h with h | h
        · exact h
        · omega
      obtain ⟨micros, _, _⟩ := o
      cases hzero
      rfl
  · rfl

theorem DateTime.carried_of_portable {t : DateTime} (h : t.Portable) : t.carried = t := by
  obtain ⟨wall, offset⟩ := t
  cases offset with
  | none => rfl
  | some o => rw [carried, Option.map_some, Offset.carried_of_portable (h o rfl)]

/-- A clock reading is of the same moment as what its timestamp carries only if nothing of it
is lost. -/
theorem DateTime.portable_of_sameMoment_carried {t : DateTime}
    (h : t.carried.sameMoment t = true) : t.Portable := by
  intro o ho
  obtain ⟨wall, offset⟩ := t
  cases ho
  have hmicros := beq_iff_eq.mp (Bool.and_eq_true_iff.mp h).2
  simp only [utcMicros, carried, Option.map_some, Option.getD_some] at hmicros
  rw [Offset.carried] at hmicros
  split at hmicros
  · have hutc : Offset.utc.micros = 0 := rfl
    exact Or.inl (by omega)
  · next hlong => exact Or.inr (Nat.le_of_not_lt hlong)

theorem DateTime.portable_utc (i : Instant) : (utc i).Portable := by
  intro o ho
  cases ho
  exact Or.inl rfl

/-! ## Dates -/

theorem length_date_iso (d : Date) : d.iso.length = 10 := by
  simp [Date.iso]

/-- After the year there is a hyphen, and then no week. -/
theorem drop_date_iso (d : Date) (rest : List Char) :
    ∃ c tail, c ≠ 'W' ∧ (d.iso ++ rest).drop 4 = '-' :: c :: tail := by
  obtain ⟨c, tail, hmonth, hc⟩ := decimalFixed_succ_eq_cons 1 d.month
  refine ⟨c, tail ++ '-' :: (decimalFixed 2 d.dayOfMonth ++ rest), ?_, ?_⟩
  · intro hW
    rw [hW] at hc
    exact absurd hc (by decide)
  · rw [Date.iso, List.append_assoc, List.append_assoc, drop_decimalFixed, hmonth]
    simp

theorem dateWidth?_date_iso (d : Date) (rest : List Char) :
    dateWidth? (d.iso ++ rest) = some 10 := by
  obtain ⟨c, tail, hc, hdrop⟩ := drop_date_iso d rest
  have hlength : 10 ≤ (d.iso ++ rest).length := by
    rw [List.length_append, length_date_iso]
    exact Nat.le_add_right 10 _
  rw [dateWidth?, if_neg (by omega), if_neg (by omega), hdrop]
  split
  · next heq =>
      cases heq
      exact absurd rfl hc
  · rfl
  · next heq => cases heq
  · next hyphen _ => exact absurd rfl (hyphen _)

theorem readIsoDate?_date_iso (d : Date) : readIsoDate? d.iso = some d := by
  obtain ⟨c, tail, hmonth, hc⟩ := decimalFixed_succ_eq_cons 1 d.month
  have hW : c ≠ 'W' := by
    intro hW
    rw [hW] at hc
    exact absurd hc (by decide)
  have hday : takeFixed? 2 (decimalFixed 2 d.dayOfMonth) = some (d.dayOfMonth, []) := by
    simpa using takeFixed?_decimalFixed d.dayOfMonth_lt []
  have hmonthDay : readIsoMonthDay? true d.year
      (decimalFixed 2 d.month ++ '-' :: decimalFixed 2 d.dayOfMonth) = some d := by
    refine Option.bind_eq_some_iff.mpr ⟨_, takeFixed?_decimalFixed d.month_lt _, ?_⟩
    refine Option.bind_eq_some_iff.mpr ⟨_, rfl, ?_⟩
    refine Option.bind_eq_some_iff.mpr ⟨_, hday, ?_⟩
    exact d.ofFields?_fields
  rw [Date.iso, List.append_assoc]
  refine Option.bind_eq_some_iff.mpr ⟨_, takeFixed?_decimalFixed d.year_lt _, ?_⟩
  rw [hmonth] at hmonthDay ⊢
  dsimp only [List.cons_append]
  split
  · next heq =>
      cases heq
      exact absurd rfl hW
  · next heq =>
      cases heq
      exact hmonthDay
  · next heq => cases heq
  · next hyphen _ => exact absurd rfl (hyphen _)

/-! ## Clocks -/

/-- Two digits at the end of a clock. -/
theorem readClockFrom?_last {n : Nat} (hn : n < 10 ^ 2) (more : Nat) (colons : Bool)
    (fields : List Nat) :
    readClockFrom? more colons fields (decimalFixed 2 n) = some ⟨fields ++ [n], 0, false⟩ := by
  have htake : takeFixed? 2 (decimalFixed 2 n) = some (n, []) := by
    simpa using takeFixed?_decimalFixed hn []
  rw [readClockFrom?, htake]
  rfl

/-- Two digits and a colon, of which the first one decides that all fields have one. -/
theorem readClockFrom?_colon {n : Nat} (hn : n < 10 ^ 2) (more : Nat) {colons : Bool}
    {fields : List Nat} (hcolons : fields.isEmpty = true ∨ colons = true) (c : Char)
    (next : List Char) :
    readClockFrom? (more + 1) colons fields (decimalFixed 2 n ++ ':' :: c :: next) =
      readClockFrom? more true (fields ++ [n]) (c :: next) := by
  have hon : (if fields.isEmpty then ':' == ':' else colons) = true := by
    rcases hcolons with h | h
    · rw [if_pos h]
      rfl
    · rw [h]
      split <;> rfl
  rw [readClockFrom?, takeFixed?_decimalFixed hn]
  show (if _ then _ else _) = _
  rw [hon]
  rfl

/-- Two digits and a fraction. -/
theorem readClockFrom?_fraction {n : Nat} (hn : n < 10 ^ 2) (more : Nat) (colons : Bool)
    (fields : List Nat) (c : Char) (next : List Char) :
    readClockFrom? more colons fields (decimalFixed 2 n ++ '.' :: c :: next) =
      readFraction? (fields ++ [n]) (c :: next) := by
  have hoff : ((if fields.isEmpty then '.' == ':' else colons) && '.' == ':') = false := by
    rw [show ('.' == ':') = false from rfl, Bool.and_false]
  rw [readClockFrom?.eq_def, takeFixed?_decimalFixed hn]
  show (if _ then _ else _) = _
  rw [hoff]
  rfl

/-- A fraction of six digits. -/
theorem readFraction?_decimalFixed {micros : Nat} (h : micros < microsPerSecond)
    (fields : List Nat) :
    readFraction? fields (decimalFixed 6 micros) = some ⟨fields, micros, false⟩ := by
  have htake : (decimalFixed 6 micros).take 6 = decimalFixed 6 micros :=
    List.take_of_length_le (by simp)
  have hdrop : (decimalFixed 6 micros).drop 6 = [] := List.drop_of_length_le (by simp)
  have hvalue : fractionMicros (decimalFixed 6 micros) = micros := by
    rw [fractionMicros, htake, valueOfAscii_decimalFixed, length_decimalFixed,
      Nat.mod_eq_of_lt (show micros < 10 ^ 6 from h)]
    exact Nat.mul_one micros
  rw [readFraction?, htake, hdrop, hvalue, if_pos (all_isDigit_decimalFixed 6 micros)]
  rfl

/-- The seconds of a clock, with their fraction. -/
theorem readClockFrom?_seconds {second micros : Nat} (hsecond : second < 10 ^ 2)
    (hmicros : micros < microsPerSecond) (more : Nat) (colons : Bool) (fields : List Nat) :
    readClockFrom? more colons fields (decimalFixed 2 second ++ isoFraction micros) =
      some ⟨fields ++ [second], micros, false⟩ := by
  rw [isoFraction]
  split
  · next hzero => rw [hzero, List.append_nil, readClockFrom?_last hsecond]
  · obtain ⟨c, next, hdigits, -⟩ := decimalFixed_succ_eq_cons 5 micros
    have hread := readFraction?_decimalFixed hmicros (fields ++ [second])
    rw [hdigits] at hread ⊢
    rw [readClockFrom?_fraction hsecond, hread]

/-- Hours and minutes. -/
theorem readClock?_minutes {hour minute : Nat} (hhour : hour < 10 ^ 2) (hminute : minute < 10 ^ 2) :
    readClock? (decimalFixed 2 hour ++ ':' :: decimalFixed 2 minute) =
      some ⟨[hour, minute], 0, false⟩ := by
  obtain ⟨c, next, hdigits, -⟩ := decimalFixed_succ_eq_cons 1 minute
  have hlast := readClockFrom?_last hminute 1 true [hour]
  rw [hdigits] at hlast ⊢
  rw [readClock?, readClockFrom?_colon hhour 1 (Or.inl rfl)]
  exact hlast

/-- Hours, minutes and seconds, with a fraction if there is one. -/
theorem readClock?_isoClock {hour minute second micros : Nat} (hhour : hour < 10 ^ 2)
    (hminute : minute < 10 ^ 2) (hsecond : second < 10 ^ 2) (hmicros : micros < microsPerSecond) :
    readClock? (isoClock hour minute second ++ isoFraction micros) =
      some ⟨[hour, minute, second], micros, false⟩ := by
  obtain ⟨c, next, hm, -⟩ := decimalFixed_succ_eq_cons 1 minute
  obtain ⟨c', next', hs, -⟩ := decimalFixed_succ_eq_cons 1 second
  have hlast := readClockFrom?_seconds hsecond hmicros 0 true [hour, minute]
  have hmiddle : readClockFrom? 1 true [hour]
      (decimalFixed 2 minute ++ ':' :: (decimalFixed 2 second ++ isoFraction micros)) =
        some ⟨[hour, minute, second], micros, false⟩ := by
    rw [hs] at hlast ⊢
    rw [List.cons_append, readClockFrom?_colon hminute 0 (Or.inr rfl)]
    exact hlast
  rw [isoClock, List.append_assoc, List.cons_append, List.append_assoc, List.cons_append, hm] at *
  rw [readClock?, List.cons_append, readClockFrom?_colon hhour 1 (Or.inl rfl)]
  exact hmiddle

/-! ## Offsets -/

/-- The parts of the size of an offset lie in the ranges of a clock. -/
theorem Offset.parts_lt (o : Offset) :
    o.micros.natAbs / microsPerSecond / 3600 < 10 ^ 2 ∧
    o.micros.natAbs / microsPerSecond / 60 % 60 < 10 ^ 2 ∧
    o.micros.natAbs / microsPerSecond % 60 < 10 ^ 2 ∧
    o.micros.natAbs % microsPerSecond < microsPerSecond := by
  have hlower := o.lower
  have hupper := o.upper
  simp only [microsPerDay, microsPerHour, microsPerMinute, microsPerSecond] at *
  omega

/-- The size and the sign of an offset make it up. -/
theorem Offset.ofMicros?_micros (o : Offset) : Offset.ofMicros? o.micros = some o := by
  rw [Offset.ofMicros?, dif_pos ⟨o.lower, o.upper⟩]

/-- The clock in an offset shows its size, cut into fields. -/
theorem readClock?_offset (o : Offset) :
    ∃ r : ClockReading, r.leftover = false ∧
      r.hour * 3600 + r.minute * 60 + r.second = o.micros.natAbs / microsPerSecond ∧
      r.microsecond = o.micros.natAbs % microsPerSecond ∧
      ∃ text, o.iso = (if o.micros < 0 then '-' else '+') :: text ∧ readClock? text = some r := by
  obtain ⟨hhour, hminute, hsecond, hfraction⟩ := o.parts_lt
  have hsum : ∀ seconds : Nat, seconds / 3600 * 3600 + seconds / 60 % 60 * 60 + seconds % 60 =
      seconds := by
    intro seconds
    omega
  by_cases hwhole : o.micros.natAbs / microsPerSecond % 60 = 0 ∧
      o.micros.natAbs % microsPerSecond = 0
  · refine ⟨⟨[o.micros.natAbs / microsPerSecond / 3600,
      o.micros.natAbs / microsPerSecond / 60 % 60], 0, false⟩, rfl, ?_, hwhole.2.symm,
      _, rfl, ?_⟩
    · have := hsum (o.micros.natAbs / microsPerSecond)
      rw [hwhole.1] at this
      exact this
    · rw [if_pos hwhole]
      have hread := readClock?_minutes hhour hminute
      simpa using hread
  · refine ⟨⟨[o.micros.natAbs / microsPerSecond / 3600,
      o.micros.natAbs / microsPerSecond / 60 % 60, o.micros.natAbs / microsPerSecond % 60],
      o.micros.natAbs % microsPerSecond, false⟩, rfl, hsum _, rfl, _, rfl, ?_⟩
    rw [if_neg hwhole]
    have hread := readClock?_isoClock hhour hminute hsecond hfraction
    rw [isoClock] at hread
    simpa using hread

theorem readOffset?_iso (o : Offset) : readOffset? o.iso = some o.carried := by
  obtain ⟨r, hleftover, hseconds, hmicrosecond, text, hiso, hread⟩ := readClock?_offset o
  have hsize : o.micros.natAbs / microsPerSecond * microsPerSecond +
      o.micros.natAbs % microsPerSecond = o.micros.natAbs := Nat.div_add_mod' _ _
  have hsign : ∀ sign : Char, sign ≠ 'Z' → withSign (sign == '-') o.micros.natAbs = o.micros →
      readOffset? (sign :: text) = some o.carried := by
    intro sign hZ hvalue
    rw [readOffset?.eq_def]
    split
    · next heq => exact absurd (List.cons.inj heq).1 hZ
    · next heq =>
        cases heq
        refine Option.bind_eq_some_iff.mpr ⟨r, hread, ?_⟩
        rw [hleftover, if_neg (by decide)]
        dsimp only
        rw [hseconds, hmicrosecond, hsize]
        split
        · next hzero =>
            -- Less than a second was left over for an offset, which is none.
            have hshort : o.micros.natAbs < microsPerSecond :=
              (Nat.div_eq_zero_iff.mp hzero).resolve_left (by decide)
            rw [Offset.carried, if_pos hshort]
            rfl
        · next hnonzero =>
            have hlong : ¬ o.micros.natAbs < microsPerSecond :=
              fun hshort => hnonzero (Nat.div_eq_of_lt hshort)
            rw [hvalue, o.ofMicros?_micros, Offset.carried, if_neg hlong]
    · next heq => cases heq
  rw [hiso]
  split
  · next hneg =>
      refine hsign '-' (by decide) ?_
      show -(o.micros.natAbs : Int) = o.micros
      omega
  · next hpos =>
      refine hsign '+' (by decide) ?_
      show (o.micros.natAbs : Int) = o.micros
      omega

/-- No offset that is read is shorter than a second, unless it is zero. -/
theorem portable_of_readOffset? {text : List Char} {o : Offset} (h : readOffset? text = some o) :
    o.Portable := by
  rw [readOffset?.eq_def] at h
  split at h
  · split at h
    · cases h
    · cases h
      exact Or.inl rfl
  · obtain ⟨r, -, h⟩ := Option.bind_eq_some_iff.mp h
    split at h
    · cases h
    · dsimp only at h
      split at h
      · cases h
        exact Or.inl rfl
      · next hnonzero =>
          rw [Offset.ofMicros?] at h
          split at h
          · cases h
            refine Or.inr ?_
            have hle := Nat.mul_le_mul_right microsPerSecond (Nat.one_le_iff_ne_zero.mpr hnonzero)
            simp only [withSign]
            split <;> omega
          · cases h
  · cases h

/-! ## Timestamps -/

/-- No part of a clock begins an offset. -/
theorem beginsOffset_of_mem_clock {hour minute second micros : Nat} {c : Char}
    (h : c ∈ isoClock hour minute second ++ isoFraction micros) : beginsOffset c = false := by
  have hdigit : ∀ width n, c ∈ decimalFixed width n → beginsOffset c = false := by
    intro width n hmem
    have hc := isDigit_of_mem_decimalFixed hmem
    have hne : ∀ d : Char, d.isDigit = false → (c == d) = false := by
      intro d hd
      rw [beq_eq_false_iff_ne]
      rintro rfl
      rw [hc] at hd
      cases hd
    rw [beginsOffset, hne '+' rfl, hne '-' rfl, hne 'Z' rfl]
    rfl
  have hother : c = ':' ∨ c = '.' → beginsOffset c = false := by
    rintro (rfl | rfl) <;> rfl
  rcases List.mem_append.mp h with h | h
  · simp only [isoClock, List.mem_append, List.mem_cons] at h
    rcases h with (h | rfl | h) | rfl | h
    · exact hdigit _ _ h
    · rfl
    · exact hdigit _ _ h
    · rfl
    · exact hdigit _ _ h
  · rw [isoFraction] at h
    split at h
    · cases h
    · rcases List.mem_cons.mp h with rfl | h
      · rfl
      · exact hdigit _ _ h

/-- An offset begins with its sign. -/
theorem offset_iso_eq_cons (o : Offset) :
    ∃ sign text, o.iso = sign :: text ∧ beginsOffset sign = true := by
  rw [Offset.iso]
  split
  · exact ⟨'-', _, rfl, rfl⟩
  · exact ⟨'+', _, rfl, rfl⟩

theorem readIsoTime?_iso (wall : Instant) {zone : List Char} {offset : Option Offset}
    (hzone : (zone = [] ∧ offset = none) ∨
      ∃ sign text, zone = sign :: text ∧ beginsOffset sign = true ∧
        (readOffset? zone).map some = some offset) :
    readIsoTime? wall.date
      (isoClock wall.hour wall.minute wall.second ++ isoFraction wall.microsecond ++ zone) =
        some ⟨wall, offset⟩ := by
  have hplain : ∀ c ∈ isoClock wall.hour wall.minute wall.second ++ isoFraction wall.microsecond,
      (!beginsOffset c) = true := by
    intro c hc
    rw [beginsOffset_of_mem_clock hc]
    rfl
  have hclock := readClock?_isoClock (Nat.lt_of_le_of_lt wall.hour_le (by decide))
    (Nat.lt_of_le_of_lt wall.minute_le (by decide))
    (Nat.lt_of_le_of_lt wall.second_le (by decide)) wall.microsecond_lt
  have hwall := wall.ofFields?_fields
  generalize isoClock wall.hour wall.minute wall.second ++ isoFraction wall.microsecond = clock at *
  rcases hzone with ⟨rfl, rfl⟩ | ⟨sign, text, rfl, hsign, hread⟩
  · rw [List.append_nil, readIsoTime?, List.takeWhile_eq_self_iff.mpr hplain,
      List.dropWhile_eq_nil_iff.mpr hplain]
    refine Option.bind_eq_some_iff.mpr ⟨_, hclock, ?_⟩
    exact Option.bind_eq_some_iff.mpr ⟨wall, hwall, rfl⟩
  · have htake : (clock ++ sign :: text).takeWhile (!beginsOffset ·) = clock := by
      rw [List.takeWhile_append_of_pos hplain, List.takeWhile_cons, hsign]
      exact List.append_nil clock
    have hdrop : (clock ++ sign :: text).dropWhile (!beginsOffset ·) = sign :: text := by
      rw [List.dropWhile_append_of_pos hplain, List.dropWhile_cons, hsign]
      rfl
    rw [readIsoTime?, htake, hdrop]
    refine Option.bind_eq_some_iff.mpr ⟨_, hclock, ?_⟩
    refine Option.bind_eq_some_iff.mpr ⟨offset, hread, ?_⟩
    exact Option.bind_eq_some_iff.mpr ⟨wall, hwall, rfl⟩

namespace DateTime

/-- What is written is read back as the timestamp carries it. -/
theorem readIso?_iso_carried (t : DateTime) : readIso? t.iso = some t.carried := by
  obtain ⟨wall, offset⟩ := t
  have htext : DateTime.iso ⟨wall, offset⟩ = wall.date.iso ++ 'T' ::
      (isoClock wall.hour wall.minute wall.second ++ isoFraction wall.microsecond ++
        (offset.map Offset.iso).getD []) := by
    simp [iso, isoWith]
  have htake : ∀ rest, (wall.date.iso ++ rest).take 10 = wall.date.iso := by
    intro rest
    rw [List.take_left' (length_date_iso wall.date)]
  have hdrop : ∀ rest, (wall.date.iso ++ rest).drop 10 = rest := by
    intro rest
    rw [List.drop_left' (length_date_iso wall.date)]
  rw [htext]
  refine Option.bind_eq_some_iff.mpr ⟨10, dateWidth?_date_iso wall.date _, ?_⟩
  rw [htake, hdrop]
  refine Option.bind_eq_some_iff.mpr ⟨wall.date, readIsoDate?_date_iso wall.date, ?_⟩
  refine readIsoTime?_iso wall ?_
  cases offset with
  | none => exact Or.inl ⟨rfl, rfl⟩
  | some o =>
      obtain ⟨sign, text, hiso, hsign⟩ := offset_iso_eq_cons o
      refine Or.inr ⟨sign, text, hiso, hsign, ?_⟩
      rw [Option.map_some, Option.getD_some, readOffset?_iso]
      rfl

/-- What is written is read back, if the offset is one that timestamps carry. -/
theorem readIso?_iso {t : DateTime} (h : t.Portable) : readIso? t.iso = some t := by
  rw [readIso?_iso_carried, carried_of_portable h]

/-- Whatever is read can be written and read again. -/
theorem portable_of_readIso? {text : List Char} {t : DateTime} (h : readIso? text = some t) :
    t.Portable := by
  obtain ⟨width, -, h⟩ := Option.bind_eq_some_iff.mp h
  obtain ⟨d, -, h⟩ := Option.bind_eq_some_iff.mp h
  split at h
  · cases h
    intro o ho
    cases ho
  · obtain ⟨r, -, h⟩ := Option.bind_eq_some_iff.mp h
    dsimp only at h
    split at h
    · obtain ⟨offset, hoffset, h⟩ := Option.bind_eq_some_iff.mp h
      obtain ⟨wall, -, h⟩ := Option.bind_eq_some_iff.mp h
      cases h
      intro o ho
      split at hoffset
      · cases hoffset
      · cases hoffset
        cases ho
    · obtain ⟨offset, hoffset, h⟩ := Option.bind_eq_some_iff.mp h
      obtain ⟨wall, -, h⟩ := Option.bind_eq_some_iff.mp h
      obtain ⟨o', hread, rfl⟩ := Option.map_eq_some_iff.mp hoffset
      cases h
      intro o ho
      cases ho
      exact portable_of_readOffset? hread

end DateTime

end Deferral
