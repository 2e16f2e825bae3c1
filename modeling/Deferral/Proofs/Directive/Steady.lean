/-
# Deferral.Proofs.Directive.Steady -- a phrase is read alike when less follows it

Readers take as much as they can, so what a reader takes depends on the text after it. It
does not change, however, when the text after it is cut short: the characters at which
blanks, digits and the parts that may be left out come to their end are still there, or the
text itself ends. `Steady` says this of a reader, and it passes from the parts to the phrase.
-/

import Deferral.Proofs.Directive.Parts

namespace Deferral

variable {α β : Type}

/-- A reader that leaves any beginning of what it left before, if nothing else follows. -/
def Steady (read : List Char → Option (α × List Char)) : Prop :=
  ∀ ⦃text : List Char⦄ ⦃value : α⦄ ⦃rest : List Char⦄, read text = some (value, rest) →
    ∃ taken, text = taken ++ rest ∧
      ∀ later, later <+: rest → read (taken ++ later) = some (value, later)

/-- The same of a reader that gives no value. -/
def SteadyDrop (drop : List Char → Option (List Char)) : Prop :=
  ∀ ⦃text rest : List Char⦄, drop text = some rest →
    ∃ taken, text = taken ++ rest ∧ ∀ later, later <+: rest → drop (taken ++ later) = some later

/-! ## One reader after another -/

theorem Steady.bind {first : List Char → Option (α × List Char)}
    {second : α × List Char → Option (β × List Char)} (hfirst : Steady first)
    (hsecond : ∀ value, Steady fun text => second (value, text)) :
    Steady fun text => (first text).bind second := by
  intro text value rest h
  obtain ⟨⟨value', middle⟩, hread, h⟩ := Option.bind_eq_some_iff.mp h
  obtain ⟨taken', rfl, hsteady'⟩ := hsecond value' h
  obtain ⟨taken, rfl, hsteady⟩ := hfirst hread
  refine ⟨taken ++ taken', (List.append_assoc ..).symm, fun later hlater => ?_⟩
  have hmiddle : taken' ++ later <+: taken' ++ rest := (List.prefix_append_right_inj _).mpr hlater
  rw [List.append_assoc]
  exact Option.bind_eq_some_iff.mpr ⟨_, hsteady _ hmiddle, hsteady' _ hlater⟩

theorem SteadyDrop.bind {drop : List Char → Option (List Char)}
    {read : List Char → Option (β × List Char)} (hdrop : SteadyDrop drop) (hread : Steady read) :
    Steady fun text => (drop text).bind read := by
  intro text value rest h
  obtain ⟨middle, hmiddle, h⟩ := Option.bind_eq_some_iff.mp h
  obtain ⟨taken', rfl, hsteady'⟩ := hread h
  obtain ⟨taken, rfl, hsteady⟩ := hdrop hmiddle
  refine ⟨taken ++ taken', (List.append_assoc ..).symm, fun later hlater => ?_⟩
  have hbegins : taken' ++ later <+: taken' ++ rest := (List.prefix_append_right_inj _).mpr hlater
  rw [List.append_assoc]
  exact Option.bind_eq_some_iff.mpr ⟨_, hsteady _ hbegins, hsteady' _ hlater⟩

/-- A value that does not depend on the text takes nothing of it. -/
theorem Steady.pure (value? : Option α) : Steady fun text => value?.map fun v => (v, text) := by
  intro text value rest h
  obtain ⟨v, rfl, heq⟩ := Option.map_eq_some_iff.mp h
  cases heq
  exact ⟨[], rfl, fun later _ => rfl⟩

theorem Steady.map {read : List Char → Option (α × List Char)} (h : Steady read) (f : α → β) :
    Steady fun text => (read text).map fun x => (f x.1, x.2) := by
  intro text value rest hmap
  obtain ⟨⟨v, rest'⟩, hread, heq⟩ := Option.map_eq_some_iff.mp hmap
  cases heq
  obtain ⟨taken, rfl, hsteady⟩ := h hread
  exact ⟨taken, rfl, fun later hlater => Option.map_eq_some_iff.mpr ⟨_, hsteady later hlater, rfl⟩⟩

/-! ## The readers of parts -/

theorem steadyDrop_word (word : List Char) : SteadyDrop (dropWord? word) := by
  intro text rest h
  obtain ⟨taken, rfl, hword⟩ := dropWord?_eq_some_iff_map.mp h
  exact ⟨taken, rfl, fun later _ => dropWord?_eq_some_iff_map.mpr ⟨taken, rfl, hword⟩⟩

/-- The first character of a beginning is that of the whole. -/
theorem mem_head?_of_begins {later rest : List Char} (h : later <+: rest) :
    ∀ c ∈ later.head?, c ∈ rest.head? := by
  obtain ⟨after, rfl⟩ := h
  intro c hc
  rw [List.head?_append, Option.mem_def.mp hc, Option.some_or]
  rfl

theorem steady_fixed (width : Nat) : Steady (takeFixed? width) := by
  intro text value rest h
  obtain ⟨digits, rfl, hdigits⟩ := takeFixed?_eq_some_iff.mp h
  exact ⟨digits, rfl, fun later _ => takeFixed?_eq_some_iff.mpr ⟨digits, rfl, hdigits⟩⟩

theorem steady_bounded (maximum : Nat) {shortest : Nat} (hshortest : 0 < shortest)
    (longest : Nat) : Steady (takeBounded? maximum shortest longest) := by
  intro text value rest h
  obtain ⟨digits, rfl, hdigits, hvalue, hlongest⟩ := (takeBounded?_eq_some_iff hshortest).mp h
  refine ⟨digits, rfl, fun later hlater => (takeBounded?_eq_some_iff hshortest).mpr
    ⟨digits, rfl, hdigits, hvalue, fun other hother => ?_⟩⟩
  exact hlongest other (hother.trans ((List.prefix_append_right_inj _).mpr hlater))

/-! ## Parts that may be left out -/

/-- A word that a text does not begin with is not at the beginning of less of it. -/
theorem dropWord?_eq_none_of_begins {word later text : List Char} (hlater : later <+: text)
    (h : dropWord? word text = none) : dropWord? word later = none := by
  cases hsome : dropWord? word later with
  | none => rfl
  | some rest =>
      obtain ⟨taken, rfl, hword⟩ := dropWord?_eq_some_iff_map.mp hsome
      obtain ⟨after, rfl⟩ := hlater
      rw [List.append_assoc, dropWord?_eq_some_iff_map.mpr ⟨taken, rfl, hword⟩] at h
      cases h

theorem takeBounded?_eq_none_of_begins {maximum shortest longest : Nat} {later text : List Char}
    (hshortest : 0 < shortest) (hlater : later <+: text)
    (h : takeBounded? maximum shortest longest text = none) :
    takeBounded? maximum shortest longest later = none := by
  rw [takeBounded?_eq_none_iff hshortest] at h ⊢
  exact fun digits hdigits => h digits (hdigits.trans hlater)

/-- A word may be dropped or left out. -/
theorem steadyDrop_optional (word : List Char) :
    SteadyDrop fun text => some ((dropWord? word text).getD text) := by
  intro text rest h
  cases hword : dropWord? word text with
  | none =>
      simp only [hword, Option.getD_none, Option.some.injEq] at h
      subst h
      refine ⟨[], rfl, fun later hlater => ?_⟩
      simp only [List.nil_append, dropWord?_eq_none_of_begins hlater hword, Option.getD_none]
  | some rest' =>
      simp only [hword, Option.getD_some, Option.some.injEq] at h
      subst h
      obtain ⟨taken, rfl, hsteady⟩ := steadyDrop_word word hword
      refine ⟨taken, rfl, fun later hlater => ?_⟩
      simp only [hsteady later hlater, Option.getD_some]

/-- The second after a colon. -/
theorem steady_second : Steady fun text => (dropWord? [':'] text).bind takeSixtieth? :=
  (steadyDrop_word [':']).bind (steady_bounded 59 Nat.one_pos 2)

theorem second_eq_none_of_begins {later text : List Char} (hlater : later <+: text)
    (h : (dropWord? [':'] text).bind takeSixtieth? = none) :
    (dropWord? [':'] later).bind takeSixtieth? = none := by
  cases hcolon : dropWord? [':'] later with
  | none => rfl
  | some rest =>
      obtain ⟨taken, rfl, hword⟩ := dropWord?_eq_some_iff_map.mp hcolon
      obtain ⟨after, rfl⟩ := hlater
      rw [List.append_assoc, dropWord?_eq_some_iff_map.mpr ⟨taken, rfl, hword⟩] at h
      exact takeBounded?_eq_none_of_begins Nat.one_pos (List.prefix_append rest after) h

/-! ## Seconds -/

section Seconds

variable {text rest : List Char} {second : Nat}

theorem readSeconds_none (h : (dropWord? [':'] text).bind takeSixtieth? = none) :
    readSeconds text = (0, 0, text) := by
  rw [readSeconds, h]

theorem readSeconds_point
    (h : (dropWord? [':'] text).bind takeSixtieth? = some (second, '.' :: rest)) :
    readSeconds text =
      (second, fractionMicros (rest.takeWhile Char.isDigit), rest.dropWhile Char.isDigit) := by
  simp only [readSeconds, h]

theorem readSeconds_whole (h : (dropWord? [':'] text).bind takeSixtieth? = some (second, rest))
    (hpoint : '.' ∉ rest.head?) : readSeconds text = (second, 0, rest) := by
  rw [readSeconds, h]
  split
  · next heq => cases heq
  · next heq =>
      cases heq
      exact absurd rfl hpoint
  · next heq =>
      cases heq
      rfl

/-- The point of a fraction follows the second, or no fraction does. -/
theorem point_cases (rest : List Char) : (∃ after, rest = '.' :: after) ∨ '.' ∉ rest.head? := by
  cases rest with
  | nil => exact Or.inr (by simp)
  | cons c after =>
      by_cases hc : c = '.'
      · exact Or.inl ⟨after, by rw [hc]⟩
      · exact Or.inr (by simpa using hc)

end Seconds

/-- The seconds, with the pair of what they denote. -/
theorem steady_seconds : Steady fun text =>
    some (((readSeconds text).1, (readSeconds text).2.1), (readSeconds text).2.2) := by
  intro text value rest h
  cases hsecond : (dropWord? [':'] text).bind takeSixtieth? with
  | none =>
      simp only [readSeconds_none hsecond, Option.some.injEq, Prod.mk.injEq] at h
      obtain ⟨rfl, rfl⟩ := h
      refine ⟨[], rfl, fun later hlater => ?_⟩
      simp only [List.nil_append, readSeconds_none (second_eq_none_of_begins hlater hsecond)]
  | some found =>
      obtain ⟨second, after⟩ := found
      obtain ⟨taken, htext, hsteady⟩ := steady_second hsecond
      rcases point_cases after with ⟨fraction, rfl⟩ | hpoint
      · simp only [readSeconds_point hsecond, Option.some.injEq, Prod.mk.injEq] at h
        obtain ⟨rfl, hrest⟩ := h
        obtain ⟨hsplit, hdigits, hhead⟩ := takeWhile_dropWhile_iff.mp ⟨rfl, hrest⟩
        refine ⟨taken ++ '.' :: fraction.takeWhile Char.isDigit, ?_, fun later hlater => ?_⟩
        · rw [htext, List.append_assoc, List.cons_append, ← hsplit]
        · obtain ⟨htake, hdrop⟩ := takeWhile_dropWhile_iff.mpr
            ⟨rfl, hdigits, fun c hc => hhead c (mem_head?_of_begins hlater c hc)⟩
          have hbefore : '.' :: (fraction.takeWhile Char.isDigit ++ later) <+: '.' :: fraction := by
            conv => rhs; rw [hsplit]
            exact (List.prefix_cons_inj _).mpr ((List.prefix_append_right_inj _).mpr hlater)
          rw [List.append_assoc, List.cons_append]
          simp only [readSeconds_point (hsteady _ hbefore), htake, hdrop]
      · simp only [readSeconds_whole hsecond hpoint, Option.some.injEq, Prod.mk.injEq] at h
        obtain ⟨rfl, rfl⟩ := h
        refine ⟨taken, htext, fun later hlater => ?_⟩
        have hpoint' : '.' ∉ later.head? :=
          fun hmem => hpoint (mem_head?_of_begins hlater _ hmem)
        simp only [readSeconds_whole (hsteady later hlater) hpoint']

/-! ## Offsets and timestamps -/

theorem steady_offsetSize : Steady readOffsetSize? := by
  refine (steady_bounded 23 Nat.one_pos 2).bind fun hours => ?_
  have hminutes : Steady fun text =>
      (takeSixtieth? text).map fun minutes => (hours * 60 + minutes.1, minutes.2) :=
    (steady_bounded 59 Nat.one_pos 2).map _
  have h := (steadyDrop_optional [':']).bind hminutes
  simp only [Option.map_eq_bind] at h
  exact h

theorem steady_zone : Steady readZone? := by
  intro text value rest h
  cases hutc : dropWord? ['z'] text with
  | some after =>
      simp only [readZone?, hutc, Option.some.injEq, Prod.mk.injEq] at h
      obtain ⟨rfl, rfl⟩ := h
      obtain ⟨taken, rfl, hsteady⟩ := steadyDrop_word ['z'] hutc
      refine ⟨taken, rfl, fun later hlater => ?_⟩
      simp only [readZone?, hsteady later hlater]
  | none =>
      -- A sign is not lowered to a letter, so that nothing has to be known of what follows it.
      have hplus : ∀ after, dropWord? ['z'] ('+' :: after) = none := fun _ => rfl
      have hminus : ∀ after, dropWord? ['z'] ('-' :: after) = none := fun _ => rfl
      simp only [readZone?, hutc] at h
      split at h
      · next after =>
          obtain ⟨taken, rfl, hsteady⟩ := steady_offsetSize.map (fun n : Nat => (n : Int)) h
          refine ⟨'+' :: taken, rfl, fun later hlater => ?_⟩
          simp only [readZone?, List.cons_append, hplus]
          exact hsteady later hlater
      · next after =>
          obtain ⟨taken, rfl, hsteady⟩ := steady_offsetSize.map (fun n : Nat => -(n : Int)) h
          refine ⟨'-' :: taken, rfl, fun later hlater => ?_⟩
          simp only [readZone?, List.cons_append, hminus]
          exact hsteady later hlater
      · cases h

/-- A timestamp is the same one when less follows it. -/
theorem steady_moment : Steady readMoment? := by
  refine (steady_fixed 4).bind fun year => ?_
  refine (steadyDrop_word ['-']).bind ?_
  refine (steady_fixed 2).bind fun month => ?_
  refine (steadyDrop_word ['-']).bind ?_
  refine (steady_fixed 2).bind fun dayOfMonth => ?_
  refine (steadyDrop_word ['t']).bind ?_
  refine (steady_bounded 23 Nat.one_pos 2).bind fun hour => ?_
  refine (steadyDrop_word [':']).bind ?_
  refine (steady_bounded 59 Nat.one_pos 2).bind fun minute => ?_
  have hinstant : ∀ (second microsecond : Nat) (offset : Int), Steady fun text =>
      (Instant.ofFields? year month dayOfMonth hour minute second microsecond).bind fun wall =>
        (wall.shift? (-(offset * microsPerMinute))).bind fun i => some (i, text) := by
    intro second microsecond offset
    have h := Steady.pure ((Instant.ofFields? year month dayOfMonth hour minute second
      microsecond).bind fun wall => wall.shift? (-(offset * microsPerMinute)))
    simp only [Option.map_eq_bind, Option.bind_assoc] at h
    exact h
  have hclock : ∀ clock : Nat × Nat, Steady fun text => (readZone? text).bind fun zone =>
      (Instant.ofFields? year month dayOfMonth hour minute clock.1 clock.2).bind fun wall =>
        (wall.shift? (-(zone.1 * microsPerMinute))).bind fun i => some (i, zone.2) :=
    fun clock => steady_zone.bind fun offset => hinstant clock.1 clock.2 offset
  have h : Steady fun text =>
      (some (((readSeconds text).1, (readSeconds text).2.1), (readSeconds text).2.2)).bind fun x =>
        (readZone? x.2).bind fun zone =>
          (Instant.ofFields? year month dayOfMonth hour minute x.1.1 x.1.2).bind fun wall =>
            (wall.shift? (-(zone.1 * microsPerMinute))).bind fun i => some (i, zone.2) :=
    steady_seconds.bind hclock
  exact h

end Deferral
