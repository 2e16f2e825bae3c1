/-
# Deferral.Proofs.Directive.Locality -- no phrase reaches beyond the next `@`

Apart from its own first character no phrase of a directive contains an `@`. A reader
that begins before an `@` therefore does the same whatever stands after that sign: it
fails in both texts, or it gives the same value and stops at the same place. Two texts
that agree up to an `@` are related by `MeetAt`, and every reader respects the relation.
-/

import Deferral.Directive.Grammar
import Deferral.Proofs.Directive.Parts

namespace Deferral

variable {α β γ δ : Type} {t u a b : List Char}

/-- Two texts begin alike and without an `@`, and then an `@` stands in both. What is
after it is `t` in the first text and `u` in the second. -/
def MeetAt (t u a b : List Char) : Prop :=
  ∃ common, '@' ∉ common ∧ a = common ++ '@' :: t ∧ b = common ++ '@' :: u

/-- Two readings have the same value, and what they leave of their texts meets. -/
def SameReading (t u : List Char) (x y : α × List Char) : Prop :=
  x.1 = y.1 ∧ MeetAt t u x.2 y.2

/-- Steps that respect relations respect them one after the other. -/
theorem rel_bind {R : α → β → Prop} {S : γ → δ → Prop} {o : Option α} {p : Option β}
    {f : α → Option γ} {g : β → Option δ} (h : Option.Rel R o p)
    (hfg : ∀ x y, R x y → Option.Rel S (f x) (g y)) : Option.Rel S (o.bind f) (p.bind g) := by
  cases h with
  | none => exact .none
  | some h => exact hfg _ _ h

/-- Both steps succeed, or neither does. -/
theorem isSome_eq_of_rel {R : α → β → Prop} {o : Option α} {p : Option β} (h : Option.Rel R o p) :
    o.isSome = p.isSome := by
  cases h <;> rfl

theorem none_iff_of_rel {R : α → β → Prop} {o : Option α} {p : Option β} (h : Option.Rel R o p) :
    o = none ↔ p = none := by
  cases h <;> simp

/-! ## Texts that meet -/

namespace MeetAt

/-- Wherever two texts with the same beginning go on with an `@`, they meet at the first `@`. -/
theorem of_append (start t u : List Char) :
    ∃ t' u', MeetAt t' u' (start ++ '@' :: t) (start ++ '@' :: u) := by
  induction start with
  | nil => exact ⟨t, u, [], by simp, rfl, rfl⟩
  | cons c start ih =>
      by_cases hc : c = '@'
      · subst hc
        exact ⟨start ++ '@' :: t, start ++ '@' :: u, [], by simp, rfl, rfl⟩
      · obtain ⟨t', u', common, hat, ht, hu⟩ := ih
        refine ⟨t', u', c :: common, ?_, by rw [List.cons_append, ht]; rfl,
          by rw [List.cons_append, hu]; rfl⟩
        rintro (_ | ⟨_, hmem⟩)
        · exact hc rfl
        · exact hat hmem

theorem takeWhile_eq {p : Char → Bool} (hp : p '@' = false) (h : MeetAt t u a b) :
    a.takeWhile p = b.takeWhile p := by
  obtain ⟨common, -, rfl, rfl⟩ := h
  induction common with
  | nil => simp [hp]
  | cons c common ih =>
      rw [List.cons_append, List.cons_append, List.takeWhile_cons, List.takeWhile_cons, ih]

theorem dropWhile {p : Char → Bool} (hp : p '@' = false) (h : MeetAt t u a b) :
    MeetAt t u (a.dropWhile p) (b.dropWhile p) := by
  obtain ⟨common, hat, rfl, rfl⟩ := h
  induction common with
  | nil => exact ⟨[], by simp, by simp [hp], by simp [hp]⟩
  | cons c common ih =>
      rw [List.cons_append, List.cons_append, List.dropWhile_cons, List.dropWhile_cons]
      split
      · exact ih fun hmem => hat (List.mem_cons_of_mem c hmem)
      · exact ⟨c :: common, hat, rfl, rfl⟩

/-- The characters before the `@` are the same ones. -/
theorem take_eq {common : List Char} {n : Nat} (hn : n ≤ common.length) :
    (common ++ '@' :: t).take n = (common ++ '@' :: u).take n := by
  rw [List.take_append_of_le_length hn, List.take_append_of_le_length hn]

theorem drop {common : List Char} (hat : '@' ∉ common) {n : Nat} (hn : n ≤ common.length) :
    MeetAt t u ((common ++ '@' :: t).drop n) ((common ++ '@' :: u).drop n) := by
  refine ⟨common.drop n, fun hmem => hat (List.mem_of_mem_drop hmem), ?_, ?_⟩
  · rw [List.drop_append_of_le_length hn]
  · rw [List.drop_append_of_le_length hn]

/-- What was taken from two texts on the way to two places where they meet is the same. -/
theorem taken_eq {a' b' : List Char} (h : MeetAt t u a b) (h' : MeetAt t u a' b') :
    a.take (a.length - a'.length) = b.take (b.length - b'.length) := by
  obtain ⟨common, -, rfl, rfl⟩ := h
  obtain ⟨common', -, rfl, rfl⟩ := h'
  have hlength : ∀ v : List Char, (common ++ '@' :: v).length - (common' ++ '@' :: v).length =
      common.length - common'.length := by
    intro v
    simp only [List.length_append]
    omega
  rw [hlength, hlength]
  exact take_eq (Nat.sub_le _ _)

end MeetAt

/-! ## Words and blanks -/

theorem dropWord?_rel {word : List Char} (hword : '@' ∉ word) (h : MeetAt t u a b) :
    Option.Rel (MeetAt t u) (dropWord? word a) (dropWord? word b) := by
  induction word generalizing a b with
  | nil => exact .some h
  | cons w word ih =>
      obtain ⟨common, hat, rfl, rfl⟩ := h
      cases common with
      | nil =>
          have hw : ¬ lowerToAscii '@' = w := fun heq => hword (heq ▸ by simp [lowerToAscii])
          rw [List.nil_append, List.nil_append, dropWord?, dropWord?, if_neg hw, if_neg hw]
          exact .none
      | cons c common =>
          rw [List.cons_append, List.cons_append, dropWord?, dropWord?]
          split
          · refine ih (fun hmem => hword (List.mem_cons_of_mem w hmem)) ⟨common, ?_, rfl, rfl⟩
            exact fun hmem => hat (List.mem_cons_of_mem c hmem)
          · exact .none

/-- A word that may be left out is there in both texts or in neither. -/
theorem dropOptional_rel {word : List Char} (hword : '@' ∉ word) (h : MeetAt t u a b) :
    MeetAt t u ((dropWord? word a).getD a) ((dropWord? word b).getD b) := by
  have hdrop := dropWord?_rel hword h
  generalize dropWord? word a = x at hdrop ⊢
  generalize dropWord? word b = y at hdrop ⊢
  cases hdrop with
  | none => exact h
  | some hmeet => exact hmeet

/-- A token takes its own `@` and stops before the next one. -/
theorem dropToken?_rel {word : List Char} (hword : '@' ∉ word) (c : Char) (h : MeetAt t u a b) :
    Option.Rel (MeetAt t u) (dropWord? ('@' :: word) (c :: a))
      (dropWord? ('@' :: word) (c :: b)) := by
  rw [dropWord?, dropWord?]
  split
  · exact dropWord?_rel hword h
  · exact .none

theorem dropBlanks?_rel (h : MeetAt t u a b) :
    Option.Rel (MeetAt t u) (dropBlanks? a) (dropBlanks? b) := by
  have hat : isBlank '@' = false := by decide
  obtain ⟨common, hcommon, rfl, rfl⟩ := h
  cases common with
  | nil =>
      rw [List.nil_append, List.nil_append, dropBlanks?, dropBlanks?, hat]
      exact .none
  | cons c common =>
      rw [List.cons_append, List.cons_append, dropBlanks?, dropBlanks?]
      split
      · refine .some (MeetAt.dropWhile hat ⟨common, ?_, rfl, rfl⟩)
        exact fun hmem => hcommon (List.mem_cons_of_mem c hmem)
      · exact .none

theorem dropOneOf?_rel {words : List (List Char × α)} (hwords : ∀ word ∈ words, '@' ∉ word.1)
    (h : MeetAt t u a b) :
    Option.Rel (SameReading t u) (dropOneOf? words a) (dropOneOf? words b) := by
  induction words with
  | nil => exact .none
  | cons word words ih =>
      obtain ⟨hword, hrest⟩ := List.forall_mem_cons.mp hwords
      have hdrop := dropWord?_rel hword h
      simp only [dropOneOf?, List.findSome?_cons]
      generalize dropWord? word.1 a = x at hdrop ⊢
      generalize dropWord? word.1 b = y at hdrop ⊢
      cases hdrop with
      | none => exact ih hrest
      | some hmeet => exact .some ⟨rfl, hmeet⟩

/-! ## Numbers -/

/-- Digits end before the `@`, however many characters are looked at. -/
theorem takeWhile_take_eq {p : Char → Bool} (hp : p '@' = false) (common v : List Char) (n : Nat) :
    ((common ++ '@' :: v).take n).takeWhile p = (common.take n).takeWhile p := by
  induction common generalizing n with
  | nil => cases n <;> simp [hp]
  | cons c common ih =>
      cases n with
      | zero => rfl
      | succ n =>
          rw [List.cons_append, List.take_succ_cons, List.take_succ_cons, List.takeWhile_cons,
            List.takeWhile_cons, ih]

theorem takeFixed?_rel (width : Nat) (h : MeetAt t u a b) :
    Option.Rel (SameReading t u) (takeFixed? width a) (takeFixed? width b) := by
  obtain ⟨common, hat, rfl, rfl⟩ := h
  rcases Nat.lt_or_ge common.length width with hlong | hfits
  · -- The `@` is among the characters that would have to be digits.
    have hnone : ∀ v, takeFixed? width (common ++ '@' :: v) = none := by
      intro v
      have hmem : '@' ∈ (common ++ '@' :: v).take width := by
        obtain ⟨n, hn⟩ := Nat.exists_eq_succ_of_ne_zero (Nat.sub_ne_zero_of_lt hlong)
        rw [List.take_append, hn, List.take_succ_cons]
        simp
      rw [takeFixed?, if_neg]
      rintro ⟨-, hdigits⟩
      exact absurd (List.all_eq_true.mp hdigits _ hmem) (by decide)
    rw [hnone, hnone]
    exact .none
  · rw [takeFixed?, takeFixed?, MeetAt.take_eq hfits (u := u)]
    split
    · exact .some ⟨rfl, MeetAt.drop hat hfits⟩
    · exact .none

/-- Admissible digits stand before the `@`. -/
theorem Admissible.begins_iff {maximum shortest longest : Nat} {digits common : List Char}
    (h : Admissible maximum shortest longest digits) (v : List Char) :
    digits <+: common ++ '@' :: v ↔ digits <+: common := by
  have hiff : ∀ text, digits <+: text ↔ digits <+: (text.take longest).takeWhile Char.isDigit :=
    fun text => ⟨h.begins_digits, fun hbegins => (prefix_digits_iff.mp hbegins).1⟩
  rw [hiff, takeWhile_take_eq (by decide), ← hiff]

theorem takeBounded?_rel (maximum : Nat) {shortest : Nat} (hshortest : 0 < shortest) (longest : Nat)
    (h : MeetAt t u a b) :
    Option.Rel (SameReading t u) (takeBounded? maximum shortest longest a)
      (takeBounded? maximum shortest longest b) := by
  obtain ⟨common, hat, rfl, rfl⟩ := h
  rcases takeBounded?_outcome hshortest maximum longest common with ⟨digits, h, -⟩ | ⟨hnone, -⟩
  · have hlongest : ∀ v,
        LongestAdmissible maximum shortest longest (common ++ '@' :: v) digits := fun v =>
      ⟨(h.admissible.begins_iff v).mpr h.begins, h.admissible,
        fun other hother hadmissible => h.length_le other
          ((hadmissible.begins_iff v).mp hother) hadmissible⟩
    rw [takeBounded?_of_longest hshortest (hlongest t),
      takeBounded?_of_longest hshortest (hlongest u)]
    exact .some ⟨rfl, MeetAt.drop hat h.begins.length_le⟩
  · have hnone' : ∀ v, takeBounded? maximum shortest longest (common ++ '@' :: v) = none := fun v =>
      (takeBounded?_eq_none_iff hshortest).mpr fun digits hdigits hadmissible =>
        hnone digits ((hadmissible.begins_iff v).mp hdigits) hadmissible
    rw [hnone', hnone']
    exact .none

theorem takeDigits?_rel (h : MeetAt t u a b) :
    Option.Rel (SameReading t u) (takeDigits? a) (takeDigits? b) := by
  have hdigit : Char.isDigit '@' = false := by decide
  rw [takeDigits?, takeDigits?, h.takeWhile_eq hdigit]
  split
  · exact .none
  · exact .some ⟨rfl, h.dropWhile hdigit⟩

/-! ## Timestamps -/

/-- Seconds are read alike, and what is left of the texts meets. -/
theorem readSeconds_rel (h : MeetAt t u a b) :
    (readSeconds a).1 = (readSeconds b).1 ∧
      SameReading t u (readSeconds a).2 (readSeconds b).2 := by
  have hdigit : Char.isDigit '@' = false := by decide
  have hread : Option.Rel (SameReading t u) ((dropWord? [':'] a).bind takeSixtieth?)
      ((dropWord? [':'] b).bind takeSixtieth?) :=
    rel_bind (dropWord?_rel (by decide) h) fun _ _ => takeBounded?_rel 59 Nat.one_pos 2
  rw [readSeconds, readSeconds]
  generalize (dropWord? [':'] a).bind takeSixtieth? = x at hread ⊢
  generalize (dropWord? [':'] b).bind takeSixtieth? = y at hread ⊢
  cases hread with
  | none => exact ⟨rfl, rfl, h⟩
  | @some x y hxy =>
      obtain ⟨second, _⟩ := x
      obtain ⟨_, _⟩ := y
      obtain ⟨rfl, common, hat, rfl, rfl⟩ := hxy
      cases common with
      | nil => exact ⟨rfl, rfl, [], hat, rfl, rfl⟩
      | cons c common =>
          by_cases hc : c = '.'
          · have hmeet : MeetAt t u (common ++ '@' :: t) (common ++ '@' :: u) :=
              ⟨common, fun hmem => hat (List.mem_cons_of_mem c hmem), rfl, rfl⟩
            subst hc
            refine ⟨rfl, ?_, hmeet.dropWhile hdigit⟩
            exact congrArg fractionMicros (hmeet.takeWhile_eq hdigit)
          · -- The clock ends here in both texts, and nothing else is taken.
            dsimp only [List.cons_append]
            split
            · next heq => cases heq
            · next heq =>
                cases heq
                exact absurd rfl hc
            · next heq =>
                cases heq
                split
                · next heq => cases heq
                · next heq =>
                    cases heq
                    exact absurd rfl hc
                · next heq =>
                    cases heq
                    exact ⟨rfl, rfl, c :: common, hat, rfl, rfl⟩

theorem readOffsetSize?_rel (h : MeetAt t u a b) :
    Option.Rel (SameReading t u) (readOffsetSize? a) (readOffsetSize? b) := by
  refine rel_bind (takeBounded?_rel 23 Nat.one_pos 2 h) ?_
  rintro ⟨hours, x⟩ ⟨_, y⟩ ⟨rfl, hxy⟩
  refine rel_bind (takeBounded?_rel 59 Nat.one_pos 2 (dropOptional_rel (by decide) hxy)) ?_
  rintro ⟨minutes, x'⟩ ⟨_, y'⟩ ⟨rfl, hxy'⟩
  exact .some ⟨rfl, hxy'⟩

/-- What respects the relation does so under a change of the values. -/
theorem rel_map_value (f : α → β) {x y : Option (α × List Char)}
    (h : Option.Rel (SameReading t u) x y) :
    Option.Rel (SameReading t u) (x.map fun r => (f r.1, r.2)) (y.map fun r => (f r.1, r.2)) := by
  cases h with
  | none => exact .none
  | some h => exact .some ⟨congrArg f h.1, h.2⟩

theorem readZone?_rel (h : MeetAt t u a b) :
    Option.Rel (SameReading t u) (readZone? a) (readZone? b) := by
  have hz : Option.Rel (MeetAt t u) (dropWord? ['z'] a) (dropWord? ['z'] b) :=
    dropWord?_rel (by decide) h
  unfold readZone?
  generalize dropWord? ['z'] a = x at hz ⊢
  generalize dropWord? ['z'] b = y at hz ⊢
  cases hz with
  | some hmeet => exact .some ⟨rfl, hmeet⟩
  | none =>
      obtain ⟨common, hat, rfl, rfl⟩ := h
      cases common with
      | nil => exact .none
      | cons c common =>
          have hsize := readOffsetSize?_rel (t := t) (u := u)
            ⟨common, fun hmem => hat (List.mem_cons_of_mem c hmem), rfl, rfl⟩
          by_cases hplus : c = '+'
          · subst hplus
            exact rel_map_value (fun n : Nat => (n : Int)) hsize
          · by_cases hminus : c = '-'
            · subst hminus
              exact rel_map_value (fun n : Nat => -(n : Int)) hsize
            · dsimp only [List.cons_append]
              split
              · next heq => exact absurd (List.cons.inj heq).1 hplus
              · next heq => exact absurd (List.cons.inj heq).1 hminus
              · split
                · next heq => exact absurd (List.cons.inj heq).1 hplus
                · next heq => exact absurd (List.cons.inj heq).1 hminus
                · exact .none

theorem readMoment?_rel (h : MeetAt t u a b) :
    Option.Rel (SameReading t u) (readMoment? a) (readMoment? b) := by
  refine rel_bind (takeFixed?_rel 4 h) ?_
  rintro ⟨year, x⟩ ⟨_, y⟩ ⟨rfl, hxy⟩
  refine rel_bind (dropWord?_rel (by decide) hxy) fun x y hxy => ?_
  refine rel_bind (takeFixed?_rel 2 hxy) ?_
  rintro ⟨month, x⟩ ⟨_, y⟩ ⟨rfl, hxy⟩
  refine rel_bind (dropWord?_rel (by decide) hxy) fun x y hxy => ?_
  refine rel_bind (takeFixed?_rel 2 hxy) ?_
  rintro ⟨dayOfMonth, x⟩ ⟨_, y⟩ ⟨rfl, hxy⟩
  refine rel_bind (dropWord?_rel (by decide) hxy) fun x y hxy => ?_
  refine rel_bind (takeBounded?_rel 23 Nat.one_pos 2 hxy) ?_
  rintro ⟨hour, x⟩ ⟨_, y⟩ ⟨rfl, hxy⟩
  refine rel_bind (dropWord?_rel (by decide) hxy) fun x y hxy => ?_
  refine rel_bind (takeBounded?_rel 59 Nat.one_pos 2 hxy) ?_
  rintro ⟨minute, x⟩ ⟨_, y⟩ ⟨rfl, hxy⟩
  have hseconds := readSeconds_rel hxy
  dsimp only
  generalize readSeconds x = p at hseconds ⊢
  generalize readSeconds y = q at hseconds ⊢
  obtain ⟨second, microsecond, x⟩ := p
  obtain ⟨_, _, y⟩ := q
  obtain ⟨rfl, rfl, hxy⟩ := hseconds
  refine rel_bind (readZone?_rel hxy) ?_
  rintro ⟨offset, x⟩ ⟨_, y⟩ ⟨rfl, hxy⟩
  dsimp only
  cases Instant.ofFields? year month dayOfMonth hour minute second microsecond with
  | none => exact .none
  | some wall =>
      show Option.Rel _ ((wall.shift? _).bind _) ((wall.shift? _).bind _)
      cases wall.shift? (-(offset * microsPerMinute)) with
      | none => exact .none
      | some i => exact .some ⟨rfl, hxy⟩

/-! ## Phrases -/

/-- A publication is found in both texts or in neither, and it is the same one. The first
character is its own `@`. -/
theorem readPublication?_rel (c : Char) (h : MeetAt t u a b) :
    Option.Rel (SameReading t u) (readPublication? (c :: a)) (readPublication? (c :: b)) := by
  refine rel_bind (dropToken?_rel (by decide) c h) fun x y hxy => ?_
  refine rel_bind (dropBlanks?_rel hxy) fun x y hxy => ?_
  refine rel_bind (dropOneOf?_rel (by decide) hxy) ?_
  rintro ⟨_, x⟩ ⟨_, y⟩ ⟨-, hxy⟩
  refine rel_bind (dropBlanks?_rel hxy) fun x y hxy => ?_
  refine rel_bind (readMoment?_rel hxy) ?_
  rintro ⟨i, x'⟩ ⟨_, y'⟩ ⟨rfl, hxy'⟩
  refine .some ⟨?_, hxy'⟩
  rw [hxy.taken_eq hxy']

/-- A delay is found in both texts or in neither, and it is the same one. -/
theorem readDelay?_rel {word : List Char} (hword : '@' ∉ word) (c : Char) (h : MeetAt t u a b) :
    Option.Rel (SameReading t u) (readDelay? ('@' :: word) (c :: a))
      (readDelay? ('@' :: word) (c :: b)) := by
  refine rel_bind (dropToken?_rel hword c h) fun x y hxy => ?_
  refine rel_bind (dropBlanks?_rel hxy) fun x y hxy => ?_
  refine rel_bind (dropWord?_rel (by decide) hxy) fun x y hxy => ?_
  refine rel_bind (dropBlanks?_rel hxy) fun x y hxy => ?_
  refine rel_bind (takeDigits?_rel hxy) ?_
  rintro ⟨digits, x⟩ ⟨_, y⟩ ⟨rfl, hxy⟩
  refine rel_bind (dropBlanks?_rel hxy) fun x y hxy => ?_
  refine rel_bind (dropOneOf?_rel (by decide) hxy) ?_
  rintro ⟨unit, x⟩ ⟨_, y⟩ ⟨rfl, hxy⟩
  dsimp only
  split
  · exact .some ⟨rfl, dropOptional_rel (by decide) hxy⟩
  · exact .none

end Deferral
