/-
# Deferral.Proofs.Directive.Mentions -- where directives are looked for

A token is mentioned where it is spelled at the beginning of a text, or after a character
that is no part of a word and no accent. `MentionedAt` says so of a place, without the search
that finds the places. The search goes through exactly these places in ascending order, so
that the first complete phrase is the one at the least of them.
-/

import Deferral.Directive.Match
import Deferral.Proofs.Text.Caseless

namespace Deferral

variable {α β : Type} {token : List Char} {read : List Char → Option (α × List Char)}

/-- A token is spelled at a place of a text, and the place is the first one or follows a
character that is no letter, digit, underscore or accent. -/
structure MentionedAt (token text : List Char) (index : Nat) : Prop where
  boundary : index = 0 ∨
    ∃ c, text[index - 1]? = some c ∧ c ≠ '\x60' ∧ c.isAlphanum = false ∧ c ≠ '_'
  spelled : ∃ word rest, text.drop index = word ++ rest ∧ Spells token word

theorem isWordLetter_deleteToken : deleteToken.all isWordLetter = true := by decide

theorem isWordLetter_scheduleToken : scheduleToken.all isWordLetter = true := by decide

/-! ## The places of a search -/

/-- The character before a place, when `before` is the one before the text and `start`
is the text up to the place. -/
def charBefore (before : Option Char) : List Char → Option Char
  | [] => before
  | c :: start => charBefore (some c) start

/-- The places of a search divide the text after a boundary and before a token. -/
theorem mem_mentionsFrom_iff {before : Option Char} {index : Nat} {text : List Char}
    {place : Nat × List Char} (htoken : token ≠ []) :
    place ∈ mentionsFrom token before index text ↔
      ∃ start, text = start ++ place.2 ∧ place.1 = index + start.length ∧
        isBoundary (charBefore before start) = true ∧ startsWithWord token place.2 = true := by
  induction text generalizing before index with
  | nil =>
      obtain ⟨w, word, rfl⟩ := List.exists_cons_of_ne_nil htoken
      constructor
      · intro h
        cases h
      · rintro ⟨start, hnil, -, -, hword⟩
        obtain ⟨-, hplace⟩ := List.append_eq_nil_iff.mp hnil.symm
        rw [hplace] at hword
        cases hword
  | cons c text ih =>
      -- A place is here, where nothing is before it, or among the later ones.
      have hlater : place ∈ mentionsFrom token (some c) (index + 1) text ↔
          ∃ start, c :: text = c :: start ++ place.2 ∧
            place.1 = index + (c :: start).length ∧
            isBoundary (charBefore before (c :: start)) = true ∧
            startsWithWord token place.2 = true := by
        rw [ih]
        simp only [List.cons_append, List.cons_eq_cons, true_and, List.length_cons, charBefore,
          Nat.add_comm 1, Nat.add_assoc]
      have hhere : place = (index, c :: text) ∧
          (isBoundary before && startsWithWord token (c :: text)) = true ↔
          c :: text = [] ++ place.2 ∧ place.1 = index + ([] : List Char).length ∧
            isBoundary (charBefore before []) = true ∧ startsWithWord token place.2 = true := by
        obtain ⟨n, rest⟩ := place
        rw [Bool.and_eq_true, Prod.mk.injEq]
        constructor
        · rintro ⟨⟨rfl, rfl⟩, hboundary, hword⟩
          exact ⟨rfl, rfl, hboundary, hword⟩
        · rintro ⟨rfl, rfl, hboundary, hword⟩
          exact ⟨⟨rfl, rfl⟩, hboundary, hword⟩
      have hmem : place ∈ mentionsFrom token before index (c :: text) ↔
          (place = (index, c :: text) ∧
            (isBoundary before && startsWithWord token (c :: text)) = true) ∨
          place ∈ mentionsFrom token (some c) (index + 1) text := by
        rw [mentionsFrom]
        split
        · next h => simp [h]
        · next h => simp [h]
      rw [hmem, hlater, hhere]
      constructor
      · rintro (h | ⟨start, h⟩)
        · exact ⟨[], h⟩
        · exact ⟨c :: start, h⟩
      · rintro ⟨start, h⟩
        cases start with
        | nil => exact Or.inl h
        | cons c' start =>
            obtain rfl : c = c' := (List.cons.inj h.1).1
            exact Or.inr ⟨start, h⟩

/-- A search goes from left to right. -/
theorem pairwise_mentionsFrom (token : List Char) (before : Option Char) (index : Nat)
    (text : List Char) :
    (mentionsFrom token before index text).Pairwise (fun a b => a.1 < b.1) ∧
      ∀ place ∈ mentionsFrom token before index text, index ≤ place.1 := by
  induction text generalizing before index with
  | nil => exact ⟨List.Pairwise.nil, by simp [mentionsFrom]⟩
  | cons c text ih =>
      obtain ⟨hsorted, hfrom⟩ := ih (some c) (index + 1)
      rw [mentionsFrom]
      split
      · refine ⟨List.pairwise_cons.mpr ⟨hfrom, hsorted⟩, ?_⟩
        intro place hplace
        rcases List.mem_cons.mp hplace with rfl | hplace
        · exact Nat.le_refl _
        · exact Nat.le_of_succ_le (hfrom place hplace)
      · exact ⟨hsorted, fun place hplace => Nat.le_of_succ_le (hfrom place hplace)⟩

/-! ## Places and mentions -/

theorem charBefore_eq (before : Option Char) (start : List Char) :
    charBefore before start = start.getLast?.or before := by
  induction start generalizing before with
  | nil => rfl
  | cons c start ih =>
      rw [charBefore, ih, List.getLast?_cons]
      cases start.getLast? <;> rfl

theorem isBoundary_some_iff {c : Char} :
    isBoundary (some c) = true ↔ c ≠ '\x60' ∧ c.isAlphanum = false ∧ c ≠ '_' := by
  simp [isBoundary, isWordChar]

theorem isBoundary_charBefore_iff {start : List Char} (rest : List Char) :
    isBoundary (charBefore none start) = true ↔ start.length = 0 ∨
      ∃ c, (start ++ rest)[start.length - 1]? = some c ∧ c ≠ '\x60' ∧ c.isAlphanum = false ∧
        c ≠ '_' := by
  rw [charBefore_eq, Option.or_none]
  cases h : start.getLast? with
  | none =>
      rw [List.getLast?_eq_none_iff.mp h]
      exact iff_of_true rfl (Or.inl rfl)
  | some c =>
      have hne : start ≠ [] := by
        rintro rfl
        cases h
      have hlength := List.length_pos_iff.mpr hne
      have hlast : (start ++ rest)[start.length - 1]? = some c := by
        rw [List.getElem?_append_left (by omega), ← List.getLast?_eq_getElem?, h]
      simp only [isBoundary_some_iff, hlast, Option.some.injEq, exists_eq_left',
        Nat.ne_of_gt hlength, false_or]

theorem startsWithWord_iff (hword : token.all isWordLetter = true) {text : List Char} :
    startsWithWord token text = true ↔ ∃ word rest, text = word ++ rest ∧ Spells token word := by
  rw [startsWithWord, Option.isSome_iff_exists]
  simp only [dropWord?_eq_some_iff hword]
  exact exists_comm

/-- The places of a search are those where the token is mentioned. -/
theorem mem_mentions_iff (htoken : token ≠ []) (hword : token.all isWordLetter = true)
    {text : List Char} {place : Nat × List Char} :
    place ∈ mentions token text ↔ MentionedAt token text place.1 ∧ place.2 = text.drop place.1 := by
  rw [mentions, mem_mentionsFrom_iff htoken, startsWithWord_iff hword]
  simp only [Nat.zero_add]
  constructor
  · rintro ⟨start, rfl, hindex, hboundary, hspelled⟩
    have hdrop : (start ++ place.2).drop place.1 = place.2 := by rw [hindex, List.drop_left]
    refine ⟨⟨?_, by rw [hdrop]; exact hspelled⟩, hdrop.symm⟩
    rw [hindex]
    exact (isBoundary_charBefore_iff _).mp hboundary
  · rintro ⟨⟨hboundary, hspelled⟩, hrest⟩
    have hin : place.1 ≤ text.length := by
      rcases hboundary with h0 | ⟨c, hc, -⟩
      · omega
      · have := (List.getElem?_eq_some_iff.mp hc).1
        omega
    have hlength : (text.take place.1).length = place.1 := List.length_take_of_le hin
    have htext : text = text.take place.1 ++ place.2 := by rw [hrest, List.take_append_drop]
    refine ⟨text.take place.1, htext, hlength.symm, ?_, by rw [hrest]; exact hspelled⟩
    rw [isBoundary_charBefore_iff place.2, hlength, ← htext]
    exact hboundary

/-! ## The first phrase -/

/-- A search through ascending places ends at the least one where there is something. -/
theorem findSome?_eq_some_iff_of_ascending {places : List (Nat × List Char)}
    (hascending : places.Pairwise fun a b => a.1 < b.1) {f : Nat × List Char → Option β} {b : β} :
    places.findSome? f = some b ↔
      ∃ place ∈ places, f place = some b ∧ ∀ earlier ∈ places, earlier.1 < place.1 →
        f earlier = none := by
  rw [List.findSome?_eq_some_iff]
  constructor
  · rintro ⟨before, place, after, rfl, hplace, hbefore⟩
    refine ⟨place, by simp, hplace, fun earlier hmem hlt => ?_⟩
    obtain ⟨-, hafter, -⟩ := List.pairwise_append.mp hascending
    rcases List.mem_append.mp hmem with hmem | hmem
    · exact hbefore earlier hmem
    · rcases List.mem_cons.mp hmem with rfl | hmem
      · exact absurd hlt (Nat.lt_irrefl _)
      · exact absurd hlt (Nat.lt_asymm ((List.pairwise_cons.mp hafter).1 earlier hmem))
  · rintro ⟨place, hmem, hplace, hearlier⟩
    obtain ⟨before, after, rfl⟩ := List.append_of_mem hmem
    refine ⟨before, place, after, rfl, hplace, fun earlier hin => ?_⟩
    refine hearlier earlier (by simp [hin]) ?_
    exact (List.pairwise_append.mp hascending).2.2 earlier hin place (by simp)

theorem matchAt_eq_none_iff {place : Nat × List Char} :
    matchAt read place = none ↔ read place.2 = none := by
  rw [matchAt, Option.map_eq_none_iff]

theorem firstMatch_eq_of_findSome? {expected : String} {text : List Char} {m : Match α}
    (h : (mentions token text).findSome? (matchAt read) = some m) :
    firstMatch token read expected text = m := by
  rw [firstMatch]
  split
  · next hnil =>
      rw [hnil] at h
      cases h
  · rw [h, Option.getD_some]

theorem firstMatch_of_findSome?_eq_none {expected : String} {text : List Char}
    (hne : mentions token text ≠ [])
    (h : (mentions token text).findSome? (matchAt read) = none) :
    firstMatch token read expected text =
      .malformed (String.ofList token ++ " is not followed by " ++ expected) := by
  rw [firstMatch]
  split
  · next hnil => exact absurd hnil hne
  · rw [h, Option.getD_none]
    simp [toString]

/-- A search ends with a phrase, or every mention was in vain. -/
theorem firstMatch_cases (token : List Char) (read : List Char → Option (α × List Char))
    (expected : String) (text : List Char) :
    (∃ value start stop, firstMatch token read expected text = .found value start stop ∧
      (mentions token text).findSome? (matchAt read) = some (.found value start stop)) ∨
    ((∀ value start stop, firstMatch token read expected text ≠ .found value start stop) ∧
      (mentions token text).findSome? (matchAt read) = none) := by
  cases h : (mentions token text).findSome? (matchAt read) with
  | none =>
      refine Or.inr ⟨fun value start stop => ?_, rfl⟩
      rw [firstMatch]
      split
      · intro heq
        cases heq
      · rw [h, Option.getD_none]
        intro heq
        cases heq
  | some m =>
      obtain ⟨place, -, hplace⟩ := List.exists_of_findSome?_eq_some h
      obtain ⟨phrase, -, rfl⟩ := Option.map_eq_some_iff.mp hplace
      exact Or.inl ⟨_, _, _, firstMatch_eq_of_findSome? h, rfl⟩

section Words

variable (htoken : token ≠ []) (hword : token.all isWordLetter = true) {expected : String}
  {text : List Char}
include htoken hword

theorem mem_mentions {index : Nat} (h : MentionedAt token text index) :
    (index, text.drop index) ∈ mentions token text :=
  (mem_mentions_iff htoken hword).mpr ⟨h, rfl⟩

/-- A phrase is found at the least mention where one is complete. -/
theorem firstMatch_eq_found_iff {value : α} {start stop : Nat} :
    firstMatch token read expected text = .found value start stop ↔
      MentionedAt token text start ∧
      (∃ rest, read (text.drop start) = some (value, rest) ∧
        stop = start + ((text.drop start).length - rest.length)) ∧
      ∀ earlier < start, MentionedAt token text earlier → read (text.drop earlier) = none := by
  have hsearch : firstMatch token read expected text = .found value start stop ↔
      (mentions token text).findSome? (matchAt read) = some (.found value start stop) := by
    refine ⟨fun h => ?_, firstMatch_eq_of_findSome?⟩
    rcases firstMatch_cases token read expected text with ⟨_, _, _, hfound, hsome⟩ | ⟨hnot, -⟩
    · rw [h] at hfound
      cases hfound
      exact hsome
    · exact absurd h (hnot value start stop)
  rw [hsearch, mentions,
    findSome?_eq_some_iff_of_ascending (pairwise_mentionsFrom token none 0 text).1]
  constructor
  · rintro ⟨place, hmem, hplace, hearlier⟩
    obtain ⟨hat, hrest⟩ := (mem_mentions_iff htoken hword).mp hmem
    obtain ⟨⟨v, rest⟩, hread, hmatch⟩ := Option.map_eq_some_iff.mp hplace
    cases hmatch
    rw [hrest] at hread
    refine ⟨hat, ⟨rest, hread, by rw [hrest]⟩, fun earlier hlt hmention => ?_⟩
    exact matchAt_eq_none_iff.mp (hearlier _ (mem_mentions htoken hword hmention) hlt)
  · rintro ⟨hat, ⟨rest, hread, rfl⟩, hearlier⟩
    refine ⟨_, mem_mentions htoken hword hat, by rw [matchAt, hread]; rfl, ?_⟩
    intro earlier hmem hlt
    obtain ⟨hmention, hrest⟩ := (mem_mentions_iff htoken hword).mp hmem
    rw [matchAt_eq_none_iff, hrest]
    exact hearlier _ hlt hmention

theorem mentions_eq_nil_iff :
    mentions token text = [] ↔ ∀ index, ¬ MentionedAt token text index := by
  rw [List.eq_nil_iff_forall_not_mem]
  constructor
  · intro h index hmention
    exact h _ (mem_mentions htoken hword hmention)
  · intro h place hmem
    exact h _ ((mem_mentions_iff htoken hword).mp hmem).1

theorem mentionsToken_iff :
    mentionsToken token text = true ↔ ∃ index, MentionedAt token text index := by
  rw [mentionsToken, Bool.not_eq_true', List.isEmpty_eq_false_iff, ne_eq,
    mentions_eq_nil_iff htoken hword, not_forall_not]

/-- Nothing is said where the token is not mentioned. -/
theorem firstMatch_eq_absent_iff :
    firstMatch token read expected text = .absent ↔ ∀ index, ¬ MentionedAt token text index := by
  rw [← mentions_eq_nil_iff htoken hword]
  constructor
  · intro h
    by_contra hsome
    rcases firstMatch_cases token read expected text with ⟨_, _, _, hfound, -⟩ | ⟨-, hnone⟩
    · rw [h] at hfound
      cases hfound
    · rw [firstMatch_of_findSome?_eq_none hsome hnone] at h
      cases h
  · intro h
    rw [firstMatch, h]

/-- Mentions without a complete phrase are reported with the form that is expected. -/
theorem firstMatch_eq_malformed_iff {reason : String} :
    firstMatch token read expected text = .malformed reason ↔
      (∃ index, MentionedAt token text index) ∧
      (∀ index, MentionedAt token text index → read (text.drop index) = none) ∧
      reason = String.ofList token ++ " is not followed by " ++ expected := by
  have hsome : mentions token text ≠ [] ↔ ∃ index, MentionedAt token text index := by
    rw [ne_eq, mentions_eq_nil_iff htoken hword, not_forall_not]
  have hnone : (mentions token text).findSome? (matchAt read) = none ↔
      ∀ index, MentionedAt token text index → read (text.drop index) = none := by
    simp only [List.findSome?_eq_none_iff, matchAt_eq_none_iff]
    constructor
    · intro h index hmention
      exact h _ (mem_mentions htoken hword hmention)
    · intro h place hmem
      obtain ⟨hmention, hrest⟩ := (mem_mentions_iff htoken hword).mp hmem
      rw [hrest]
      exact h _ hmention
  rw [← hsome, ← hnone]
  constructor
  · intro h
    have hne : mentions token text ≠ [] := by
      intro hnil
      rw [firstMatch, hnil] at h
      cases h
    rcases firstMatch_cases token read expected text with ⟨_, _, _, hfound, -⟩ | ⟨-, hfails⟩
    · rw [h] at hfound
      cases hfound
    · rw [firstMatch_of_findSome?_eq_none hne hfails] at h
      cases h
      exact ⟨hne, hfails, rfl⟩
  · rintro ⟨hne, hfails, rfl⟩
    exact firstMatch_of_findSome?_eq_none hne hfails

end Words

end Deferral
