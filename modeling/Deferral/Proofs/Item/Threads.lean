/-
# Deferral.Proofs.Item.Threads -- the subtree of a deep comment

The path of a comment lists ids from the first comment of its thread to its own. The subtree in
which the comment is shown holds the end of this path: as many ids as the depth allows, less one.
Its root slides down the path with the replies and up with the depth. A depth of one is the
exception, since it leaves no id to count: the whole path is shown then.
-/

import Deferral.Item.Thread
import Deferral.Proofs.Directive.Parts

namespace Deferral

/-! ## Paths and their parts -/

theorem splitAtChar_eq_splitOn (separator : Char) (text : List Char) :
    splitAtChar separator text = text.splitOn separator := by
  induction text with
  | nil => rfl
  | cons c text ih =>
      rw [splitAtChar, ih, List.splitOn_cons_eq_if_modifyHead]
      by_cases hc : c = separator
      · rw [if_pos hc, if_pos (beq_iff_eq.mpr hc)]
      · rw [if_neg hc, if_neg (mt beq_iff_eq.mp hc)]
        -- There is a first part, and the character goes before it.
        cases hparts : text.splitOn separator with
        | nil => exact absurd hparts (List.splitOn_ne_nil separator text)
        | cons part parts => rfl

/-- Joined parts come apart again if none of them has the separator in it. -/
theorem splitAtChar_joinWith {separator : Char} {parts : List (List Char)} (hne : parts ≠ [])
    (hparts : ∀ part ∈ parts, separator ∉ part) :
    splitAtChar separator (joinWith [separator] parts) = parts := by
  rw [splitAtChar_eq_splitOn, joinWith, List.splitOn_intercalate separator hparts hne]

/-! ## Numerals of ids -/

/-- The numeral of an id: digits, after a minus sign if the id is negative. -/
structure IdNumeral where
  /-- There is a sign. -/
  negative : Bool
  /-- The digits. -/
  digits : List Char
  isDigit : ∀ c ∈ digits, c.isDigit = true
  digits_ne_nil : digits ≠ []

namespace IdNumeral

/-- The numeral as it stands in a path. -/
def text (id : IdNumeral) : List Char := if id.negative then '-' :: id.digits else id.digits

/-- The id that it denotes. -/
def value (id : IdNumeral) : Int := withSign id.negative (valueOfAscii id.digits)

/-- What reading the numeral gives: one that is too long is not converted. -/
def read (id : IdNumeral) : Except Failure Int :=
  if id.digits.length ≤ maxDigits then .ok id.value else .error .malformedNumber

variable (id : IdNumeral)

theorem mem_text {c : Char} (h : c ∈ id.text) : c = '-' ∨ c.isDigit = true := by
  rw [text] at h
  split at h
  · exact (List.mem_cons.mp h).imp_right (id.isDigit c)
  · exact Or.inr (id.isDigit c h)

theorem point_not_mem_text : '.' ∉ id.text := by
  intro h
  rcases id.mem_text h with hminus | hdigit
  · exact absurd hminus (by decide)
  · exact absurd hdigit (by decide)

theorem isNumeralBlank_of_mem_text {c : Char} (h : c ∈ id.text) : isNumeralBlank c = false := by
  rcases id.mem_text h with rfl | hdigit
  · decide
  · rw [isNumeralBlank, isBlank_of_isDigit hdigit, Bool.false_and]

theorem stripOf_text : stripOf isNumeralBlank id.text = id.text :=
  stripOf_of_ends (fun _ h => id.isNumeralBlank_of_mem_text (List.mem_of_mem_head? h))
    (fun _ h => id.isNumeralBlank_of_mem_text (List.mem_of_getLast? h))

theorem splitSign_text : splitSign id.text = (id.negative, id.digits) := by
  rw [text]
  cases hsign : id.negative with
  | true => rfl
  | false =>
      obtain ⟨c, digits, hdigits⟩ := List.exists_cons_of_ne_nil id.digits_ne_nil
      have hc : c.isDigit = true := id.isDigit c (hdigits ▸ List.mem_cons_self)
      rw [if_neg Bool.false_ne_true, hdigits]
      unfold splitSign
      split
      · next heq =>
          rw [(List.cons.inj heq).1] at hc
          exact absurd hc (by decide)
      · next heq =>
          rw [(List.cons.inj heq).1] at hc
          exact absurd hc (by decide)
      · rfl

theorem readInteger?_text :
    readInteger? id.text = if id.digits.length ≤ maxDigits then some id.value else none := by
  rw [readInteger?, stripOf_text, splitSign_text]
  show (digitValues? id.digits >>= _) = _
  rw [digitValues?_of_isDigit id.digits_ne_nil id.isDigit]
  show (if (id.digits.map asciiDigitValue).length ≤ maxDigits then _ else _) = _
  rw [List.length_map]
  rfl

end IdNumeral

/-! ## The end of a path -/

section LastParts

variable {α β : Type} {parts : List α} {count : Int}

/-- No part is left out for zero, and as many as there are too many for more. -/
theorem lastParts_eq_drop (h : 0 ≤ count) :
    lastParts parts count = parts.drop (if count = 0 then 0 else parts.length - count.toNat) := by
  rw [lastParts]
  split
  · next hpos => rw [if_neg (by omega)]
  · next hnot =>
      have hzero : count = 0 := by omega
      rw [hzero]
      rfl

theorem lastParts_map (f : α → β) (parts : List α) (count : Int) :
    lastParts (parts.map f) count = (lastParts parts count).map f := by
  rw [lastParts, lastParts]
  split <;> simp only [List.map_drop, List.length_map]

theorem lastParts_suffix (h : 0 ≤ count) : lastParts parts count <:+ parts := by
  rw [lastParts_eq_drop h]
  exact List.drop_suffix _ parts

theorem length_lastParts (h : 0 < count) :
    (lastParts parts count).length = min parts.length count.toNat := by
  rw [lastParts_eq_drop (by omega), if_neg (by omega), List.length_drop]
  omega

/-- One more part at the end: none is left out for it, or the first of those that were there. -/
theorem lastParts_append_singleton (h : 0 ≤ count) (part : α) :
    lastParts (parts ++ [part]) count = lastParts parts count ++ [part] ∨
      lastParts (parts ++ [part]) count = (lastParts parts count).tail ++ [part] := by
  rw [lastParts_eq_drop h, lastParts_eq_drop h, List.length_append, List.length_singleton]
  by_cases hzero : count = 0
  · rw [if_pos hzero, if_pos hzero]
    exact Or.inl rfl
  rw [if_neg hzero, if_neg hzero]
  by_cases hfew : parts.length < count.toNat
  · -- All parts are kept, before and after.
    have hbefore : parts.length - count.toNat = 0 := by omega
    have hafter : parts.length + 1 - count.toNat = 0 := by omega
    rw [hbefore, hafter]
    exact Or.inl rfl
  · have hafter : parts.length + 1 - count.toNat = parts.length - count.toNat + 1 := by omega
    have hle : parts.length - count.toNat + 1 ≤ parts.length := by omega
    rw [hafter, List.drop_append_of_le_length hle, List.tail_drop]
    exact Or.inr rfl

end LastParts

/-! ## The root of the subtree -/

/-- The path of a comment. -/
def pathOf (ids : List IdNumeral) : Value :=
  .text (String.ofList (joinWith ['.'] (ids.map IdNumeral.text)))

/-- The ids of a path that the subtree shows. -/
def shownIds (ids : List IdNumeral) (limit : Int) : List IdNumeral := lastParts ids (limit - 1)

section Subtree

variable {ids : List IdNumeral} {limit : Int}

theorem splitAtChar_path (hids : ids ≠ []) :
    splitAtChar '.' (joinWith ['.'] (ids.map IdNumeral.text)) = ids.map IdNumeral.text := by
  apply splitAtChar_joinWith
  · exact mt List.map_eq_nil_iff.mp hids
  · intro part hpart
    obtain ⟨id, -, rfl⟩ := List.mem_map.mp hpart
    exact id.point_not_mem_text

/-- The root is the first id that is shown. -/
theorem subtreeRoot_pathOf {root : IdNumeral} {below : List IdNumeral} (hids : ids ≠ [])
    (hshown : shownIds ids limit = root :: below) :
    (pathOf ids).subtreeRoot (.int limit) = root.read := by
  show subtreeRoot (String.ofList _).toList limit = root.read
  have hparts : lastParts (ids.map IdNumeral.text) (limit - 1) =
      root.text :: below.map IdNumeral.text := by
    rw [lastParts_map]
    exact congrArg (List.map IdNumeral.text) hshown
  rw [String.toList_ofList, subtreeRoot, splitAtChar_path hids, hparts]
  simp only [root.readInteger?_text, IdNumeral.read]
  by_cases hshort : root.digits.length ≤ maxDigits
  · rw [if_pos hshort, if_pos hshort]
  · rw [if_neg hshort, if_neg hshort]

theorem shownIds_suffix (ids : List IdNumeral) (h : 1 ≤ limit) : shownIds ids limit <:+ ids :=
  lastParts_suffix (by omega)

/-- A depth of one shows the whole path. -/
theorem shownIds_one : shownIds ids 1 = ids := rfl

theorem length_shownIds (h : 1 < limit) :
    (shownIds ids limit).length = min ids.length (limit - 1).toNat :=
  length_lastParts (by omega)

/-- A reply is shown below all that was shown, or in place of its first id. -/
theorem shownIds_append_singleton (ids : List IdNumeral) (h : 1 ≤ limit) (reply : IdNumeral) :
    shownIds (ids ++ [reply]) limit = shownIds ids limit ++ [reply] ∨
      shownIds (ids ++ [reply]) limit = (shownIds ids limit).tail ++ [reply] :=
  lastParts_append_singleton (by omega) reply

/-- Some id is shown of every path. -/
theorem length_shownIds_pos (hids : ids ≠ []) (h : 1 ≤ limit) :
    0 < (shownIds ids limit).length := by
  have hpos := List.length_pos_iff.mpr hids
  rcases h.eq_or_lt with rfl | h
  · exact hpos
  · rw [length_shownIds h]
    omega

/-- The depths that show as many ids as one less than the depth, and at least the last one. -/
theorem length_shownIds_iff (hids : ids ≠ []) (h : 1 ≤ limit) :
    (shownIds ids limit).length = min ids.length (max 1 (limit - 1)).toNat ↔
      1 < limit ∨ ids.length = 1 := by
  have hpos := List.length_pos_iff.mpr hids
  rcases h.eq_or_lt with rfl | h
  · rw [shownIds_one]
    omega
  · rw [length_shownIds h]
    omega

/-- The depths from which on more depth shows no fewer ids. -/
theorem length_shownIds_le_iff (hids : ids ≠ []) (h : 1 ≤ limit) :
    (∀ larger, limit ≤ larger → (shownIds ids limit).length ≤ (shownIds ids larger).length) ↔
      1 < limit ∨ ids.length = 1 := by
  constructor
  · intro hle
    by_contra hnot
    obtain rfl : limit = 1 := by omega
    -- Two levels show one id, and a path of several ids has more.
    have htwo := hle 2 (by decide)
    rw [shownIds_one, length_shownIds (by decide)] at htwo
    have hone : (2 - 1 : Int).toNat = 1 := rfl
    have hpos := List.length_pos_iff.mpr hids
    omega
  · intro hslides larger hlarger
    rcases hslides with hlimit | hone
    · rw [length_shownIds hlimit, length_shownIds (hlimit.trans_le hlarger)]
      omega
    · have hshort := (shownIds_suffix ids h).length_le
      have hsome := length_shownIds_pos hids (h.trans hlarger)
      omega

/-- **The root of the subtree slides with the depth.** It is the id from which on the path is shown,
and it is read unless it has too many digits. The ids from it to the leaf are one fewer than the
depth, as far as there are so many, and no larger depth shows fewer, exactly if the depth is not
one or the path has but one id; for a depth of one nothing stands above the root. A reply below the
leaf leaves the root where it is or moves it to the next id. -/
theorem subtreeRoot_slides (hids : ids ≠ []) (hlimit : 1 ≤ limit) :
    ∃ above root below, ids = above ++ root :: below ∧ shownIds ids limit = root :: below ∧
      (pathOf ids).subtreeRoot (.int limit) = root.read ∧
      (below.length + 1 = min ids.length (max 1 (limit - 1)).toNat ↔
        1 < limit ∨ ids.length = 1) ∧
      ((∀ larger, limit ≤ larger → below.length + 1 ≤ (shownIds ids larger).length) ↔
        1 < limit ∨ ids.length = 1) ∧
      (limit = 1 → above = []) ∧
      ∀ reply, shownIds (ids ++ [reply]) limit = root :: below ++ [reply] ∨
        shownIds (ids ++ [reply]) limit = below ++ [reply] := by
  obtain ⟨root, below, hshown⟩ :=
    List.exists_cons_of_ne_nil (List.length_pos_iff.mp (length_shownIds_pos hids hlimit))
  obtain ⟨above, hcut⟩ := shownIds_suffix ids hlimit
  rw [hshown] at hcut
  have hlength : (shownIds ids limit).length = below.length + 1 := by
    rw [hshown, List.length_cons]
  refine ⟨above, root, below, hcut.symm, hshown, subtreeRoot_pathOf hids hshown,
    hlength ▸ length_shownIds_iff hids hlimit, hlength ▸ length_shownIds_le_iff hids hlimit, ?_, ?_⟩
  · rintro rfl
    rw [← hshown, shownIds_one] at hcut
    exact List.append_left_eq_self.mp hcut
  · intro reply
    have hreply := shownIds_append_singleton ids hlimit reply
    rw [hshown] at hreply
    exact hreply

/-- The numeral of an id of one digit. -/
def IdNumeral.ofDigit (digit : Fin 10) : IdNumeral where
  negative := false
  digits := [digitChar digit]
  isDigit := by
    intro c hc
    rw [List.mem_singleton.mp hc]
    exact isDigit_digitChar digit.isLt
  digits_ne_nil := List.cons_ne_nil _ _

/-- Three levels show the last two ids, and the root is the first of these. -/
theorem subtreeRoot_slides_three :
    [1, 2, 3].map IdNumeral.ofDigit ≠ [] ∧ (1 : Int) ≤ 3 ∧
      (Value.text "1.2.3").subtreeRoot (.int 3) = .ok 2 ∧
      ∃ below, shownIds ([1, 2, 3].map IdNumeral.ofDigit) 3 = IdNumeral.ofDigit 2 :: below ∧
        below.length + 1 = 2 := by
  have hids : [1, 2, 3].map IdNumeral.ofDigit ≠ [] := List.cons_ne_nil _ _
  obtain ⟨-, root, below, -, hshown, hroot, hcount, -⟩ :=
    subtreeRoot_slides hids (show (1 : Int) ≤ 3 by decide)
  have hpath : pathOf ([1, 2, 3].map IdNumeral.ofDigit) = .text "1.2.3" := rfl
  -- What is shown starts with the second id.
  obtain ⟨rfl, -⟩ : IdNumeral.ofDigit 2 = root ∧ [IdNumeral.ofDigit 3] = below :=
    List.cons.inj hshown
  rw [hpath] at hroot
  exact ⟨hids, by decide, hroot, below, hshown, hcount.mpr (Or.inl (by decide))⟩

/-- With a depth of one, a reply is shown below the first comment of its thread, where no more than
the reply is left to count, and fewer ids are shown with a depth of two. -/
theorem subtreeRoot_of_depth_one :
    pathOf ([1, 2].map IdNumeral.ofDigit) = .text "1.2" ∧
      (Value.text "1.2").subtreeRoot (.int 1) = .ok 1 ∧
      (shownIds ([1, 2].map IdNumeral.ofDigit) 1).length = 2 ∧ min 2 (max 1 (1 - 1)) = 1 ∧
      (Value.text "1.2").subtreeRoot (.int 2) = .ok 2 ∧
      (shownIds ([1, 2].map IdNumeral.ofDigit) 2).length = 1 :=
  ⟨rfl, by rfl, rfl, rfl, by rfl, rfl⟩

end Subtree
end Deferral
