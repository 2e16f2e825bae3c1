/-
# Deferral.Address.Punycode -- letters outside ASCII in ASCII

A label of a host name is written in ASCII as its ASCII characters, a hyphen, and
the places of all other characters in the order of their codes. Each of these is
a number, the distance from the one before it, in digits of base 36 whose lowest
comes first. A digit below the threshold of its position ends a number, and the
thresholds follow the size of the last distance.
-/

namespace Deferral.Punycode

/-! ## Digits and thresholds -/

/-- The character of a digit below 36. -/
def digit (value : Nat) : Char :=
  if value < 26 then Char.ofNat ('a'.toNat + value) else Char.ofNat ('0'.toNat + (value - 26))

/-- The value of a digit. -/
def digitValue? (c : Char) : Option Nat :=
  if 'a' ≤ c ∧ c ≤ 'z' then some (c.toNat - 'a'.toNat)
  else if 'A' ≤ c ∧ c ≤ 'Z' then some (c.toNat - 'A'.toNat)
  else if c.isDigit then some (c.toNat - '0'.toNat + 26)
  else none

/-- The threshold of a position, of which the first is 1. -/
def threshold (position bias : Nat) : Nat := max 1 (min 26 (36 * position - bias))

theorem threshold_pos (position bias : Nat) : 0 < threshold position bias := by
  unfold threshold
  omega

/-- How the thresholds start. -/
def firstBias : Nat := 72

/-- The bias for a distance, after `done` positions above the first. -/
def biasOf (distance done : Nat) : Nat :=
  if 455 < distance then biasOf (distance / 35) (done + 36)
  else done + 36 * distance / (distance + 38)
termination_by distance
decreasing_by omega

/-- The bias after a distance, when `count` characters stand in place. -/
def nextBias (distance count : Nat) (isFirst : Bool) : Nat :=
  let scaled := if isFirst then distance / 700 else distance / 2
  biasOf (scaled + scaled / count) 0

/-! ## Writing -/

/-- The digits of a number, from a position on. -/
def numberFrom (bias position n : Nat) : List Char :=
  let t := threshold position bias
  if n < t then [digit n]
  else digit (t + (n - t) % (36 - t)) :: numberFrom bias (position + 1) ((n - t) / (36 - t))
termination_by n
decreasing_by
  have h := threshold_pos position bias
  have hle := Nat.div_le_self (n - threshold position bias) (36 - threshold position bias)
  omega

/-- What is known while a label is written. -/
structure Writing where
  /-- The digits so far. -/
  digits : List Char
  /-- The distance from the last character that was put in place. -/
  distance : Nat
  bias : Nat
  /-- The number of characters in place. -/
  count : Nat

/-- Passes a character of the label when those with the given code are put in
place; `ascii` characters were there from the start. -/
def Writing.pass (ascii code : Nat) (state : Writing) (c : Char) : Writing :=
  if c.toNat < code then { state with distance := state.distance + 1 }
  else if c.toNat = code then
    { digits := state.digits ++ numberFrom state.bias 1 state.distance
      distance := 0
      bias := nextBias state.distance (state.count + 1) (state.count == ascii)
      count := state.count + 1 }
  else state

/-- Puts the characters with the given codes in place, the lowest code first. All
below `next` are in place. -/
def placeAll (label : List Char) (ascii : Nat) : List Nat → Nat → Writing → Writing
  | [], _, state => state
  | code :: codes, next, state =>
    let skipped := state.distance + (code - next) * (state.count + 1)
    let state := label.foldl (Writing.pass ascii code) { state with distance := skipped }
    placeAll label ascii codes (code + 1) { state with distance := state.distance + 1 }

/-- The codes outside ASCII in a label, in order and without repetition. -/
def wideCodes (label : List Char) : List Nat :=
  (((label.map Char.toNat).filter (0x80 ≤ ·)).mergeSort).eraseReps

/-- A label in ASCII. -/
def encode (label : List Char) : List Char :=
  let ascii := label.filter (·.toNat < 0x80)
  let state := placeAll label ascii.length (wideCodes label) 0x80 ⟨[], 0, firstBias, ascii.length⟩
  (if ascii.isEmpty then [] else ascii ++ ['-']) ++ state.digits

/-! ## Reading -/

/-- A number from a position on, each digit of which counts `weight`, before the
rest of the text. -/
def readNumber? (bias position weight : Nat) : List Char → Option (Nat × List Char)
  | [] => none
  | c :: rest => do
    let value ← digitValue? c
    let t := threshold position bias
    if value < t then return (value * weight, rest)
    let (more, rest) ← readNumber? bias (position + 1) (weight * (36 - t)) rest
    return (value * weight + more, rest)

/-- A number takes at least one digit. -/
theorem length_lt_of_readNumber? {bias position weight n : Nat} {text rest : List Char}
    (h : readNumber? bias position weight text = some (n, rest)) : rest.length < text.length := by
  induction text generalizing position weight n with
  | nil => simp [readNumber?] at h
  | cons c text ih =>
    simp only [readNumber?, Option.bind_eq_bind, Option.bind_eq_some_iff] at h
    obtain ⟨value, _, h⟩ := h
    split at h
    · cases h
      exact Nat.lt_succ_self _
    · obtain ⟨⟨more, after⟩, found, h⟩ := Option.bind_eq_some_iff.1 h
      cases h
      exact Nat.lt_succ_of_lt (ih found)

/-- Characters with one more at a place. -/
def insertAt (place : Nat) (c : Char) (text : List Char) : List Char :=
  text.take place ++ c :: text.drop place

/-- The label that digits complete. The last character that was put in place has
the given code, and `next` is the place after it. -/
def complete? (label digits : List Char) (code next bias : Nat) (isFirst : Bool) :
    Option (List Char) :=
  match h : readNumber? bias 1 1 digits with
  | none => if digits.isEmpty then some label else none
  | some (distance, rest) =>
    let count := label.length + 1
    let code := code + (next + distance) / count
    let place := (next + distance) % count
    if code.isValidChar then
      complete? (insertAt place (.ofNat code) label) rest code (place + 1)
        (nextBias distance count isFirst) false
    else none
termination_by digits.length
decreasing_by exact length_lt_of_readNumber? h

/-- The label that a text in ASCII stands for. The characters before the last
hyphen are in place from the start. -/
def decode? (text : List Char) : Option (List Char) :=
  let digits := (text.reverse.takeWhile (· != '-')).reverse
  complete? (text.take (text.length - digits.length - 1)) digits 0x80 0 firstBias true

end Deferral.Punycode
