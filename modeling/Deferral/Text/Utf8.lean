/-
# Deferral.Text.Utf8 -- texts as bytes

A text is kept as the bytes of UTF-8. Reading never fails: where the bytes of no
character begin, or where they break off, the longest part that could have gone on
is read as one replacement character.
-/

namespace Deferral

/-- The bytes of a text. -/
def utf8Bytes (text : List Char) : List Nat :=
  (text.flatMap String.utf8EncodeChar).map UInt8.toNat

/-- What stands for bytes that are no character. -/
def replacement : Char := '\ufffd'

/-- How many bytes follow a first byte, with the bounds of the one right after it.
Bounds that are narrower than those of the later bytes keep out codes that would
fit into fewer bytes, surrogates, and codes above the last one. -/
def followers? (first : Nat) : Option (Nat × Nat × Nat) :=
  if first < 0x80 then some (0, 0, 0)
  else if first < 0xC2 then none
  else if first < 0xE0 then some (1, 0x80, 0xBF)
  else if first < 0xF0 then
    some (2, if first = 0xE0 then 0xA0 else 0x80, if first = 0xED then 0x9F else 0xBF)
  else if first < 0xF5 then
    some (3, if first = 0xF0 then 0x90 else 0x80, if first = 0xF4 then 0x8F else 0xBF)
  else none

/-- A byte that can only follow others. -/
def isFollower (byte : Nat) : Bool := 0x80 ≤ byte && byte ≤ 0xBF

/-- The bytes at the start of a list that go on with a character, of which `count`
more are missing and the next one has the given bounds. -/
def followersOf (count low high : Nat) : List Nat → List Nat
  | [] => []
  | byte :: rest =>
    if count ≠ 0 ∧ low ≤ byte ∧ byte ≤ high then
      byte :: (rest.take (count - 1)).takeWhile isFollower
    else []

/-- The character of a first byte and the bytes that follow it. -/
def charOfBytes (first : Nat) (following : List Nat) : Char :=
  let head := match following.length with
    | 0 => first
    | 1 => first - 0xC0
    | 2 => first - 0xE0
    | _ => first - 0xF0
  .ofNat (following.foldl (fun code byte => code * 64 + (byte - 0x80)) head)

/-- The text of some bytes. -/
def ofUtf8Bytes : List Nat → List Char
  | [] => []
  | first :: rest =>
    match followers? first with
    | none => replacement :: ofUtf8Bytes rest
    | some (count, low, high) =>
      let following := followersOf count low high rest
      (if following.length = count then charOfBytes first following else replacement) ::
        ofUtf8Bytes (rest.drop following.length)
termination_by bytes => bytes.length
decreasing_by all_goals simp only [List.length_cons, List.length_drop]; omega

end Deferral
