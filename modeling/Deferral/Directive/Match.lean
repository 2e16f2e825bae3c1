/-
# Deferral.Directive.Match -- directives in a text

A token stands for a directive only at the beginning of the text or after a
character that is no part of a word and no grave accent, so that words such as
mail addresses and quoted examples are left alone. `firstMatch` looks at these
places in order and reports the first at which a whole phrase stands.
-/

import Deferral.Directive.Grammar

namespace Deferral

/-- What a text says of one kind of directive. -/
inductive Match (α : Type) where
  /-- The token is not mentioned. -/
  | absent
  /-- The token is mentioned, but no phrase is complete. -/
  | malformed (reason : String)
  /-- The first complete phrase, what it denotes, and the positions at which it
  begins and ends. -/
  | found (value : α) (start stop : Nat)
deriving DecidableEq

/-- A token may follow this character, or begin the text. -/
def isBoundary : Option Char → Bool
  | none => true
  | some c => c != '\x60' && !isWordChar c

/-- The positions at which a token is mentioned, from `index` on, and the texts that
begin there. -/
def mentionsFrom (token : List Char) (before : Option Char) (index : Nat) :
    List Char → List (Nat × List Char)
  | [] => []
  | c :: rest =>
    let later := mentionsFrom token (some c) (index + 1) rest
    if isBoundary before && startsWithWord token (c :: rest) then (index, c :: rest) :: later
    else later

/-- The positions at which a token is mentioned, and the texts that begin there. -/
def mentions (token text : List Char) : List (Nat × List Char) := mentionsFrom token none 0 text

/-- A text mentions a token, whether or not a phrase follows. -/
def mentionsToken (token text : List Char) : Bool := !(mentions token text).isEmpty

/-- The phrase at a place, with its positions. -/
def matchAt {α : Type} (read : List Char → Option (α × List Char)) (place : Nat × List Char) :
    Option (Match α) :=
  (read place.2).map fun phrase =>
    .found phrase.1 place.1 (place.1 + (place.2.length - phrase.2.length))

/-- The first complete phrase of a token. -/
def firstMatch {α : Type} (token : List Char) (read : List Char → Option (α × List Char))
    (expected : String) (text : List Char) : Match α :=
  match mentions token text with
  | [] => .absent
  | places =>
    (places.findSome? (matchAt read)).getD
      (.malformed s!"{String.ofList token} is not followed by {expected}")

/-- The form of a delay, in words. -/
def delayForm : String := "'in <number> <unit>'"

/-- The form of a moment, in words. -/
def momentForm : String := "'on <timestamp>'"

/-- A deletion after a delay. -/
def matchDelete (text : List Char) : Match Delay :=
  firstMatch deleteToken (readDelay? deleteToken) delayForm text

/-- A publication after a delay. -/
def matchScheduleDelay (text : List Char) : Match Delay :=
  firstMatch scheduleToken (readDelay? scheduleToken) delayForm text

/-- A publication at a timestamp. -/
def matchScheduleMoment (text : List Char) : Match Moment :=
  firstMatch scheduleToken readPublication? momentForm text

end Deferral
