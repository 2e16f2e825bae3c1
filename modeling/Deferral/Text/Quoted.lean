/-
# Deferral.Text.Quoted -- quoted texts

A quoted text stands between apostrophes, or between quotation marks if it holds an
apostrophe and no quotation mark. Inside, a backslash and the surrounding mark
are escaped by a backslash, the common line controls by a letter, and other
characters that do not show by their code in two, four or eight hexadecimal
digits.
-/

import Deferral.Text.Hex
import Deferral.Text.Printable

namespace Deferral

/-- A character by its code, in the shortest of the three widths. -/
def escapeCodeFrom (first : Char) (code : Nat) : List Char :=
  if code < 0x100 then '\\' :: 'x' :: hexFixedFrom first 2 code
  else if code < 0x10000 then '\\' :: 'u' :: hexFixedFrom first 4 code
  else '\\' :: 'U' :: hexFixedFrom first 8 code

/-- A character as it stands between marks. -/
def quoteChar (mark c : Char) : List Char :=
  if c == mark || c == '\\' then ['\\', c]
  else if c == '\t' then ['\\', 't']
  else if c == '\n' then ['\\', 'n']
  else if c == '\r' then ['\\', 'r']
  else if isPrintable c then [c]
  else escapeCodeFrom 'a' c.toNat

/-- The mark to put around a text. -/
def quoteMark (text : List Char) : Char :=
  if text.contains '\x27' && !text.contains '\x22' then '\x22' else '\x27'

/-- A text between marks. -/
def quoted (text : List Char) : List Char :=
  quoteMark text :: text.flatMap (quoteChar (quoteMark text)) ++ [quoteMark text]

end Deferral
