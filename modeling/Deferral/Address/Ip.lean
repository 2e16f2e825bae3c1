/-
# Deferral.Address.Ip -- hosts given by number

A host is named by four bytes with points between them, or by eight groups of
sixteen bits with colons between them. In the second form the last two groups may
be written as four bytes, two colons leave out a run of zero groups, and a zone
may follow a percent sign.
-/

import Deferral.Number.Numeral
import Deferral.Text.Hex
import Deferral.Text.Split

namespace Deferral

/-- A byte in decimal digits without a leading zero. -/
def isByteNumeral (text : List Char) : Bool :=
  !text.isEmpty && text.all Char.isDigit && text.length ≤ 3 &&
    (text == ['0'] || text.head? != some '0') && valueOfAscii text < 256

/-- Four bytes with points between them. -/
def isByteAddress (text : List Char) : Bool :=
  let parts := splitAtChar '.' text
  parts.length == 4 && parts.all isByteNumeral

/-- A text has the look of four numbers with a character between each two. Where
there are fewer separators than three, digits inside of the runs have to serve. -/
def looksNumeric (text : List Char) : Bool :=
  let runs := splitAtChar '.' (text.map fun c => if c.isDigit then c else '.')
  let inner := runs.foldl (fun total run => total + (run.length - 1) / 2) 0
  runs.all (!·.isEmpty) && runs.length ≤ 4 && 4 ≤ runs.length + inner

/-- A group of sixteen bits. -/
def isGroup (text : List Char) : Bool :=
  !text.isEmpty && text.all isHexDigit && text.length ≤ 4

/-- The groups of an address, with two groups for four bytes at its end. -/
def groupsOf? (text : List Char) : Option (List (List Char)) :=
  let parts := splitAtChar ':' text
  match parts.getLast? with
  | none => none
  | some last =>
    if parts.length < 3 then none
    else if last.contains '.' then
      if isByteAddress last then some (parts.dropLast ++ [['0'], ['0']]) else none
    else some parts

/-- Groups without an end: empty ones may stand at the outer end only next to the
run that is left out. -/
def trimOuter (groups : List (List Char)) : List (List Char) :=
  if groups == [[]] then [] else groups

/-- Eight groups with colons between them, or fewer with one run left out. -/
def isGroupAddress (text : List Char) : Bool :=
  match groupsOf? text with
  | none => false
  | some groups =>
    -- The run is left out at the first empty group that is not at an end.
    let inner := (groups.drop 1).dropLast
    let before := inner.takeWhile (!·.isEmpty)
    if before.length = inner.length then groups.length == 8 && groups.all isGroup
    else
      let high := trimOuter (groups.take (before.length + 1))
      let low := trimOuter (groups.drop (before.length + 2))
      groups.length ≤ 9 && high.all isGroup && low.all isGroup && high.length + low.length < 8

/-- An address of groups, which a zone may follow. -/
def isZonedAddress (text : List Char) : Bool :=
  let address := text.takeWhile (· != '%')
  let zone := text.drop address.length
  isGroupAddress address &&
    (zone.isEmpty || (zone.length ≠ 1 && !(zone.drop 1).contains '%'))

end Deferral
