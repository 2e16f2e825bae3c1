/-
# Deferral.Address.Host -- hosts of addresses

A host is empty, four bytes, an address of groups in brackets, a name in ASCII, or
an international name. Names are kept in lower case, and international ones in
their ASCII form; the brackets are left out.
-/

import Deferral.Address.Escape
import Deferral.Address.Fault
import Deferral.Address.Ip
import Deferral.Address.Label

namespace Deferral

/-- The text between brackets. -/
def betweenBrackets? : List Char → Option (List Char)
  | '[' :: rest => if rest.getLast? = some ']' then some rest.dropLast else none
  | _ => none

/-- The host that a text names. -/
def readHost (text : List Char) : Except AddressFault (List Char) :=
  if text.isEmpty then .ok []
  else if looksNumeric text then
    if isByteAddress text then .ok text else .error (.malformedBytes text)
  else match betweenBrackets? text with
    | some address => if isZonedAddress address then .ok address else .error (.malformedGroups text)
    | none =>
      if isAsciiText text then .ok (percentEscape keepsInHost (text.map Char.toLower))
      else match Label.nameInAscii? (lowerText text) with
        | some name => .ok name
        | none => .error (.malformedName text)

/-- A host as it stands in an address. -/
def hostText (host : List Char) : List Char :=
  if host.contains ':' then '[' :: host ++ [']'] else host

end Deferral
