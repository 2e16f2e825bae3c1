/-
# Deferral.Address.Fault -- why a text is no address

Each cause has its words, for reports on addresses that came from somewhere else.
-/

import Deferral.Number.Numeral
import Deferral.Text.Quoted

namespace Deferral

/-- The reasons for which a text is no address. -/
inductive AddressFault where
  /-- The text has too many characters. -/
  | tooLong
  /-- A control character stands in the text. -/
  | controlCharacter (c : Char) (position : Nat)
  /-- A host has the look of four numbers, and they are no bytes. -/
  | malformedBytes (host : List Char)
  /-- A host in brackets is no address of groups. -/
  | malformedGroups (host : List Char)
  /-- A host outside ASCII is no international name. -/
  | malformedName (host : List Char)
  /-- What stands after the colon of a host is no number. -/
  | malformedSocket (socket : List Char)
  /-- A path after a host does not begin with a slash. -/
  | unrootedPath
  /-- A path alone begins with two slashes. -/
  | doubleSlash
  /-- A path alone begins with a colon. -/
  | leadingColon
deriving DecidableEq, Repr

namespace AddressFault

/-- A text in quotes, after some words. -/
def withQuoted (words : String) (text : List Char) : List Char := words.toList ++ quoted text

/-- A fault in words. -/
def words : AddressFault → List Char
  | tooLong => "URL too long".toList
  | controlCharacter c position =>
    withQuoted "Invalid non-printable ASCII character in URL, " [c] ++
      " at position ".toList ++ decimal position ++ ['.']
  | malformedBytes host => withQuoted "Invalid IPv4 address: " host
  | malformedGroups host => withQuoted "Invalid IPv6 address: " host
  | malformedName host => withQuoted "Invalid IDNA hostname: " host
  | malformedSocket socket => withQuoted "Invalid port: " socket
  | unrootedPath => "For absolute URLs, path must be empty or begin with '/'".toList
  | doubleSlash => "Relative URLs cannot have a path starting with '//'".toList
  | leadingColon => "Relative URLs cannot have a path starting with ':'".toList

end AddressFault

end Deferral
