/-
# Deferral.Address.Escape -- characters of addresses

The parts of an address hold visible ASCII characters, apart from some that end
the part. Other characters are written as the bytes of UTF-8, each as a percent
sign and two hexadecimal digits. A percent sign that is there already is kept.
-/

import Deferral.Text.Hex
import Deferral.Text.Utf8

namespace Deferral

/-- A visible ASCII character that is not among the excluded ones. -/
def isVisibleBut (excluded : String) (c : Char) : Bool :=
  0x20 < c.toNat && c.toNat < 0x7F && !excluded.toList.contains c

/-- The characters that stand for themselves before a host. -/
def keepsInUserinfo : Char → Bool := isVisibleBut "\x22#<>?\x60\x7b\x7d/;=@[\\]^|"

/-- The characters that stand for themselves in the name of a host. -/
def keepsInHost : Char → Bool := isVisibleBut "#<>?/:@[]^"

/-- The characters that stand for themselves in a path. -/
def keepsInPath : Char → Bool := isVisibleBut "\x22#<>?\x60\x7b\x7d"

/-- The characters that stand for themselves in a query. -/
def keepsInQuery : Char → Bool := isVisibleBut "\x22#<>"

/-- The characters that stand for themselves in a fragment. -/
def keepsInFragment : Char → Bool := isVisibleBut "\x22<>\x60"

/-- A text with the bytes of all characters that are not kept in percent form. -/
def percentEscape (keeps : Char → Bool) (text : List Char) : List Char :=
  text.flatMap fun c =>
    if keeps c then [c] else (utf8Bytes [c]).flatMap fun byte => '%' :: hexFixedFrom 'A' 2 byte

/-- The bytes of a text of ASCII characters in which some bytes are in percent
form. -/
def percentBytes : List Char → List Nat
  | '%' :: a :: b :: rest =>
    if isHexDigit a && isHexDigit b then (hexValue a * 16 + hexValue b) :: percentBytes rest
    else '%'.toNat :: percentBytes (a :: b :: rest)
  | c :: rest => c.toNat :: percentBytes rest
  | [] => []

/-- The text that a text in percent form stands for. -/
def percentUnescape (text : List Char) : List Char := ofUtf8Bytes (percentBytes text)

end Deferral
