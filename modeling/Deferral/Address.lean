/-
# Deferral.Address -- addresses on the web

An address names a scheme, a host with what stands before and after it, a path, a
query and a fragment. Reading brings these into one form: schemes and hosts are in
lower case, the socket that a scheme implies is left out, single and double points
in a path are carried out, and characters that a part cannot hold are in percent
form. An address without a scheme or a host is relative.
-/

import Deferral.Address.Host

namespace Deferral

/-- The parts of an address, in their final form. -/
structure Address where
  scheme : List Char
  /-- What stands before the host: a name, and after a colon a password. -/
  userinfo : List Char
  host : List Char
  /-- The number of the socket at the host. -/
  socket : Option Int
  path : List Char
  query : Option (List Char)
  fragment : Option (List Char)
deriving DecidableEq, Repr

namespace Address

/-! ## Taking a text apart -/

/-- The most characters of an address. -/
def maxLength : Nat := 65536

/-- A control character of ASCII. -/
def isControl (c : Char) : Bool := c.toNat < 0x20 || c.toNat == 0x7F

/-- The scheme before a colon, which may be empty, and the rest. -/
def splitScheme (text : List Char) : List Char × List Char :=
  let name := text.takeWhile fun c => c.isAlphanum || ['+', '.', '-'].contains c
  match text.drop name.length with
  | ':' :: rest => if name.head?.all Char.isAlpha then (name, rest) else ([], text)
  | _ => ([], text)

/-- A part that goes up to one of some characters, and the rest. -/
def splitBefore (ends : List Char) (text : List Char) : List Char × List Char :=
  (text.takeWhile (!ends.contains ·), text.dropWhile (!ends.contains ·))

/-- A part that begins with a mark and goes up to one of some characters. -/
def splitMarked (mark : Char) (ends : List Char) : List Char → Option (List Char) × List Char
  | [] => (none, [])
  | c :: text =>
    if c = mark then
      let (part, rest) := splitBefore ends text
      (some part, rest)
    else (none, c :: text)

/-- What stands between two slashes and the path. -/
def splitAuthority : List Char → List Char × List Char
  | '/' :: '/' :: text => splitBefore ['/', '?', '#'] text
  | text => ([], text)

/-- The text after the last place of a character, or all of it. -/
def afterLast (c : Char) (text : List Char) : List Char :=
  (text.reverse.takeWhile (· != c)).reverse

/-- The text before the last place of a character, or nothing. -/
def beforeLast (c : Char) (text : List Char) : List Char :=
  text.take (text.length - (afterLast c text).length - 1)

/-- A host and the socket after it. A host in brackets may hold colons. -/
def splitHost (text : List Char) : List Char × List Char :=
  let host := if text.head? = some '[' ∧ text.contains ']' then beforeLast ']' text ++ [']']
    else text.takeWhile (· != ':')
  match text.drop host.length with
  | ':' :: socket => (host, socket)
  | socket => (host, socket)

/-! ## Sockets and paths -/

/-- The sockets that schemes imply. -/
def impliedSockets : List (List Char × Int) :=
  [("ftp".toList, 21), ("http".toList, 80), ("https".toList, 443), ("ws".toList, 80),
   ("wss".toList, 443)]

/-- The socket that a text names, unless the scheme implies it. The scheme counts as
it was written. -/
def readSocket (scheme text : List Char) : Except AddressFault (Option Int) :=
  if text.isEmpty then .ok none
  else match readInteger? text with
    | none => .error (.malformedSocket text)
    | some socket => .ok (if impliedSockets.lookup scheme = some socket then none else some socket)

/-- Carries out one part of a path. The parts before it are given from the last one
on; the empty one before the first slash stays. -/
def stepInto (done : List (List Char)) (part : List Char) : List (List Char) :=
  if part = ['.'] then done
  else if part = ['.', '.'] then if done = [[]] then done else done.tail
  else part :: done

/-- A path without single and double points. -/
def carryOutPoints (path : List Char) : List Char :=
  joinWith ['/'] ((splitAtChar '/' path).foldl stepInto []).reverse

/-- The address may have its path. -/
def checkPath (path : List Char) (hasScheme hasHost : Bool) : Except AddressFault Unit :=
  if hasHost && path.head?.any (· != '/') then .error .unrootedPath
  else if !hasScheme && !hasHost && path.take 2 == ['/', '/'] then .error .doubleSlash
  else if !hasScheme && !hasHost && path.head? == some ':' then .error .leadingColon
  else .ok ()

/-! ## Reading and writing -/

/-- A text has few enough characters, and none of them is a control character. -/
def checkText (text : List Char) : Except AddressFault Unit :=
  if maxLength < text.length then .error .tooLong
  else match text.findIdx? isControl with
    | some position => .error (.controlCharacter (text.getD position ' ') position)
    | none => .ok ()

/-- The address that a text names. -/
def ofText (text : List Char) : Except AddressFault Address := do
  checkText text
  let (scheme, rest) := splitScheme text
  let (authority, rest) := splitAuthority rest
  let (path, rest) := splitBefore ['?', '#'] rest
  let (query, rest) := splitMarked '?' ['#'] rest
  let (fragment, _) := splitMarked '#' [] rest
  let (hostPart, socketPart) := splitHost (afterLast '@' authority)
  let userinfo := percentEscape keepsInUserinfo (beforeLast '@' authority)
  let host ← readHost hostPart
  let socket ← readSocket scheme socketPart
  let hasHost := !userinfo.isEmpty || !host.isEmpty || socket.isSome
  checkPath path (!scheme.isEmpty) hasHost
  -- The points of a path alone wait for the address that it is relative to.
  let path := if scheme.isEmpty && !hasHost then path else carryOutPoints path
  return {
    scheme := scheme.map Char.toLower
    userinfo, host, socket
    path := percentEscape keepsInPath path
    query := query.map (percentEscape keepsInQuery)
    fragment := fragment.map (percentEscape keepsInFragment) }

/-- An optional part after its mark. -/
def marked (mark : Char) : Option (List Char) → List Char
  | none => []
  | some part => mark :: part

/-- What stands between two slashes and the path. -/
def authority (address : Address) : List Char :=
  (if address.userinfo.isEmpty then [] else address.userinfo ++ ['@']) ++
    hostText address.host ++ marked ':' (address.socket.map decimalInt)

/-- The text of an address. -/
def text (address : Address) : List Char :=
  (if address.scheme.isEmpty then [] else address.scheme ++ [':']) ++
    (if address.authority.isEmpty then [] else '/' :: '/' :: address.authority) ++
    address.path ++ marked '?' address.query ++ marked '#' address.fragment

/-! ## Requests -/

/-- The address says by itself where to go. -/
def isAbsolute (address : Address) : Bool := !address.scheme.isEmpty && !address.host.isEmpty

/-- The address that a request for this one goes to. Of a relative one only the
path and the query are left. -/
def target (address : Address) : Address :=
  if address.isAbsolute then address
  else {
    scheme := [], userinfo := [], host := [], socket := none, fragment := none
    path := '/' :: address.path.dropWhile (· == '/')
    query := address.query }

/-- The name and the password in an address, if one of them is not empty. -/
def credentials? (address : Address) : Option (List Char × List Char) :=
  let name := address.userinfo.takeWhile (· != ':')
  let password := address.userinfo.drop (name.length + 1)
  if name.isEmpty && password.isEmpty then none
  else some (percentUnescape name, percentUnescape password)

/-- An answer from an address sends the client on to another one. A location with
a scheme and no host takes the host over, and its path has to allow for one; a
location without a fragment takes the fragment over as the text it stands for. -/
def leadsTo (address location : Address) : Except AddressFault Unit := do
  if !location.scheme.isEmpty && location.host.isEmpty then
    checkPath location.path true true
  if (location.fragment.getD []).isEmpty then
    checkText (percentUnescape (address.fragment.getD []))

end Address

end Deferral
