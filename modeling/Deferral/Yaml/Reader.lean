/-
# Deferral.Yaml.Reader -- from text to nodes

Documents are read by recursive descent. In a block, the column of a line says
which list or mapping it belongs to; in a flow collection brackets do. A scalar
or flow collection that is followed on its line by a colon is a key. Items and
entries of a block each begin on a line of their own. Each reader starts at a
token and gives a node and the place after it. The number of characters bounds
the number of steps.

What is written here is read here, and so are settings in the usual forms. Block
scalars, anchors and aliases, directives and all tags but that of a timestamp are
refused, and so are escapes that stand for surrogates.
-/

import Deferral.Yaml.Node
import Deferral.Yaml.Scalar

namespace Deferral.Yaml

/-! ## Places in a document -/

/-- A place in a document. -/
structure Cursor where
  /-- The text from here on. -/
  rest : List Char
  /-- The number of characters before it. -/
  index : Nat
  /-- The number of lines before it. -/
  line : Nat
  /-- The number of characters before it in its line. -/
  column : Nat

namespace Cursor

/-- The place after one character. A byte order mark has no width. -/
def pass (c : Cursor) (char : Char) (rest : List Char) : Cursor where
  rest
  index := c.index + 1
  line := if isBreak char then c.line + 1 else c.line
  column := if isBreak char then 0 else if char == '\ufeff' then c.column else c.column + 1

/-- The place after some characters, or the end. -/
def advance (c : Cursor) : Nat → Cursor
  | 0 => c
  | count + 1 =>
    match c.rest with
    | [] => c
    | char :: rest => (c.pass char rest).advance count

/-- The place at which a rest of the text begins. -/
def advanceTo (c : Cursor) (rest : List Char) : Cursor := c.advance (c.rest.length - rest.length)

/-- The place after blanks, comments and line breaks. -/
def skipFrom (c : Cursor) (inComment : Bool) : List Char → Cursor
  | [] => c
  | char :: rest =>
    if isBreak char then (c.pass char rest).skipFrom false rest
    else if inComment || char == ' ' then (c.pass char rest).skipFrom inComment rest
    else if char == '#' then (c.pass char rest).skipFrom true rest
    else c

/-- The place of the next token. -/
def skip (c : Cursor) : Cursor := c.skipFrom false c.rest

/-- The document ends here, or its end is marked. -/
def atEnd (c : Cursor) : Bool := c.rest.isEmpty || (c.column == 0 && atMarker c.rest)

/-- A line break lies between another place and this one. -/
def isBelow (c other : Cursor) : Bool := other.line < c.line

/-- An indicator and a gap stand here. -/
def atIndicator (c : Cursor) (indicator : Char) : Bool :=
  match c.rest with
  | char :: rest => char == indicator && atGap rest
  | [] => false

/-- A colon that makes a key of what stands from `start` to here. -/
def endsKey (c start : Cursor) (inFlow : Bool) : Bool :=
  -- A key stands on one line and is not longer than 1024 characters.
  c.line == start.line && c.index ≤ start.index + 1024 &&
    (if inFlow then c.rest.head? == some ':' else c.atIndicator ':')

end Cursor

/-- What a reader of nodes gives. -/
abbrev Reading := Except Failure (Node × Cursor)

/-- A scalar without a mark of its type; a plain one goes on at column `indent` or after
it. -/
def readUnmarked (inFlow : Bool) (indent : Nat) (c : Cursor) : Reading :=
  match c.rest with
  | '\x27' :: rest => do
    let (text, rest) ← readApostrophes (.inLine []) rest
    return (.quoted text, c.advanceTo rest)
  | '\x22' :: rest => do
    let (text, rest) ← readQuotationMarks (.inLine []) (rest.length + 1) rest
    return (.quoted text, c.advanceTo rest)
  | text =>
    if beginsPlain inFlow text then
      let (content, rest) := readPlain inFlow indent (.inLine []) text text
      .ok (.plain content, c.advanceTo rest)
    else .error .malformedDocument

/-- A scalar, which may have the mark of a timestamp. -/
def readScalar (inFlow : Bool) (indent : Nat) (c : Cursor) : Reading :=
  if (timestampMark ++ [' ']).isPrefixOf c.rest then do
    let start := c.advance timestampMark.length
    let (node, next) ← readUnmarked inFlow indent
      (start.advance (start.rest.takeWhile (· == ' ')).length)
    return (node.asTimestamp, next)
  else readUnmarked inFlow indent c

/-! ## Flow collections -/

mutual

/-- A node in a flow collection. -/
def readFlow : Nat → Cursor → Reading
  | 0, _ => .error .malformedDocument
  | fuel + 1, c =>
    if c.atEnd then .error .malformedDocument
    else match c.rest with
      | '[' :: rest => readFlowList fuel (c.pass '[' rest).skip
      | '\x7b' :: rest => readFlowMap fuel (c.pass '\x7b' rest).skip
      | _ => readScalar true 0 c

/-- The items of a list up to its bracket. -/
def readFlowList : Nat → Cursor → Reading
  | 0, _ => .error .malformedDocument
  | fuel + 1, c =>
    match c.rest with
    | ']' :: rest => .ok (.list [], c.pass ']' rest)
    | _ => do
      let (key, value, next) ← readFlowEntry fuel ']' c
      -- A pair among the items of a list is a mapping of one entry.
      let item := match value with
        | some value => Node.map [(key, value)]
        | none => key
      match next.rest with
      | ',' :: rest =>
        let (node, last) ← readFlowList fuel (next.pass ',' rest).skip
        match node with
        | .list items => return (.list (item :: items), last)
        | _ => throw .malformedDocument
      | ']' :: rest => return (.list [item], next.pass ']' rest)
      | _ => throw .malformedDocument

/-- The entries of a mapping up to its brace. -/
def readFlowMap : Nat → Cursor → Reading
  | 0, _ => .error .malformedDocument
  | fuel + 1, c =>
    match c.rest with
    | '\x7d' :: rest => .ok (.map [], c.pass '\x7d' rest)
    | _ => do
      let (key, value, next) ← readFlowEntry fuel '\x7d' c
      let entry := (key, value.getD .empty)
      match next.rest with
      | ',' :: rest =>
        let (node, last) ← readFlowMap fuel (next.pass ',' rest).skip
        match node with
        | .map entries => return (.map (entry :: entries), last)
        | _ => throw .malformedDocument
      | '\x7d' :: rest => return (.map [entry], next.pass '\x7d' rest)
      | _ => throw .malformedDocument

/-- A node of a flow collection that ends with `close`, and its value if it is a key:
a colon follows it in its line, or a question mark precedes it. -/
def readFlowEntry : Nat → Char → Cursor → Except Failure (Node × Option Node × Cursor)
  | 0, _, _ => .error .malformedDocument
  | fuel + 1, close, c =>
    match c.rest with
    | '?' :: rest => do
      let start := (c.pass '?' rest).skip
      let (key, next) ←
        if start.rest.head? == some ':' then pure (Node.empty, start)
        else readFlowValue fuel close start
      let next := next.skip
      if next.rest.head? == some ':' then
        let (value, next) ← readFlowValue fuel close (next.advance 1).skip
        return (key, some value, next.skip)
      else return (key, some .empty, next)
    | _ => do
      let (key, next) ← readFlow fuel c
      let next := next.skip
      if next.endsKey c true then
        let (value, next) ← readFlowValue fuel close (next.advance 1).skip
        return (key, some value, next.skip)
      else return (key, none, next)

/-- The node after an indicator, which may be left out before a comma or the end. -/
def readFlowValue : Nat → Char → Cursor → Reading
  | 0, _, _ => .error .malformedDocument
  | fuel + 1, close, c =>
    match c.rest with
    | char :: _ => if char == ',' || char == close then .ok (.empty, c) else readFlow fuel c
    | [] => .error .malformedDocument

end

/-! ## Blocks -/

mutual

/-- A node at a place. `parent` is the column of the collection around it, counted from
one, and `keys` says whether a list or mapping may begin here. -/
def readNode : Nat → Nat → Bool → Cursor → Reading
  | 0, _, _, _ => .error .malformedDocument
  | fuel + 1, parent, keys, c =>
    if c.atIndicator '-' then
      if keys then readList fuel c.column false c else .error .malformedDocument
    else if c.atIndicator '?' then
      if keys then readMap fuel c.column c else .error .malformedDocument
    else do
      let (node, next) ← readInline fuel parent c
      if next.skip.endsKey c false then
        if keys then readMap fuel c.column c else throw .malformedDocument
      else return (node, next)

/-- A scalar or flow collection. -/
def readInline : Nat → Nat → Cursor → Reading
  | 0, _, _ => .error .malformedDocument
  | fuel + 1, parent, c =>
    match c.rest with
    | '[' :: _ | '\x7b' :: _ => readFlow fuel c
    | _ => readScalar false parent c

/-- The node after an indicator at column `column`, which may be left out. Where a list
may begin at the very column, `indentless` says so. -/
def readChild : Nat → Nat → Bool → Bool → Cursor → Reading
  | 0, _, _, _, _ => .error .malformedDocument
  | fuel + 1, column, indentless, keys, c =>
    let next := c.skip
    if next.atEnd then .ok (.empty, c)
    else if column < next.column then
      readNode fuel (column + 1) (keys || next.isBelow c) next
    else if indentless && next.column == column && next.atIndicator '-' then
      readList fuel column true next
    else .ok (.empty, c)

/-- The items of a list whose hyphens stand at a column. -/
def readList : Nat → Nat → Bool → Cursor → Reading
  | 0, _, _, _ => .error .malformedDocument
  | fuel + 1, column, indentless, c => do
    let (item, stop) ← readChild fuel column false true (c.advance 1)
    let next := stop.skip
    if next.atEnd || next.column < column then return (.list [item], stop)
    else if next.column == column && next.atIndicator '-' && next.isBelow stop then
      let (node, last) ← readList fuel column indentless next
      match node with
      | .list items => return (.list (item :: items), last)
      | _ => throw .malformedDocument
    -- A list at the column of its key ends where the next key begins.
    else if next.column == column && indentless then return (.list [item], stop)
    else throw .malformedDocument

/-- The entries of a mapping whose keys stand at a column. -/
def readMap : Nat → Nat → Cursor → Reading
  | 0, _, _ => .error .malformedDocument
  | fuel + 1, column, c => do
    let (key, keyStop) ← readKey fuel column c
    let colon := keyStop.skip
    let (value, stop) ←
      if !c.atIndicator '?' then readChild fuel column true false (colon.advance 1)
      -- The colon after a question mark begins a line of its own.
      else if colon.column == column && colon.atIndicator ':' && colon.isBelow keyStop then
        readChild fuel column true true (colon.advance 1)
      else pure (Node.empty, keyStop)
    let next := stop.skip
    if next.atEnd || next.column < column then return (.map [(key, value)], stop)
    else if next.column == column && next.isBelow stop then
      let (node, last) ← readMap fuel column next
      match node with
      | .map entries => return (.map ((key, value) :: entries), last)
      | _ => throw .malformedDocument
    else throw .malformedDocument

/-- A key: a node after a question mark, or a scalar or flow collection that a colon
follows. -/
def readKey : Nat → Nat → Cursor → Reading
  | 0, _, _ => .error .malformedDocument
  | fuel + 1, column, c =>
    if c.atIndicator '?' then readChild fuel column true true (c.advance 1)
    else do
      let (key, stop) ← readInline fuel (column + 1) c
      if stop.skip.endsKey c false then return (key, stop) else throw .malformedDocument

end

/-! ## Documents -/

/-- A character that a document may hold. -/
def isAllowed (c : Char) : Bool :=
  c == '\t' || c == '\n' || ('\x20' ≤ c && c ≤ '\x7e') || c == '\u0085' ||
    ('\u00a0' ≤ c && c ≤ '\ud7ff') || ('\ue000' ≤ c && c ≤ '\ufffd') || 0x10000 ≤ c.toNat

/-- A text in which every line ends with a single line feed, whichever way it ended. -/
def unifyLines : List Char → List Char
  | '\r' :: '\n' :: rest => '\n' :: unifyLines rest
  | '\r' :: rest => '\n' :: unifyLines rest
  | c :: rest => c :: unifyLines rest
  | [] => []

/-- The rest of a text after a byte order mark. -/
def dropByteOrderMark : List Char → List Char
  | '\ufeff' :: rest => rest
  | text => text

/-- After a document nothing follows but marks of its end, at most as many as there is
fuel. -/
def endsDocument : Nat → Cursor → Bool
  | 0, _ => false
  | fuel + 1, c =>
    let next := c.skip
    if next.rest.isEmpty then true
    else if next.column == 0 && atMarker next.rest && next.rest.head? == some '.' then
      endsDocument fuel (next.advance 3)
    else false

/-- The one node of a document. -/
def readDocument (text : List Char) : Except Failure Node := do
  let text := unifyLines text
  if !text.all isAllowed then throw .malformedDocument
  let fuel := 8 * text.length + 16
  let start : Cursor := Cursor.skip ⟨dropByteOrderMark text, 0, 0, 0⟩
  if start.rest.isEmpty then return .empty
  -- Three hyphens may open the document; three points close one that never began.
  let explicit := start.column == 0 && atMarker start.rest
  if explicit && start.rest.head? == some '.' then throw .malformedDocument
  let opening := if explicit then start.advance 3 else start
  let first := opening.skip
  let (node, last) ←
    if first.atEnd then pure (Node.empty, first)
    else readNode fuel 0 (!explicit || opening.line < first.line) first
  if endsDocument fuel last then return node else throw .malformedDocument

/-- The value of a document. -/
def read (text : List Char) : Except Failure Value := (readDocument text).bind Node.value

end Deferral.Yaml
