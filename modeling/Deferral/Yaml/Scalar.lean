/-
# Deferral.Yaml.Scalar -- scalars in a document

A scalar stands between apostrophes, between quotation marks, or plain. It may go
on over several lines: then the blanks around the line breaks do not count, one
break is read as a space, and of more breaks the first one is dropped. Each
reader takes the text from the first character of the scalar on, and gives the
content and the rest.
-/

import Deferral.Failure
import Deferral.Yaml.Plain

namespace Deferral.Yaml

/-! ## Classes of characters -/

/-- A line break. -/
def isBreak (c : Char) : Bool := c == '\n' || c == '\u0085' || c == '\u2028' || c == '\u2029'

/-- A blank or a line break. -/
def isGap (c : Char) : Bool := isSpaceOrTab c || isBreak c

/-- The text ends, or goes on with a blank or a line break. -/
def atGap : List Char → Bool
  | [] => true
  | c :: _ => isGap c

/-- A line that ends a document: three hyphens or points and a gap. -/
def atMarker : List Char → Bool
  | '-' :: '-' :: '-' :: rest => atGap rest
  | '.' :: '.' :: '.' :: rest => atGap rest
  | _ => false

/-- A line break as it is read. -/
def readBreak (c : Char) : Char := if c == '\u0085' then '\n' else c

/-- The content of line breaks between two lines, the first one apart. -/
def foldBreaks (first : Char) (more : List Char) : List Char :=
  if first != '\n' then first :: more
  else if more.isEmpty then [' ']
  else more

/-- Content that a reader has found before the rest of its result. -/
def before (content : List Char) (result : Except Failure (List Char × List Char)) :
    Except Failure (List Char × List Char) :=
  result.map fun r => (content ++ r.1, r.2)

/-! ## Quoted scalars -/

/-- Where a reader of a quoted scalar is. -/
inductive QuotedState where
  /-- In a line, after some blanks that count unless the line ends. -/
  | inLine (blanks : List Char)
  /-- After a line break, with those after it; the break may be escaped. -/
  | atBreaks (first : Option Char) (more : List Char)
  /-- In the blanks at the beginning of such a line. -/
  | inIndent (first : Option Char) (more : List Char)

/-- The content of what a reader has passed but not yet taken. -/
def QuotedState.content : QuotedState → List Char
  | .inLine blanks => blanks
  | .atBreaks first more | .inIndent first more =>
    match first with
    | some first => foldBreaks first more
    | none => more

/-- The state after a line break. -/
def QuotedState.afterBreak (c : Char) : QuotedState → QuotedState
  | .inLine _ => .atBreaks (some (readBreak c)) []
  | .atBreaks first more | .inIndent first more => .atBreaks first (more ++ [readBreak c])

/-- The state after a blank. -/
def QuotedState.afterBlank (c : Char) : QuotedState → QuotedState
  | .inLine blanks => .inLine (blanks ++ [c])
  | .atBreaks first more | .inIndent first more => .inIndent first more

/-- At the beginning of a line. -/
def QuotedState.atLineStart : QuotedState → Bool
  | .atBreaks _ _ => true
  | _ => false

/-- The content of a scalar between apostrophes. An apostrophe is written twice. -/
def readApostrophes (state : QuotedState) : List Char → Except Failure (List Char × List Char)
  | [] => .error .malformedDocument
  | c :: rest =>
    if state.atLineStart && atMarker (c :: rest) then .error .malformedDocument
    else if isBreak c then readApostrophes (state.afterBreak c) rest
    else if isSpaceOrTab c then readApostrophes (state.afterBlank c) rest
    else if c == '\x27' then
      match rest with
      | '\x27' :: rest => before (state.content ++ [c]) (readApostrophes (.inLine []) rest)
      | rest => .ok (state.content, rest)
    else before (state.content ++ [c]) (readApostrophes (.inLine []) rest)

/-- The characters that a letter after a backslash stands for. -/
def escapes : List (Char × Char) :=
  [('0', '\x00'), ('a', '\x07'), ('b', '\x08'), ('t', '\t'), ('\t', '\t'), ('n', '\n'),
   ('v', '\x0b'), ('f', '\x0c'), ('r', '\r'), ('e', '\x1b'), (' ', ' '), ('\x22', '\x22'),
   ('\\', '\\'), ('/', '/'), ('N', '\u0085'), ('_', '\u00a0'), ('L', '\u2028'), ('P', '\u2029')]

/-- The digits of the code that a letter after a backslash announces. -/
def codeWidths : List (Char × Nat) := [('x', 2), ('u', 4), ('U', 8)]

/-- A character by its code in hexadecimal digits. A surrogate is none. -/
def charOfCode (digits : List Char) (width : Nat) : Except Failure Char :=
  if digits.length = width && digits.all isHexDigit then
    let code := valueOfDigits 16 (digits.map hexValue)
    if code.isValidChar then .ok (Char.ofNat code) else .error .malformedNumber
  else .error .malformedDocument

/-- The content of a scalar between quotation marks. The number of characters bounds
the number of steps. -/
def readQuotationMarks (state : QuotedState) :
    Nat → List Char → Except Failure (List Char × List Char)
  | 0, _ => .error .malformedDocument
  | _, [] => .error .malformedDocument
  | fuel + 1, c :: rest =>
    if state.atLineStart && atMarker (c :: rest) then .error .malformedDocument
    else if isBreak c then readQuotationMarks (state.afterBreak c) fuel rest
    else if isSpaceOrTab c then readQuotationMarks (state.afterBlank c) fuel rest
    else if c == '\x22' then .ok (state.content, rest)
    else if c == '\\' then
      match rest with
      | [] => .error .malformedDocument
      | e :: rest =>
        match escapes.lookup e, codeWidths.lookup e with
        | some meant, _ => before (state.content ++ [meant])
            (readQuotationMarks (.inLine []) fuel rest)
        | none, some width => do
          let meant ← charOfCode (rest.take width) width
          before (state.content ++ [meant])
            (readQuotationMarks (.inLine []) fuel (rest.drop width))
        | none, none =>
          -- An escaped break joins two lines, and further breaks are kept.
          if isBreak e then
            before state.content (readQuotationMarks (.atBreaks none []) fuel rest)
          else .error .malformedDocument
    else before (state.content ++ [c]) (readQuotationMarks (.inLine []) fuel rest)

/-! ## Plain scalars -/

/-- The characters that part the entries of a flow collection. -/
def isFlowMark (c : Char) : Bool := [',', '[', ']', '\x7b', '\x7d'].contains c

/-- The characters that no plain scalar begins with, unless one of the first three goes
on without a gap. -/
def isIndicator (c : Char) : Bool :=
  ['-', '?', ':', ',', '[', ']', '\x7b', '\x7d', '#', '&', '*', '!', '|', '>', '\x27', '\x22', '%',
   '@', '\x60'].contains c

/-- A plain scalar may begin here. -/
def beginsPlain (inFlow : Bool) : List Char → Bool
  | [] => false
  | c :: rest =>
    (!isGap c && !isIndicator c) ||
      (!atGap rest && (c == '-' || (!inFlow && (c == '?' || c == ':'))))

/-- A plain scalar ends before this text. -/
def endsPlain (inFlow : Bool) : List Char → Bool
  | [] => true
  | c :: rest =>
    isGap c ||
      (c == ':' && (atGap rest || (inFlow && rest.head?.any isFlowMark))) ||
      (inFlow && (isFlowMark c || c == '?'))

/-- Where a reader of a plain scalar is. -/
inductive PlainState where
  /-- In a line, after some spaces. -/
  | inLine (spaces : List Char)
  /-- After a line break, those after it, and some spaces. -/
  | inIndent (first : Char) (more : List Char) (column : Nat)

/-- The content of what a reader has passed but not yet taken. -/
def PlainState.content : PlainState → List Char
  | .inLine spaces => spaces
  | .inIndent first more _ => foldBreaks first more

/-- The state after a line break. -/
def PlainState.afterBreak (c : Char) : PlainState → PlainState
  | .inLine _ => .inIndent (readBreak c) [] 0
  | .inIndent first more _ => .inIndent first (more ++ [readBreak c]) 0

/-- The state after a space. -/
def PlainState.afterSpace : PlainState → PlainState
  | .inLine spaces => .inLine (spaces ++ [' '])
  | .inIndent first more column => .inIndent first more (column + 1)

/-- The scalar cannot go on with this text: it is a comment, it is not indented as
far as it has to be, or the document ends. -/
def PlainState.stops (inFlow : Bool) (indent : Nat) (text : List Char) : PlainState → Bool
  | .inLine spaces => !spaces.isEmpty && text.head? == some '#'
  | .inIndent _ _ column =>
    (column == 0 && atMarker text) || text.head? == some '#' || (!inFlow && column < indent)

/-- The content of a plain scalar. `stop` is the text after what has been taken; in
a block, further lines begin at column `indent` or after it. -/
def readPlain (inFlow : Bool) (indent : Nat) (state : PlainState) (stop : List Char) :
    List Char → List Char × List Char
  | [] => ([], stop)
  | c :: rest =>
    if isBreak c then
      readPlain inFlow indent (state.afterBreak c) stop rest
    else if c == ' ' then readPlain inFlow indent state.afterSpace stop rest
    -- Blanks and breaks that nothing follows are no part of the scalar.
    else if state.stops inFlow indent (c :: rest) || endsPlain inFlow (c :: rest) then ([], stop)
    else
      let r := readPlain inFlow indent (.inLine []) rest rest
      (state.content ++ c :: r.1, r.2)

end Deferral.Yaml
