/-
# Deferral.Yaml.Style -- how scalars are written

A text is written plain if nothing in it could be read as more than text, else
between apostrophes if it has no characters that need an escape and no blanks
at the beginning or end of a line, else between quotation marks. Lines that grow
beyond the width are folded at a space.
-/

import Deferral.Text.Quoted
import Deferral.Yaml.Scalar

namespace Deferral.Yaml

/-- The column after which a line is folded. -/
def lineWidth : Nat := 80

/-! ## The choice of a style -/

/-- The styles of scalars. -/
inductive Style where
  | plain
  | apostrophes
  | quotationMarks
deriving DecidableEq, Repr

/-- A character that stands for itself between apostrophes, and plain unless it is a
break. -/
def isOrdinary (c : Char) : Bool :=
  c == '\n' || ('\x20' ≤ c && c ≤ '\x7e') || c == '\u0085' ||
    (('\u00a0' ≤ c && c ≤ '\ud7ff') || ('\ue000' ≤ c && c ≤ '\ufffd') ||
      (0x10000 ≤ c.toNat && c.toNat < 0x10ffff)) && c != '\ufeff'

/-- A space stands next to a line break. -/
def hasSpaceAtBreak : List Char → Bool
  | c :: d :: rest =>
    (c == ' ' && isBreak d) || (isBreak c && d == ' ') || hasSpaceAtBreak (d :: rest)
  | _ => false

/-- A character that no plain scalar begins with. -/
def isLeadingIndicator (c : Char) : Bool :=
  ['#', ',', '[', ']', '\x7b', '\x7d', '&', '*', '!', '|', '>', '\x27', '\x22', '%', '@',
   '\x60'].contains c

/-- A character that a plain scalar begins with only if no gap follows. -/
def isHalfIndicator (c : Char) : Bool := c == '-' || c == '?' || c == ':'

/-- The beginning of a text could be read as more than text. -/
def hasLeadingIndicator : List Char → Bool
  | [] => false
  | c :: rest => isLeadingIndicator c || (isHalfIndicator c && atGap rest)

/-- A text begins like a mark between documents. -/
def beginsLikeMarker : List Char → Bool
  | '-' :: '-' :: '-' :: _ => true
  | '.' :: '.' :: '.' :: _ => true
  | _ => false

/-- Something after the first character could be read as a key or a comment. -/
def hasInnerIndicator : List Char → Bool
  | c :: d :: rest =>
    (d == ':' && atGap rest) || (d == '#' && isGap c) || hasInnerIndicator (d :: rest)
  | _ => false

/-- A text begins or ends with a space or a break. -/
def hasOuterGap (text : List Char) : Bool :=
  text.head?.any (fun c => c == ' ' || isBreak c) ||
    text.getLast?.any (fun c => c == ' ' || isBreak c)

/-- A text can be written without quotes. -/
def allowsPlain (text : List Char) : Bool :=
  text.all isOrdinary && !text.any isBreak && !hasOuterGap text && !beginsLikeMarker text &&
    !hasLeadingIndicator text && !hasInnerIndicator text

/-- A text can be written between apostrophes. -/
def allowsApostrophes (text : List Char) : Bool := text.all isOrdinary && !hasSpaceAtBreak text

/-- The style of a scalar. `implicit` says that the plain text stands for what is meant, and
`asKey` that the scalar has to stay in its line. -/
def styleOf (implicit asKey : Bool) (text : List Char) : Style :=
  if implicit && allowsPlain text && !(asKey && text.isEmpty) then .plain
  else if allowsApostrophes text && !(asKey && text.any isBreak) then .apostrophes
  else .quotationMarks

/-! ## Writing -/

/-- Spaces at the beginning of a line. -/
def indentation (indent : Nat) : List Char := List.replicate indent ' '

/-- A line may be folded at a space between these two characters. -/
def foldsBetween (previous : Option Char) (rest : List Char) : Bool :=
  previous.any (· != ' ') && rest.head?.any (· != ' ')

/-- A plain text from a column on, where further lines begin at column `indent`. -/
def writePlain (indent : Nat) (folds : Bool) (previous : Option Char) (column : Nat) :
    List Char → List Char
  | [] => []
  | c :: rest =>
    if c == ' ' && folds && foldsBetween previous rest && lineWidth < column then
      '\n' :: indentation indent ++ writePlain indent folds (some c) indent rest
    else c :: writePlain indent folds (some c) (column + 1) rest

/-- The content of a text between apostrophes, from a column on. -/
def writeApostrophes (indent : Nat) (folds : Bool) (previous : Option Char) (column : Nat) :
    List Char → List Char
  | [] => []
  | c :: rest =>
    if c == ' ' && folds && foldsBetween previous rest && lineWidth < column then
      '\n' :: indentation indent ++ writeApostrophes indent folds (some c) indent rest
    else if isBreak c then
      -- The first of several line feeds is dropped by a reader, so it is written twice.
      (if c == '\n' && !previous.any isBreak then ['\n'] else []) ++
        c :: (if rest.head?.any isBreak then writeApostrophes indent folds (some c) 0 rest
          else indentation indent ++ writeApostrophes indent folds (some c) indent rest)
    else if c == '\x27' then
      '\x27' :: '\x27' :: writeApostrophes indent folds (some c) (column + 2) rest
    else c :: writeApostrophes indent folds (some c) (column + 1) rest

/-- A character that stands for itself between quotation marks. -/
def isSelf (c : Char) : Bool :=
  c != '\x22' && c != '\\' && c != '\ufeff' && c != '\u2028' && c != '\u2029' &&
    (('\x20' ≤ c && c ≤ '\x7e') || ('\u00a0' ≤ c && c ≤ '\ud7ff') ||
      ('\ue000' ≤ c && c ≤ '\ufffd'))

/-- The escapes that are written with a letter. -/
def letterEscapes : List (Char × Char) :=
  [('\x00', '0'), ('\x07', 'a'), ('\x08', 'b'), ('\t', 't'), ('\n', 'n'), ('\x0b', 'v'),
   ('\x0c', 'f'), ('\r', 'r'), ('\x1b', 'e'), ('\x22', '\x22'), ('\\', '\\'), ('\u0085', 'N'),
   ('\u2028', 'L'), ('\u2029', 'P')]

/-- A character as an escape. -/
def escape (c : Char) : List Char :=
  match letterEscapes.lookup c with
  | some letter => ['\\', letter]
  | none => escapeCodeFrom 'A' c.toNat

/-- The end of a line that goes on in the next one, and the beginning of that; a
space there needs an escape. -/
def foldLine (indent : Nat) (rest : List Char) : List Char :=
  '\\' :: '\n' :: indentation indent ++ (if rest.head? == some ' ' then ['\\'] else [])

/-- The column after such a fold. -/
def foldedColumn (indent : Nat) (rest : List Char) : Nat :=
  if rest.head? == some ' ' then indent + 1 else indent

/-- The content of a text between quotation marks, from a column on. A line is folded before
a space or after an escape, but neither at the first nor at the last character. -/
def writeQuotationMarks (indent : Nat) (folds first afterEscape : Bool) (column : Nat) :
    List Char → List Char
  | [] => []
  | c :: rest =>
    let inside := folds && !first && !rest.isEmpty
    if isSelf c then
      if inside && (c == ' ' || afterEscape) && lineWidth < column then
        foldLine indent (c :: rest) ++
          c :: writeQuotationMarks indent folds false false
            (foldedColumn indent (c :: rest) + 1) rest
      else c :: writeQuotationMarks indent folds false false (column + 1) rest
    else
      let column := column + (escape c).length
      if inside && lineWidth + 1 < column then
        escape c ++ foldLine indent rest ++
          writeQuotationMarks indent folds false true (foldedColumn indent rest) rest
      else escape c ++ writeQuotationMarks indent folds false true column rest

/-- A scalar from a column on. -/
def writeScalar (style : Style) (indent column : Nat) (folds : Bool) (text : List Char) :
    List Char :=
  match style with
  | .plain => writePlain indent folds none column text
  | .apostrophes => '\x27' :: writeApostrophes indent folds none (column + 1) text ++ ['\x27']
  | .quotationMarks =>
    '\x22' :: writeQuotationMarks indent folds true false (column + 1) text ++ ['\x22']

end Deferral.Yaml
