/-
# Deferral.Proofs.Yaml.Documents -- mappings that were written are read back

A mapping from names to basic values is written with a row for each of its entries. A reader goes
from row to row: the key ends at the colon, the value with its last line, and since the next row
begins in the first column, it belongs to the same mapping. So the entries come back in their
order, each with its value as it comes back.
-/

import Deferral.Proofs.Yaml.Alphabet
import Deferral.Proofs.Yaml.Nodes
import Deferral.Proofs.Yaml.Scalars
import Mathlib.Data.List.Induction

namespace Deferral.Yaml

/-! ## Names -/

/-- The letters of names. -/
def nameLetters : List Char := "abcdefghijklmnopqrstuvwxyz_".toList

/-- A text that may be the name of an entry: a short word that stands for itself. -/
def isName (name : List Char) : Bool :=
  name.all nameLetters.contains && name.length < 100 && !isSpecial name && allowsPlain name &&
    !name.isEmpty

section Names

variable {name rest stop : List Char} {indent fuel : Nat} {c : Cursor}

/-- What holds of all letters of names holds of each character of a name. -/
theorem of_isName {p : Char → Bool} (h : isName name = true) (hp : nameLetters.all p = true) :
    ∀ c ∈ name, p c = true := by
  simp only [isName, Bool.and_eq_true] at h
  exact fun c hc => List.all_eq_true.mp hp c
    (List.contains_iff_mem.mp (List.all_eq_true.mp h.1.1.1.1 c hc))

theorem allowsPlain_of_isName (h : isName name = true) : allowsPlain name = true :=
  (Bool.and_eq_true_iff.mp (Bool.and_eq_true_iff.mp h).1).2

theorem special?_of_isName (h : isName name = true) : special? name = none := by
  simp only [isName, Bool.and_eq_true, Bool.not_eq_true', isSpecial,
    Option.isSome_eq_false_iff, Option.isNone_iff_eq_none] at h
  exact h.1.1.2

theorem length_of_isName (h : isName name = true) : name.length < 100 := by
  simp only [isName, Bool.and_eq_true, decide_eq_true_eq] at h
  exact h.1.1.1.2

theorem exists_cons_of_isName (h : isName name = true) :
    ∃ char letters, name = char :: letters := by
  simp only [isName, Bool.and_eq_true, Bool.not_eq_true', List.isEmpty_eq_false_iff] at h
  exact List.exists_cons_of_ne_nil h.2

/-- A plain scalar goes on with a letter of a name, and ends at a colon. -/
theorem readPlain_letters (hletters : ∀ c ∈ name, nameLetters.contains c = true)
    (hstop : name = [] → stop = ':' :: ' ' :: rest) :
    readPlain false indent (.inLine []) stop (name ++ ':' :: ' ' :: rest) =
      (name, ':' :: ' ' :: rest) := by
  induction name generalizing stop with
  | nil =>
      rw [hstop rfl]
      rfl
  | cons char letters ih =>
      obtain ⟨hchar, hletters⟩ := List.forall_mem_cons.mp hletters
      have hall : nameLetters.all (fun c => !isGap c && c != ':') = true := by decide
      have hclass := List.all_eq_true.mp hall char (List.contains_iff_mem.mp hchar)
      simp only [Bool.and_eq_true, Bool.not_eq_true', bne_iff_ne] at hclass
      obtain ⟨hgap, hcolon⟩ := hclass
      obtain ⟨hblank, hbreak⟩ := Bool.or_eq_false_iff.mp hgap
      have hspace : char ≠ ' ' := beq_eq_false_iff_ne.mp (Bool.or_eq_false_iff.mp hblank).1
      have hends : endsPlain false (char :: (letters ++ ':' :: ' ' :: rest)) = false := by
        rw [endsPlain, hgap, beq_eq_false_iff_ne.mpr hcolon]
        rfl
      rw [List.cons_append, readPlain_taken hbreak hspace rfl hends,
        ih hletters fun hnil => by rw [hnil]; rfl]
      rfl

theorem readPlain_name (h : isName name = true) :
    readPlain false indent (.inLine []) (name ++ ':' :: ' ' :: rest)
      (name ++ ':' :: ' ' :: rest) = (name, ':' :: ' ' :: rest) := by
  refine readPlain_letters (of_isName h ?_) fun hnil => ?_
  · exact List.all_eq_true.mpr fun c hc => List.contains_iff_mem.mpr hc
  · rw [hnil]
    rfl

/-- A name begins no collection, and it is skipped by nobody. -/
theorem beginsPlain_of_isName (h : isName name = true) (rest : List Char) : ∃ char letters,
    name ++ rest = char :: letters ∧ BeginsPlain char letters := by
  obtain ⟨char, letters, rfl⟩ := exists_cons_of_isName h
  have hclass := of_isName h (p := fun c => !isGap c && !isLeadingIndicator c && !isHalfIndicator c)
    (by decide) char List.mem_cons_self
  simp only [Bool.and_eq_true, Bool.not_eq_true'] at hclass
  obtain ⟨⟨hgap, hleading⟩, hhalf⟩ := hclass
  exact ⟨char, letters ++ rest, rfl, hgap, hleading, fun h => Bool.noConfusion (h.symm.trans hhalf)⟩

/-- No mark between documents begins with a letter of a name. -/
theorem atMarker_of_isName (h : isName name = true) : atMarker (name ++ rest) = false := by
  obtain ⟨char, letters, rfl⟩ := exists_cons_of_isName h
  have hclass :=
    of_isName h (p := fun c => c != '-' && c != '.') (by decide) char List.mem_cons_self
  simp only [Bool.and_eq_true, bne_iff_ne] at hclass
  exact atMarker_of_ne hclass.1 hclass.2

theorem beginsScalar_of_isName (h : isName name = true) : BeginsScalar (name ++ rest) := by
  obtain ⟨char, letters, heq, hbegins⟩ := beginsPlain_of_isName h rest
  rw [heq]
  exact hbegins.beginsScalar

/-- The place after a name. -/
def afterName (c : Cursor) (name rest : List Char) : Cursor :=
  ⟨':' :: ' ' :: rest, c.index + name.length, c.line, c.column + name.length⟩

theorem advanceTo_name (h : isName name = true) (hrest : c.rest = name ++ ':' :: ' ' :: rest) :
    c.advanceTo (':' :: ' ' :: rest) = afterName c name rest := by
  rw [Cursor.advanceTo_eq hrest, Cursor.advance_word (of_isName h (by decide)) hrest]
  rfl

/-- A name is read as a plain scalar. -/
theorem readInline_name (h : isName name = true) (hrest : c.rest = name ++ ':' :: ' ' :: rest)
    (parent : Nat) :
    readInline (fuel + 1) parent c = .ok (.plain name, afterName c name rest) := by
  obtain ⟨char, letters, heq, hbegins⟩ := beginsPlain_of_isName h (':' :: ' ' :: rest)
  rw [readInline_plain (hrest.trans heq) hbegins, hrest, readPlain_name h, ← advanceTo_name h hrest]

/-- The colon makes a key of the name. -/
theorem endsKey_name (h : isName name = true) (c : Cursor) (rest : List Char) :
    (afterName c name rest).skip = afterName c name rest ∧
      (afterName c name rest).endsKey c false = true := by
  constructor
  · refine Cursor.skip_of_beginsToken fun char hchar => ?_
    cases hchar
    decide
  · have hline : ((afterName c name rest).line == c.line) = true := beq_self_eq_true _
    have hindex : decide ((afterName c name rest).index ≤ c.index + 1024) = true := by
      have hlength := length_of_isName h
      refine decide_eq_true ?_
      show c.index + name.length ≤ c.index + 1024
      omega
    rw [Cursor.endsKey, hline, hindex]
    rfl

theorem readKey_name (h : isName name = true) (hrest : c.rest = name ++ ':' :: ' ' :: rest)
    (column : Nat) :
    readKey (fuel + 2) column c = .ok (.plain name, afterName c name rest) := by
  have hscalar : BeginsScalar c.rest := hrest ▸ beginsScalar_of_isName h
  obtain ⟨hskip, hends⟩ := endsKey_name h c rest
  rw [readKey, hscalar.atIndicator (by decide), if_neg Bool.false_ne_true,
    readInline_name h hrest, ok_bind]
  dsimp only
  rw [hskip, hends]
  rfl

/-- Where a name stands, a mapping begins. -/
theorem readNode_name (h : isName name = true) (hrest : c.rest = name ++ ':' :: ' ' :: rest)
    (parent : Nat) : readNode (fuel + 2) parent true c = readMap (fuel + 1) c.column c := by
  have hscalar : BeginsScalar c.rest := hrest ▸ beginsScalar_of_isName h
  obtain ⟨hskip, hends⟩ := endsKey_name h c rest
  rw [readNode, hscalar.atIndicator (by decide), hscalar.atIndicator (by decide),
    if_neg Bool.false_ne_true, if_neg Bool.false_ne_true, readInline_name h hrest, ok_bind]
  dsimp only
  rw [hskip, hends]
  rfl

end Names

/-! ## Rows -/

/-- A row of a document: a name, and a basic value as the scalar that is written. -/
structure Row where
  name : String
  isName : Yaml.isName name.toList = true
  value : Value
  isBasic : value.isBasic = true
  scalar : ScalarText
  scalar_eq : scalarText? value = .ok (some scalar)

namespace Row

/-- The entry that is written in the row. -/
def entry (row : Row) : Value × Value := (.text row.name, row.value)

/-- The scalar of the name. -/
def key (row : Row) : ScalarText := ⟨row.name.toList, !isSpecial row.name.toList, "!!str"⟩

/-- What stands after the colon and a space. -/
def afterColon (row : Row) : List Char := row.scalar.afterKey (row.name.toList.length + 2)

/-- The text of a row, which may have more than one line. -/
def text (row : Row) : List Char := row.name.toList ++ ':' :: ' ' :: row.afterColon

end Row

/-- The text of a document. -/
def documentText (rows : List Row) : List Char := rows.flatMap fun row => row.text ++ ['\n']

theorem documentText_cons (row : Row) (rows : List Row) :
    documentText (row :: rows) = row.text ++ '\n' :: documentText rows := by
  rw [documentText, List.flatMap_cons, List.append_assoc]
  rfl

/-- A document has more characters than rows. -/
theorem length_le_documentText (rows : List Row) : rows.length ≤ (documentText rows).length := by
  induction rows with
  | nil => exact Nat.le_refl _
  | cons row rows ih =>
      rw [documentText_cons, List.length_append, List.length_cons, List.length_cons]
      omega

section Writing

variable {row : Row} {rows : List Row}

/-- A name is written as it is. -/
theorem Row.writeKey_key (row : Row) : row.key.writeKey 0 = row.name.toList := by
  obtain ⟨char, letters, hname⟩ := exists_cons_of_isName row.isName
  have hempty : row.name.toList.isEmpty = false := by rw [hname]; rfl
  have hmark : row.key.writtenMark = [] := by
    rw [key, ScalarText.writtenMark, beq_self_eq_true, Bool.or_true]
    rfl
  rw [ScalarText.writeKey, hmark, key, isSpecial, special?_of_isName row.isName, styleOf,
    allowsPlain_of_isName row.isName, hempty]
  exact writePlain_of_not_folds _

theorem Row.isShort_key (row : Row) : row.key.isShort = true := by
  obtain ⟨char, letters, hname⟩ := exists_cons_of_isName row.isName
  have hlength := length_of_isName row.isName
  have hmark : "!!str".length = 5 := by decide
  have hbreaks : row.name.toList.any isBreak = false := by
    have hletters := of_isName row.isName (p := fun c => !isBreak c) (by decide)
    exact List.any_eq_false.mpr fun c hc hbreak => by
      have hnone := hletters c hc
      rw [hbreak] at hnone
      cases hnone
  have hempty : row.name.toList.isEmpty = false := by rw [hname]; rfl
  have hshort : decide ("!!str".length + row.name.toList.length < 128) = true :=
    decide_eq_true (by omega)
  rw [ScalarText.isShort, key, hshort, hempty, hbreaks]
  rfl

/-- An entry is written as its row, with the rows of the other entries after it. -/
theorem writeEntries_row (row : Row) {entries : List (Value × Value)} {text : List Char}
    (inLine : Bool) (h : writeEntries ⟨0, false⟩ 0 entries = .ok text) :
    writeEntries ⟨0, inLine⟩ 0 (row.entry :: entries) =
      .ok (Layout.lead ⟨0, inLine⟩ 0 ++ row.text ++ text) := by
  have hmark := writtenMark_eq_nil row.scalar_eq row.isBasic
  have hvalue : row.scalar.write 2 (0 + row.name.toList.length + 1) = ' ' :: row.afterColon := by
    rw [ScalarText.write, hmark, Nat.zero_add]
    rfl
  have hkey : scalarText? (.text row.name) = .ok (some row.key) := rfl
  rw [Row.entry, writeEntries, hkey, ok_bind]
  dsimp only
  rw [show Layout.next ⟨0, inLine⟩ = ⟨0, false⟩ from rfl, h, ok_bind, if_pos row.isShort_key,
    row.writeKey_key, writeValue_of_scalarText? row.scalar_eq, ok_bind, hvalue, Row.text]
  simp only [List.append_assoc, List.cons_append]
  rfl

theorem writeEntries_rows (rows : List Row) :
    writeEntries ⟨0, false⟩ 0 (rows.map Row.entry) =
      .ok (rows.flatMap fun row => '\n' :: row.text) := by
  induction rows with
  | nil => rw [List.map_nil, writeEntries, List.flatMap_nil]
  | cons row rows ih =>
      rw [List.map_cons, writeEntries_row row false ih]
      rfl

/-- A line feed after each row, or before each one and at the end. -/
theorem lineFeed_documentText (rows : List Row) :
    (rows.flatMap fun row => '\n' :: row.text) ++ ['\n'] = '\n' :: documentText rows := by
  induction rows with
  | nil => rfl
  | cons row rows ih =>
      rw [documentText_cons, List.flatMap_cons, List.append_assoc, ih, List.cons_append]

/-- The entries of rows are written row by row. -/
theorem write_rows (row : Row) (rows : List Row) :
    write ((row :: rows).map Row.entry) = .ok (documentText (row :: rows)) := by
  rw [write, List.map_cons, writeEntries_row row true (writeEntries_rows rows)]
  show Except.ok (([] ++ row.text ++ _) ++ ['\n']) = _
  rw [List.nil_append, List.append_assoc, lineFeed_documentText, documentText_cons]

theorem all_isAllowed_documentText (rows : List Row) :
    (documentText rows).all isAllowed = true := by
  rw [documentText, List.all_flatMap, List.all_eq_true]
  intro row _
  have hname : row.name.toList.all isAllowed = true :=
    List.all_eq_true.mpr (of_isName row.isName (by decide))
  rw [Row.text, List.all_append, List.all_append, hname, List.all_cons, List.all_cons,
    Row.afterColon, ScalarText.afterKey, all_isAllowed_writeScalar]
  decide

end Writing

/-! ## Reading -/

section Reading

variable {row : Row} {rows : List Row} {c : Cursor} {next : List Char}

/-- Each row begins in the first column, with a letter of its name. -/
theorem beginsToken_documentText (rows : List Row) : BeginsToken (documentText rows) := by
  cases rows with
  | nil => exact fun c hc => by cases hc
  | cons row rows =>
      rw [documentText_cons, Row.text, List.append_assoc]
      exact (beginsScalar_of_isName row.isName).beginsToken

theorem endsLine_of_beginsToken (h : BeginsToken next) : EndsLine ('\n' :: next) :=
  ⟨next, rfl, fun c hc => (h c hc).1⟩

/-- The value of a row is a scalar, which ends with its line. -/
theorem readNode_afterColon (fuel : Nat) (hrest : c.rest = row.afterColon ++ '\n' :: next)
    (hnext : BeginsToken next) (keys : Bool) :
    ∃ node stop, readNode (fuel + 2) 1 keys c = .ok (node, stop) ∧ ReadAs row.scalar node ∧
      stop.rest = '\n' :: next := by
  have hne := text_ne_nil row.scalar_eq row.isBasic
  have hline := endsLine_of_beginsToken hnext
  have hscalar : BeginsScalar c.rest := hrest ▸ beginsScalar_afterKey hne hline
  obtain ⟨node, hread, hnode⟩ := readInline_afterKey fuel hrest hne hline
  have hstop : (c.advanceTo ('\n' :: next)).rest = '\n' :: next := by
    rw [Cursor.advanceTo_eq hrest]
    exact Cursor.rest_advance hrest
  have hends : (c.advanceTo ('\n' :: next)).skip.endsKey c false = false := by
    have hbelow : c.line ≤ (c.advanceTo ('\n' :: next)).line := c.line_le_advance _
    have hother : ((c.advanceTo ('\n' :: next)).line + 1 == c.line) = false :=
      beq_eq_false_iff_ne.mpr (by omega)
    rw [Cursor.skip_lineFeed hstop hnext, Cursor.endsKey, hother]
    rfl
  refine ⟨node, _, ?_, hnode, hstop⟩
  rw [readNode, hscalar.atIndicator (by decide), hscalar.atIndicator (by decide),
    if_neg Bool.false_ne_true, if_neg Bool.false_ne_true, hread, ok_bind]
  dsimp only
  rw [hends]
  rfl

theorem readChild_afterColon (fuel : Nat) (hrest : c.rest = ' ' :: (row.afterColon ++ '\n' :: next))
    (hnext : BeginsToken next) (indentless keys : Bool) :
    ∃ node stop, readChild (fuel + 3) 0 indentless keys c = .ok (node, stop) ∧
      ReadAs row.scalar node ∧ stop.rest = '\n' :: next := by
  have hscalar : BeginsScalar (row.afterColon ++ '\n' :: next) :=
    beginsScalar_afterKey (text_ne_nil row.scalar_eq row.isBasic) (endsLine_of_beginsToken hnext)
  have hskip : c.skip = c.pass ' ' (row.afterColon ++ '\n' :: next) := by
    rw [Cursor.skip_space hrest]
    exact Cursor.skip_of_beginsToken hscalar.beginsToken
  have hcolumn : (c.pass ' ' (row.afterColon ++ '\n' :: next)).column = c.column + 1 := by
    rw [Cursor.pass_isInLine (by decide)]
  have hatEnd : (c.pass ' ' (row.afterColon ++ '\n' :: next)).atEnd = false :=
    BeginsScalar.atEnd hscalar (by rw [hcolumn]; exact Nat.succ_ne_zero _)
  obtain ⟨node, stop, hread, hnode, hstop⟩ :=
    readNode_afterColon fuel (c := c.pass ' ' (row.afterColon ++ '\n' :: next)) rfl hnext
      (keys || c.skip.isBelow c)
  refine ⟨node, stop, ?_, hnode, hstop⟩
  rw [readChild, hskip, hatEnd, hcolumn, if_neg Bool.false_ne_true, if_pos (Nat.succ_pos _),
    ← hskip]
  rw [← hskip] at hread
  exact hread

/-- The row at a place is read, and then what begins in the next line. -/
theorem readMap_row (fuel : Nat) (hrest : c.rest = row.text ++ '\n' :: next)
    (hnext : BeginsToken next) :
    ∃ (node : Node) (stop : Cursor), ReadAs row.scalar node ∧ stop.skip.rest = next ∧
      readMap (fuel + 4) 0 c =
        if stop.skip.atEnd then .ok (.map [(.plain row.name.toList, node)], stop)
        else readMap (fuel + 3) 0 stop.skip >>= fun r =>
          match r.1 with
          | .map entries => .ok (.map ((.plain row.name.toList, node) :: entries), r.2)
          | _ => .error .malformedDocument := by
  have hrow : c.rest = row.name.toList ++ ':' :: ' ' :: (row.afterColon ++ '\n' :: next) := by
    rw [hrest, Row.text, List.append_assoc]
    rfl
  have hscalar : BeginsScalar c.rest := hrow ▸ beginsScalar_of_isName row.isName
  obtain ⟨hskip, -⟩ := endsKey_name row.isName c (row.afterColon ++ '\n' :: next)
  have hcolon : ((afterName c row.name.toList (row.afterColon ++ '\n' :: next)).advance 1).rest =
      ' ' :: (row.afterColon ++ '\n' :: next) := rfl
  obtain ⟨node, stop, hread, hnode, hstop⟩ := readChild_afterColon fuel hcolon hnext true false
  have hline := Cursor.skip_lineFeed hstop hnext
  have hbelow : stop.skip.isBelow stop = true := by
    rw [hline]
    exact decide_eq_true (Nat.lt_succ_self _)
  have hcolumn : stop.skip.column = 0 := by rw [hline]
  refine ⟨node, stop, hnode, by rw [hline], ?_⟩
  rw [readMap, readKey_name row.isName hrow, ok_bind]
  dsimp only
  rw [hskip, hscalar.atIndicator (by decide), Bool.not_false, if_pos rfl, hread, ok_bind]
  dsimp only
  rw [hcolumn, hbelow]
  simp only [Nat.lt_irrefl, decide_false, Bool.or_false, beq_self_eq_true, Bool.and_self, if_true]
  rfl

/-- The rows are read from the first column of a line on. -/
theorem readMap_rows (row : Row) (rows : List Row) {fuel : Nat} (hfuel : rows.length + 4 ≤ fuel)
    (hrest : c.rest = documentText (row :: rows)) :
    ∃ nodes stop, readMap fuel 0 c = .ok (.map nodes, stop) ∧ stop.skip.rest = [] ∧
      List.Forall₂ (fun row node => node.1 = .plain row.name.toList ∧ ReadAs row.scalar node.2)
        (row :: rows) nodes := by
  induction rows generalizing row c fuel with
  | nil =>
      obtain ⟨fuel, rfl⟩ := Nat.exists_eq_add_of_le' hfuel
      rw [documentText_cons] at hrest
      obtain ⟨node, stop, hnode, hstop, hread⟩ :=
        readMap_row fuel hrest (beginsToken_documentText [])
      have hatEnd : stop.skip.atEnd = true := by
        rw [Cursor.atEnd, hstop]
        rfl
      refine ⟨[(.plain row.name.toList, node)], stop, ?_, hstop, .cons ⟨rfl, hnode⟩ .nil⟩
      rw [List.length_nil, Nat.zero_add, hread, if_pos hatEnd]
  | cons row' rows ih =>
      obtain ⟨fuel, rfl⟩ := Nat.exists_eq_add_of_le' hfuel
      rw [documentText_cons] at hrest
      obtain ⟨node, stop, hnode, hstop, hread⟩ :=
        readMap_row (fuel + rows.length + 1) hrest (beginsToken_documentText (row' :: rows))
      have hfuel : rows.length + 4 ≤ fuel + rows.length + 1 + 3 := by omega
      obtain ⟨nodes, last, hnodes, hlast, hrel⟩ := ih row' hfuel hstop
      have hatEnd : stop.skip.atEnd = false := by
        obtain ⟨char, letters, hname⟩ := exists_cons_of_isName row'.isName
        have hmarker : atMarker stop.skip.rest = false := by
          rw [hstop, documentText_cons, Row.text, List.append_assoc]
          exact atMarker_of_isName row'.isName
        have hempty : stop.skip.rest.isEmpty = false := by
          rw [hstop, documentText_cons, Row.text, hname]
          rfl
        rw [Cursor.atEnd, hmarker, hempty, Bool.and_false]
        rfl
      refine ⟨(.plain row.name.toList, node) :: nodes, last, ?_, hlast, .cons ⟨rfl, hnode⟩ hrel⟩
      have hsum : fuel + ((row' :: rows).length + 4) = fuel + rows.length + 1 + 4 := by
        rw [List.length_cons]
        omega
      rw [hsum, hread, hatEnd, if_neg Bool.false_ne_true, hnodes, ok_bind]

/-- A text that begins with a token and ends with its node is a document. -/
theorem readDocument_of_readNode {text : List Char} {node : Node} {last : Cursor}
    (hallowed : text.all isAllowed = true) (hmark : dropByteOrderMark text = text)
    (hmarker : atMarker text = false) (htoken : BeginsToken text) (hempty : text.isEmpty = false)
    (hread : readNode (8 * text.length + 16) 0 true ⟨text, 0, 0, 0⟩ = .ok (node, last))
    (hlast : last.skip.rest = []) : readDocument text = .ok node := by
  have hskip : (⟨text, 0, 0, 0⟩ : Cursor).skip = ⟨text, 0, 0, 0⟩ :=
    Cursor.skip_of_beginsToken htoken
  have hatEnd : (⟨text, 0, 0, 0⟩ : Cursor).atEnd = false := by
    rw [Cursor.atEnd, hmarker, hempty]
    rfl
  have hends : endsDocument (8 * text.length + 16) last = true := by
    rw [endsDocument, hlast]
    rfl
  simp only [readDocument, unifyLines_of_isAllowed hallowed, hallowed, hmark, hskip, hempty,
    hmarker, hatEnd, Bool.and_false, Bool.false_and, Bool.not_true, Bool.not_false, Bool.true_or,
    Bool.false_eq_true, if_false, hread, ok_bind, hends, if_true]
  rfl

/-- A document of rows is read as a mapping. -/
theorem readDocument_rows (row : Row) (rows : List Row) :
    ∃ nodes, readDocument (documentText (row :: rows)) = .ok (.map nodes) ∧
      List.Forall₂ (fun row node => node.1 = .plain row.name.toList ∧ ReadAs row.scalar node.2)
        (row :: rows) nodes := by
  have htext : documentText (row :: rows) =
      row.name.toList ++ ':' :: ' ' :: (row.afterColon ++ '\n' :: documentText rows) := by
    rw [documentText_cons, Row.text, List.append_assoc]
    rfl
  have hlength := length_le_documentText (row :: rows)
  rw [List.length_cons] at hlength
  have hfuel : rows.length + 4 ≤ 8 * (documentText (row :: rows)).length + 15 := by omega
  obtain ⟨nodes, last, hread, hlast, hrel⟩ :=
    readMap_rows (c := ⟨documentText (row :: rows), 0, 0, 0⟩) row rows hfuel rfl
  have hmark : dropByteOrderMark (documentText (row :: rows)) = documentText (row :: rows) := by
    obtain ⟨char, letters, hname⟩ := exists_cons_of_isName row.isName
    have hchar := of_isName row.isName (p := fun c => c != '\ufeff') (by decide) char
      (by rw [hname]; exact List.mem_cons_self)
    rw [htext, hname]
    unfold dropByteOrderMark
    split
    · next heq => exact absurd (List.cons.inj heq).1 (bne_iff_ne.mp hchar)
    · rfl
  have hmarker : atMarker (documentText (row :: rows)) = false := by
    rw [htext]
    exact atMarker_of_isName row.isName
  have hempty : (documentText (row :: rows)).isEmpty = false := by
    obtain ⟨char, letters, hname⟩ := exists_cons_of_isName row.isName
    rw [htext, hname]
    rfl
  refine ⟨nodes, readDocument_of_readNode (all_isAllowed_documentText _) hmark hmarker
    (beginsToken_documentText _) hempty ?_ hlast, hrel⟩
  rw [readNode_name row.isName htext]
  exact hread

end Reading

/-! ## The value of a document -/

section Values

/-- A table that has been related to a list is one of a function. -/
theorem exists_eq_map_of_forall₂ {α β : Type} {r : α → β → Prop} {as : List α} {bs : List β}
    (h : List.Forall₂ r as bs) (hnodup : as.Nodup) (b : β) :
    ∃ f : α → β, bs = as.map f ∧ ∀ a ∈ as, r a (f a) := by
  classical
  induction h with
  | nil => exact ⟨fun _ => b, rfl, fun a ha => absurd ha List.not_mem_nil⟩
  | @cons a b' as bs hab _ ih =>
      obtain ⟨hnew, hnodup⟩ := List.nodup_cons.mp hnodup
      obtain ⟨f, rfl, hf⟩ := ih hnodup
      have hother : ∀ a' ∈ as, Function.update f a b' a' = f a' := fun a' ha' =>
        Function.update_of_ne (ne_of_mem_of_not_mem ha' hnew) _ _
      refine ⟨Function.update f a b', ?_, List.forall_mem_cons.mpr ⟨?_, fun a' ha' => ?_⟩⟩
      · rw [List.map_cons, Function.update_self, List.map_congr_left hother]
      · rw [Function.update_self]
        exact hab
      · rw [hother a' ha']
        exact hf a' ha'

/-- No name takes over the entries of others. -/
theorem Row.takesOver_name (row : Row) : Node.takesOver (.plain row.name.toList) = false := by
  refine beq_eq_false_iff_ne.mpr fun heq => ?_
  have hnone := special?_of_isName row.isName
  rw [heq] at hnone
  cases hnone

/-- A name stands for itself. -/
theorem Row.keyMeaning_name (row : Row) :
    Node.keyMeaning (.plain row.name.toList) (Node.plain row.name.toList).meaning =
      .ok (.text row.name) := by
  have hnone := special?_of_isName row.isName
  have hmeaning : (Node.plain row.name.toList).meaning = .ok (.text row.name) := by
    rw [Node.meaning, plainValue, hnone, Option.getD_none, String.ofList_toList]
    rfl
  rw [Node.keyMeaning, hmeaning]
  · rintro heq
    rw [Node.plain.inj heq] at hnone
    cases hnone
  · rintro _ heq
    cases heq
  · rintro _ heq
    cases heq

/-- The nodes of rows stand for their entries. -/
theorem entryMeanings_rows {rows : List Row} {nodes : List (Node × Node)}
    (h : List.Forall₂ (fun row node => node.1 = .plain row.name.toList ∧ ReadAs row.scalar node.2)
      rows nodes) :
    ∃ entries, Node.entryMeanings nodes = .ok ⟨[], entries⟩ ∧
      List.Forall₂ (fun (row : Row) (entry : Value × Value) =>
        entry.1 = .text row.name ∧ row.value.ComesBackAs entry.2) rows entries := by
  induction h with
  | nil => exact ⟨[], rfl, .nil⟩
  | @cons row node rows nodes hnode _ ih =>
      obtain ⟨key, valueNode⟩ := node
      obtain ⟨rfl, hread⟩ := hnode
      obtain ⟨entries, hentries, hrel⟩ := ih
      obtain ⟨result, hresult, hback⟩ := meaning_of_readAs row.scalar_eq row.isBasic hread
      refine ⟨(.text row.name, result) :: entries, ?_, .cons ⟨rfl, hback⟩ hrel⟩
      rw [Node.entryMeanings, row.takesOver_name, if_neg Bool.false_ne_true, row.keyMeaning_name,
        hresult, hentries]
      rfl

/-- Another key leaves the entries alone and goes to their end. -/
theorem insertEntry_of_ne {key value : Value} {entries : List (Value × Value)}
    (h : ∀ entry ∈ entries, entry.1.same key = false) :
    Value.insertEntry key value entries = entries ++ [(key, value)] := by
  induction entries with
  | nil => rfl
  | cons entry entries ih =>
      obtain ⟨hentry, hrest⟩ := List.forall_mem_cons.mp h
      rw [Value.insertEntry, hentry, if_neg Bool.false_ne_true, ih hrest]
      rfl

/-- Entries of different names make a mapping of just these. -/
theorem foldl_insertEntry {rows : List Row} (hnames : (rows.map Row.name).Nodup)
    (value : Row → Value) :
    (rows.map fun row => (Value.text row.name, value row)).foldl
        (fun done entry => Value.insertEntry entry.1 entry.2 done) [] =
      rows.map fun row => (.text row.name, value row) := by
  induction rows using List.reverseRecOn with
  | nil => rfl
  | append_singleton rows row ih =>
      rw [List.map_append, List.map_singleton, List.nodup_append] at hnames
      obtain ⟨hnames, -, hnew⟩ := hnames
      rw [List.map_append, List.foldl_append, ih hnames, List.map_singleton, List.foldl_cons,
        List.foldl_nil]
      refine insertEntry_of_ne fun entry hentry => ?_
      obtain ⟨other, hother, rfl⟩ := List.mem_map.mp hentry
      exact beq_eq_false_iff_ne.mpr
        (hnew _ (List.mem_map_of_mem hother) _ List.mem_cons_self)

/-- A document of rows of different names has their entries, each with its value as it comes
back. -/
theorem read_rows (row : Row) (rows : List Row) (hnames : ((row :: rows).map Row.name).Nodup) :
    ∃ value : Row → Value, (∀ row' ∈ row :: rows, row'.value.ComesBackAs (value row')) ∧
      read (documentText (row :: rows)) =
        .ok (.map ((row :: rows).map fun row' => (.text row'.name, value row'))) := by
  obtain ⟨nodes, hread, hnodes⟩ := readDocument_rows row rows
  obtain ⟨entries, hmeanings, hentries⟩ := entryMeanings_rows hnodes
  have hrows : (row :: rows).Nodup :=
    List.Pairwise.of_map Row.name (fun _ _ hne heq => hne (congrArg Row.name heq)) hnames
  obtain ⟨entry, rfl, hentry⟩ := exists_eq_map_of_forall₂ hentries hrows (.null, .null)
  refine ⟨fun row' => (entry row').2, fun row' hrow => (hentry row' hrow).2, ?_⟩
  have hmap : (row :: rows).map entry =
      (row :: rows).map fun row' => (.text row'.name, (entry row').2) :=
    List.map_congr_left fun row' hrow => Prod.ext (hentry row' hrow).1 rfl
  have hvalue : (Node.map nodes).value =
      .ok (.map ((row :: rows).map fun row' => (.text row'.name, (entry row').2))) := by
    rw [Node.value, Node.meaning, hmeanings, hmap]
    show Except.ok (Value.map (List.foldl _ [] ([] ++ _))) = _
    rw [List.nil_append, foldl_insertEntry hnames fun row' => (entry row').2]
  rw [read, hread]
  exact hvalue

end Values

end Deferral.Yaml
