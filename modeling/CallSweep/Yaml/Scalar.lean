/-
  Reading scalars.

  Quoted and plain scalars may run over several lines, which are then folded: one line end becomes
  a space, and of several the first is dropped.  What is read and what is pending between two words
  is a `Fold`.  In a block scalar the indentation decides where it ends, and lines are folded only
  if it is opened by `>`.  Each reader goes over the characters once; what it is in the middle of
  is its mode.
-/
import CallSweep.Yaml.Cursor
import CallSweep.Yaml.Token

namespace CallSweep.Yaml

/-! ## Folding -/

/-- Text that has been read, in reverse, and what stands between it and the next character: blanks
    on the same line, or, when `folding`, a first line end and those behind it. -/
structure Fold where
  text : List Char
  blanks : List Char
  folding : Bool
  first : Option Char
  more : List Char

namespace Fold

def empty : Fold := ⟨[], [], false, none, []⟩

/-- Nothing stands between the text and the next character. -/
def isFlush (f : Fold) : Bool := !f.folding && f.blanks.isEmpty

/-- Joins what is pending to the text. -/
def flush (f : Fold) : Fold :=
  let joint :=
    if !f.folding then f.blanks
    else
      match f.first with
      | none => f.more
      | some '\n' => if f.more.isEmpty then [' '] else f.more
      | some b => f.more ++ [b]
  ⟨joint ++ f.text, [], false, none, []⟩

/-- Reads a character of a word. -/
def push (f : Fold) (c : Char) : Fold :=
  let f := f.flush
  { f with text := c :: f.text }

/-- Reads a blank: at the head of a line it is dropped. -/
def blank (f : Fold) (c : Char) : Fold :=
  if f.folding then f else { f with blanks := c :: f.blanks }

/-- Reads a line end: blanks in front of it are dropped. -/
def lineEnd (f : Fold) (c : Char) : Fold :=
  if f.folding then { f with more := c :: f.more }
  else { f with blanks := [], folding := true, first := some c }

/-- Reads a line end behind a backslash, which leaves nothing of itself. -/
def escapedLineEnd (f : Fold) : Fold :=
  { f.flush with folding := true }

/-- The text with all that is pending. -/
def all (f : Fold) : String := String.ofList f.flush.text.reverse

/-- The text without what is pending. -/
def words (f : Fold) : String := String.ofList f.text.reverse

end Fold

/-! ## Quoted scalars -/

/-- The characters that a backslash and one character stand for. -/
def simpleEscape? : Char → Option Char
  | '0' => some '\x00'
  | 'a' => some '\x07'
  | 'b' => some '\x08'
  | 't' => some '\t'
  | '\t' => some '\t'
  | 'n' => some '\n'
  | 'v' => some '\x0b'
  | 'f' => some '\x0c'
  | 'r' => some '\r'
  | 'e' => some '\x1b'
  | ' ' => some ' '
  | '"' => some '"'
  | '/' => some '/'
  | '\\' => some '\\'
  | 'N' => some '\u0085'
  | '_' => some '\u00a0'
  | 'L' => some '\u2028'
  | 'P' => some '\u2029'
  | _ => none

/-- How many hexadecimal digits follow a backslash and a character. -/
def escapeDigits? : Char → Option Nat
  | 'x' => some 2
  | 'u' => some 4
  | 'U' => some 8
  | _ => none

/-- The character of a number that was written in an escape. -/
def escapedChar? (n : Nat) : Option Char :=
  if h : n.isValidChar then some (Char.ofNatAux n h) else none

/-- Where a reader of quoted scalars stands. -/
inductive QuoteMode where
  | text
  /-- Behind a single quote, which ends the scalar unless it is doubled. -/
  | quote
  /-- Behind a backslash. -/
  | escape
  /-- In a number with `left` digits to come. -/
  | digits (left value : Nat)

/-- Reads a scalar from behind its opening quote. -/
def readQuoted (single : Bool) (mode : QuoteMode) (f : Fold) (m : Mark) :
    List Char → Except Error (String × Cursor)
  | [] =>
    match mode with
    | .quote => .ok (f.all, ⟨[], m⟩)
    | _ => .error .unclosedQuote
  | c :: cs =>
    match mode with
    | .quote =>
      if c = '\'' then readQuoted single .text (f.push '\'') (m.step c) cs
      else .ok (f.all, ⟨c :: cs, m⟩)
    | .escape =>
      if isBreak c then readQuoted single .text f.escapedLineEnd (m.step c) cs
      else
        match simpleEscape? c, escapeDigits? c with
        | some e, _ => readQuoted single .text (f.push e) (m.step c) cs
        | none, some n => readQuoted single (.digits n 0) f (m.step c) cs
        | none, none => .error .badEscape
    | .digits left value =>
      match Text.hexDigit? c with
      | none => .error .badEscape
      | some d =>
        let value := value * 16 + d
        if left ≤ 1 then
          match escapedChar? value with
          | some e => readQuoted single .text (f.push e) (m.step c) cs
          | none => .error .badEscape
        else readQuoted single (.digits (left - 1) value) f (m.step c) cs
    | .text =>
      if m.column = 0 && atDocumentMark (c :: cs) then .error .unclosedQuote
      else if isBlank c then readQuoted single .text (f.blank c) (m.step c) cs
      else if isBreak c then readQuoted single .text (f.lineEnd c) (m.step c) cs
      else if single then
        if c = '\'' then readQuoted single .quote f (m.step c) cs
        else readQuoted single .text (f.push c) (m.step c) cs
      else if c = '"' then .ok (f.all, ⟨cs, m.step c⟩)
      else if c = '\\' then readQuoted single .escape f.flush (m.step c) cs
      else readQuoted single .text (f.push c) (m.step c) cs

/-! ## Plain scalars -/

/-- The characters that end a plain scalar inside a flow collection. -/
def isFlowIndicator (c : Char) : Bool :=
  c == ',' || c == '[' || c == ']' || c == '{' || c == '}'

/-- Reads a plain scalar whose further lines are indented by `indent` columns at least. -/
def readPlain (inFlow : Bool) (indent : Nat) (f : Fold) (m : Mark) :
    List Char → Except Error (Fold × Cursor)
  | [] => .ok (f, ⟨[], m⟩)
  | c :: cs =>
    if isBlank c then
      if f.folding && m.column < indent && c == '\t' then .error .strayTab
      else readPlain inFlow indent (f.blank c) (m.step c) cs
    else if isBreak c then readPlain inFlow indent (f.lineEnd c) (m.step c) cs
    else if !f.isFlush &&
        ((!inFlow && m.column < indent) || (m.column = 0 && atDocumentMark (c :: cs)) || c == '#')
    then .ok (f, ⟨c :: cs, m⟩)
    else if inFlow && c == ':' && cs.head?.any (fun d => isFlowIndicator d || d == '?') then
      .error .strayCharacter
    else if (c == ':' && atGap cs) || (inFlow && isFlowIndicator c) then .ok (f, ⟨c :: cs, m⟩)
    else readPlain inFlow indent (f.push c) (m.step c) cs

/-! ## Block scalars -/

/-- What becomes of the line ends at the end of a block scalar. -/
inductive Chomping where
  | strip
  | clip
  | keep
  deriving DecidableEq

/-- The header of a block scalar behind its indicator. -/
structure BlockHeader where
  chomping : Chomping
  /-- Columns of indentation beyond the parent's, where they are given. -/
  increment : Option Nat

/-- Reads `+` or `-`. -/
def readChomping (cs : List Char) : Option Chomping × List Char :=
  match cs with
  | '+' :: cs => (some .keep, cs)
  | '-' :: cs => (some .strip, cs)
  | cs => (none, cs)

/-- Reads a digit other than zero. -/
def readIncrement (cs : List Char) : Except Error (Option Nat × List Char) :=
  match cs with
  | c :: rest =>
    if c = '0' then .error .badBlockHeader
    else if c.isDigit then .ok (some (c.toNat - '0'.toNat), rest)
    else .ok (none, cs)
  | [] => .ok (none, [])

/-- Reads the two parts of a header, which may stand in either order. -/
def readBlockHeader (cs : List Char) : Except Error (BlockHeader × List Char) := do
  match readChomping cs with
  | (some chomping, cs) =>
    let (increment, cs) ← readIncrement cs
    return (⟨chomping, increment⟩, cs)
  | (none, cs) =>
    let (increment, cs) ← readIncrement cs
    let (chomping, cs) := if increment.isSome then readChomping cs else (none, cs)
    return (⟨chomping.getD .clip, increment⟩, cs)

/-- A block scalar that is being read: its text in reverse, the line end behind the last line, the
    line ends behind that, and whether the last line began with a blank. -/
structure BlockText where
  text : List Char
  lineEnd : Option Char
  more : List Char
  leadingBlank : Bool

namespace BlockText

def empty : BlockText := ⟨[], none, [], false⟩

/-- Joins the line ends in front of a line that begins with `c`.  In a folded scalar the end of a
    line is a space, or nothing if empty lines follow, unless one of the two lines begins with a
    blank. -/
def startLine (b : BlockText) (folded : Bool) (c : Char) : BlockText :=
  let text :=
    if folded && b.lineEnd == some '\n' && !b.leadingBlank && !isBlank c then
      if b.more.isEmpty then ' ' :: b.text else b.more ++ b.text
    else b.more ++ b.lineEnd.toList ++ b.text
  ⟨c :: text, none, [], isBlank c⟩

def finish (b : BlockText) (chomping : Chomping) : String :=
  let text :=
    match chomping with
    | .strip => b.text
    | .clip => b.lineEnd.toList ++ b.text
    | .keep => b.more ++ b.lineEnd.toList ++ b.text
  String.ofList text.reverse

end BlockText

/-- Reads the lines of a block scalar.  `indent` is the column of its lines, once it is known;
    `widest` is the widest indentation of the empty lines so far, and `least` the least that the
    surroundings allow. -/
def readBlock (folded : Bool) (least : Nat) (indent : Option Nat) (widest : Nat) (inLine : Bool)
    (b : BlockText) (m : Mark) : List Char → Except Error (BlockText × Cursor)
  | [] => .ok (b, ⟨[], m⟩)
  | c :: cs =>
    let inMargin := indent.all (m.column < ·)
    if inLine then
      if isBreak c then
        readBlock folded least indent widest false { b with lineEnd := some c } (m.step c) cs
      else
        readBlock folded least indent widest true { b with text := c :: b.text } (m.step c) cs
    else if inMargin && c == ' ' then
      readBlock folded least indent widest false b (m.step c) cs
    else if inMargin && c == '\t' then .error .strayTab
    else if isBreak c then
      readBlock folded least indent (max widest m.column) false { b with more := c :: b.more }
        (m.step c) cs
    else
      let found := indent.getD (max (max widest m.column) least)
      if m.column = found then
        readBlock folded least (some found) widest true (b.startLine folded c) (m.step c) cs
      else .ok (b, ⟨c :: cs, m⟩)

/-- Reads a block scalar from behind its indicator.  `parent` is the indentation of the collection
    that it stands in, none at the top. -/
def readBlockScalar (folded : Bool) (parent : Option Nat) (c : Cursor) :
    Except Error (String × Cursor) := do
  let (header, rest) ← readBlockHeader c.rest
  let start : Cursor := ⟨rest, c.mark.advance (c.rest.take (c.rest.length - rest.length))⟩
  match start.skipToLineEnd? with
  | none => throw .badBlockHeader
  | some start =>
    let least := match parent with
      | some n => n + 1
      | none => 1
    let indent := header.increment.map (parent.getD 0 + ·)
    let (b, c) ← readBlock folded least indent 0 false .empty start.mark start.rest
    return (b.finish header.chomping, c)

end CallSweep.Yaml
