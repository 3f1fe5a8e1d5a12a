/-
  The characters of a YAML text and a place among them.

  Line ends are made one before anything else is read: a carriage return, a line feed, both
  together and U+0085 all become a line feed, while U+2028 and U+2029 keep their own characters,
  which block scalars show.  A text with a character that YAML does not print is refused whole.

  A `Cursor` holds the characters still to be read and a `Mark`, the place in terms of lines and
  columns on which YAML's indentation hangs.
-/
import CallSweep.Text.Digits

namespace CallSweep.Yaml

/-! ## Errors -/

/-- Why a text is no YAML, or not the YAML that was asked for. -/
inductive Error where
  | forbiddenCharacter
  | strayCharacter
  | strayTab
  | badDirective
  | badTag
  | badAnchor
  | badEscape
  | badBlockHeader
  | unclosedQuote
  | missingColon
  | misplacedEntry
  | misplacedKey
  | misplacedValue
  | unexpectedToken
  | unknownTagHandle
  | unknownAlias
  | severalDocuments
  | notAMapping
  | notAKey
  | repeatedKey (key : String)
  | wrongType (key : String)
  deriving DecidableEq, Repr

namespace Error

def message : Error → String
  | .forbiddenCharacter => "control characters are not allowed"
  | .strayCharacter => "found a character that cannot start any token"
  | .strayTab => "found a tab where indentation is expected"
  | .badDirective => "found a directive that cannot be read"
  | .badTag => "found a tag that cannot be read"
  | .badAnchor => "found an anchor or alias that cannot be read"
  | .badEscape => "found an unknown escape in a quoted scalar"
  | .badBlockHeader => "found a block scalar whose header cannot be read"
  | .unclosedQuote => "found a quoted scalar that does not end"
  | .missingColon => "could not find expected ':'"
  | .misplacedEntry => "block sequence entries are not allowed in this context"
  | .misplacedKey => "mapping keys are not allowed in this context"
  | .misplacedValue => "mapping values are not allowed in this context"
  | .unexpectedToken => "did not find what the structure of the text asks for"
  | .unknownTagHandle => "found an undefined tag handle"
  | .unknownAlias => "found an alias to an unknown anchor"
  | .severalDocuments => "found more than one document"
  | .notAMapping => "expected a mapping at the top"
  | .notAKey => "expected a scalar as key"
  | .repeatedKey key => "duplicate field " ++ key
  | .wrongType key => "found a value of the wrong type for " ++ key

end Error

/-! ## Characters -/

/-- Whether a text may hold the character at all. -/
def isAllowed (c : Char) : Bool :=
  c == '\t' || c == '\n' || c == '\r' || (' ' ≤ c && c ≤ '~') || c == '\u0085' ||
    ('\u00a0' ≤ c && c ≤ '\ufffd') || 0x10000 ≤ c.toNat

/-- The characters that end a line, once line ends are made one. -/
def isBreak (c : Char) : Bool := c == '\n' || c == '\u2028' || c == '\u2029'

def isBlank (c : Char) : Bool := c == ' ' || c == '\t'

/-- The characters of names. -/
def isWordChar (c : Char) : Bool := c.isAlphanum || c == '-' || c == '_'

/-- Makes line ends one. -/
def unifyBreaks : List Char → List Char
  | [] => []
  | '\r' :: '\n' :: cs => '\n' :: unifyBreaks cs
  | c :: cs => (if c = '\r' ∨ c = '\u0085' then '\n' else c) :: unifyBreaks cs

/-- Whether the text goes on with a blank or a line end, or ends. -/
def atGap : List Char → Bool
  | [] => true
  | c :: _ => isBlank c || isBreak c

/-- Whether the text goes on with `---` or `...` as a mark between documents. -/
def atDocumentMark : List Char → Bool
  | '-' :: '-' :: '-' :: cs => atGap cs
  | '.' :: '.' :: '.' :: cs => atGap cs
  | _ => false

/-! ## Cursors -/

/-- A place in a text, all parts counted from zero: the octets in front of it, its line, and the
    characters in front of it on that line. -/
structure Mark where
  offset : Nat
  line : Nat
  column : Nat
  deriving DecidableEq, Repr

namespace Mark

def start : Mark := ⟨0, 0, 0⟩

/-- The place behind a character. -/
def step (m : Mark) (c : Char) : Mark :=
  if isBreak c then ⟨m.offset + c.utf8Size, m.line + 1, 0⟩
  else ⟨m.offset + c.utf8Size, m.line, m.column + 1⟩

/-- The place behind some characters. -/
def advance (m : Mark) (cs : List Char) : Mark := cs.foldl step m

end Mark

/-- The characters still to be read, and where they begin. -/
structure Cursor where
  rest : List Char
  mark : Mark

namespace Cursor

def column (c : Cursor) : Nat := c.mark.column

/-- The cursor behind the next character. -/
def next (c : Cursor) : Cursor :=
  match c.rest with
  | [] => c
  | ch :: cs => ⟨cs, c.mark.step ch⟩

/-- The cursor behind the next `n` characters. -/
def skip : (n : Nat) → Cursor → Cursor
  | 0, c => c
  | n + 1, c => skip n c.next

/-- The characters up to the first that `p` refuses, and the cursor there. -/
def span (c : Cursor) (p : Char → Bool) : List Char × Cursor :=
  let taken := c.rest.takeWhile p
  (taken, ⟨c.rest.dropWhile p, c.mark.advance taken⟩)

/-- The cursor at the first character that `p` refuses. -/
def skipWhile (c : Cursor) (p : Char → Bool) : Cursor := (c.span p).2

/-- Passes over blanks and a comment up to the end of the line.  None when something else is on
    the line. -/
def skipToLineEnd? (c : Cursor) : Option Cursor :=
  let c := c.skipWhile isBlank
  let c := if c.rest.head? = some '#' then c.skipWhile (!isBreak ·) else c
  match c.rest with
  | [] => some c
  | ch :: _ => if isBreak ch then some c.next else none

end Cursor

end CallSweep.Yaml
