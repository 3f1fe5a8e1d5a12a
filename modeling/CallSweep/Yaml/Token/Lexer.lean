/-
  The tokens of a text.

  Most tokens can be told by their first characters.  Two things cannot.  Indentation opens and
  closes block collections: the `Lexer` keeps the columns of those that are open.  And a key
  without `?` is only known to be one when its colon is met: at each place where a key may begin
  the lexer remembers a `Candidate`, and the `key` token, with the start of a block mapping if it
  is the first key of one, is put in front of what was read since.  A candidate is given up when
  the line ends or after 1024 octets; one that stands where its block mapping's keys stand has
  to be a key, and to give it up is an error.
-/
import CallSweep.Yaml.Scalar
import CallSweep.Yaml.Tag

namespace CallSweep.Yaml

/-! ## The state -/

/-- A place where a key without `?` may begin, and the tokens in front of it. -/
structure Candidate where
  required : Bool
  number : Nat
  mark : Mark

/-- The text still to be read, the tokens read so far, in reverse, and what the next token depends
    on: the columns of the open block collections, innermost first, whether a key may begin here,
    the candidate of the innermost collection, and those of the flow collections around it. -/
structure Lexer where
  cursor : Cursor
  tokens : List Token
  count : Nat
  indents : List Nat
  keyAllowed : Bool
  candidate : Option Candidate
  outer : List (Option Candidate)

namespace Lexer

/-- At the head of a text. -/
def start (cs : List Char) : Lexer where
  cursor := ⟨unifyBreaks cs, .start⟩
  tokens := []
  count := 0
  indents := []
  keyAllowed := true
  candidate := none
  outer := []

/-- Whether a flow collection is open. -/
def inFlow (x : Lexer) : Bool := !x.outer.isEmpty

/-- Column of the innermost block collection. -/
def indent? (x : Lexer) : Option Nat := x.indents.head?

def column (x : Lexer) : Nat := x.cursor.column

/-- Adds a token behind the others. -/
def emit (x : Lexer) (t : Token) : Lexer :=
  { x with tokens := t :: x.tokens, count := x.count + 1 }

/-- Adds a token in front of all but the first `number` ones. -/
def insert (x : Lexer) (number : Nat) (t : Token) : Lexer :=
  let behind := x.count - number
  { x with tokens := x.tokens.take behind ++ t :: x.tokens.drop behind, count := x.count + 1 }

/-! ## Indentation -/

/-- Whether a collection in this column would stand inside the innermost one. -/
def isDeeper (x : Lexer) (column : Nat) : Bool := x.indent?.all (· < column)

/-- Opens a block collection in a column unless it is open, putting `t` behind the first `number`
    tokens. -/
def openBlock (x : Lexer) (column number : Nat) (t : Token) : Lexer :=
  if !x.inFlow && x.isDeeper column then
    { x.insert number t with indents := column :: x.indents }
  else x

/-- The block collections that are closed by what begins in a column; all of them by none. -/
def closed (column : Option Nat) : List Nat → Nat × List Nat
  | [] => (0, [])
  | i :: is =>
    if column.all (· < i) then
      let (n, rest) := closed column is
      (n + 1, rest)
    else (0, i :: is)

/-- Closes the block collections that end in front of a column. -/
def closeBlocks (x : Lexer) (column : Option Nat) : Lexer :=
  if x.inFlow then x
  else
    let (n, indents) := closed column x.indents
    { x with
      tokens := List.replicate n .blockEnd ++ x.tokens, count := x.count + n, indents := indents }

/-! ## Candidates -/

/-- Whether a candidate lies too far back. -/
def isStale (m : Mark) (k : Candidate) : Bool :=
  k.mark.line < m.line || k.mark.offset + 1024 < m.offset

/-- A candidate that is given up if it lies too far back. -/
def refresh (m : Mark) : Option Candidate → Except Error (Option Candidate)
  | none => .ok none
  | some k =>
    if !isStale m k then .ok (some k)
    else if k.required then .error .missingColon
    else .ok none

/-- Gives up the candidates that lie too far back. -/
def refreshAll (x : Lexer) : Except Error Lexer := do
  let candidate ← refresh x.cursor.mark x.candidate
  let outer ← x.outer.mapM (refresh x.cursor.mark)
  return { x with candidate, outer }

/-- Gives up the candidate of the innermost collection. -/
def dropCandidate (x : Lexer) : Except Error Lexer :=
  if x.candidate.any (·.required) then .error .missingColon
  else .ok { x with candidate := none }

/-- Remembers that a key may begin here, if one may. -/
def saveCandidate (x : Lexer) : Except Error Lexer := do
  if !x.keyAllowed then return x
  let x ← x.dropCandidate
  let required := !x.inFlow && x.indent? == some x.column
  return { x with candidate := some ⟨required, x.count, x.cursor.mark⟩ }

/-! ## Tokens -/

/-- Passes over blanks, comments and line ends to where the next token begins.  A tab is a blank
    only where no key may begin; behind a line end one may, except in a flow collection.  The first
    column of a line may hold a byte order mark. -/
def skipGaps (keyAllowed inFlow inComment : Bool) (m : Mark) : List Char → Bool × Cursor
  | [] => (keyAllowed, ⟨[], m⟩)
  | c :: cs =>
    if isBreak c then skipGaps (keyAllowed || !inFlow) inFlow false (m.step c) cs
    else if inComment || c == ' ' || (c == '\t' && (inFlow || !keyAllowed)) ||
        (c == '\ufeff' && m.column == 0) then
      skipGaps keyAllowed inFlow inComment (m.step c) cs
    else if c == '#' then skipGaps keyAllowed inFlow true (m.step c) cs
    else (keyAllowed, ⟨c :: cs, m⟩)

/-- The lexer where the next token begins. -/
def toToken (x : Lexer) : Lexer :=
  let (keyAllowed, cursor) :=
    skipGaps x.keyAllowed x.inFlow false x.cursor.mark x.cursor.rest
  { x with keyAllowed, cursor }

/-- Passes over `n` characters. -/
def skip (x : Lexer) (n : Nat) : Lexer := { x with cursor := x.cursor.skip n }

/-- A mark between documents, which closes all block collections. -/
def documentMark (x : Lexer) (t : Token) : Except Error Lexer := do
  let x ← (x.closeBlocks none).dropCandidate
  return ({ x with keyAllowed := false }.skip 3).emit t

def directive (x : Lexer) : Except Error Lexer := do
  let x ← (x.closeBlocks none).dropCandidate
  let (t, cursor) ← readDirective x.cursor.next
  return { x with keyAllowed := false, cursor }.emit t

def openFlow (x : Lexer) (t : Token) : Except Error Lexer := do
  let x ← x.saveCandidate
  return ({ x with keyAllowed := true, candidate := none, outer := x.candidate :: x.outer }.skip 1).emit t

def closeFlow (x : Lexer) (t : Token) : Except Error Lexer := do
  let x ← x.dropCandidate
  let x : Lexer := match x.outer with
    | [] => x
    | k :: ks => { x with candidate := k, outer := ks }
  return ({ x with keyAllowed := false }.skip 1).emit t

def flowEntry (x : Lexer) : Except Error Lexer := do
  let x ← x.dropCandidate
  return ({ x with keyAllowed := true }.skip 1).emit .flowEntry

def blockEntry (x : Lexer) : Except Error Lexer := do
  if !x.inFlow && !x.keyAllowed then throw .misplacedEntry
  let x ← (x.openBlock x.column x.count .blockSequenceStart).dropCandidate
  return ({ x with keyAllowed := true }.skip 1).emit .blockEntry

def key (x : Lexer) : Except Error Lexer := do
  if !x.inFlow && !x.keyAllowed then throw .misplacedKey
  let x ← (x.openBlock x.column x.count .blockMappingStart).dropCandidate
  return ({ x with keyAllowed := !x.inFlow }.skip 1).emit .key

/-- A colon makes a key of the candidate, if there is one. -/
def value (x : Lexer) : Except Error Lexer := do
  match x.candidate with
  | some k =>
    let x := (x.insert k.number .key).openBlock k.mark.column k.number .blockMappingStart
    return ({ x with candidate := none, keyAllowed := false }.skip 1).emit .value
  | none =>
    if !x.inFlow && !x.keyAllowed then throw .misplacedValue
    let x := x.openBlock x.column x.count .blockMappingStart
    return ({ x with keyAllowed := !x.inFlow }.skip 1).emit .value

def anchor (x : Lexer) (token : String → Token) : Except Error Lexer := do
  let x ← x.saveCandidate
  let (name, cursor) ← readAnchor x.cursor.next
  return { x with keyAllowed := false, cursor }.emit (token name)

def tag (x : Lexer) : Except Error Lexer := do
  let x ← x.saveCandidate
  let (tag, cursor) ← readTag x.inFlow x.cursor
  return { x with keyAllowed := false, cursor }.emit (.tag tag)

def blockScalar (x : Lexer) (folded : Bool) : Except Error Lexer := do
  let x ← x.dropCandidate
  let (text, cursor) ← readBlockScalar folded x.indent? x.cursor.next
  return { x with keyAllowed := true, cursor }.emit
    (.scalar (if folded then .folded else .literal) text)

def quotedScalar (x : Lexer) (single : Bool) : Except Error Lexer := do
  let x ← x.saveCandidate
  let c := x.cursor.next
  let (text, cursor) ← readQuoted single .text .empty c.mark c.rest
  return { x with keyAllowed := false, cursor }.emit (.scalar .quoted text)

def plainScalar (x : Lexer) : Except Error Lexer := do
  let x ← x.saveCandidate
  let indent := match x.indent? with
    | some i => i + 1
    | none => 0
  let (fold, cursor) ← readPlain x.inFlow indent .empty x.cursor.mark x.cursor.rest
  return { x with keyAllowed := fold.folding, cursor }.emit (.scalar .plain fold.words)

/-- The characters that no plain scalar begins with. -/
def isIndicator (c : Char) : Bool :=
  ['-', '?', ':', ',', '[', ']', '{', '}', '#', '&', '*', '!', '|', '>', '\'', '"', '%', '@',
    '\x60'].contains c

/-- Whether a plain scalar begins here: with no indicator, or with one of three that have nothing
    behind them which would make them one. -/
def startsPlain (x : Lexer) (c : Char) (cs : List Char) : Bool :=
  !(isBlank c || isIndicator c) || (c == '-' && !cs.head?.any isBlank) ||
    (!x.inFlow && (c == '?' || c == ':') && !atGap cs)

/-- Reads the token that begins with the character `c`. -/
def token (x : Lexer) (c : Char) (cs : List Char) : Except Error Lexer :=
  let atHead := x.column == 0
  if atHead && c == '%' then x.directive
  else if atHead && atDocumentMark (c :: cs) then
    x.documentMark (if c == '-' then .documentStart else .documentEnd)
  else if c == '[' then x.openFlow .flowSequenceStart
  else if c == '{' then x.openFlow .flowMappingStart
  else if c == ']' then x.closeFlow .flowSequenceEnd
  else if c == '}' then x.closeFlow .flowMappingEnd
  else if c == ',' then x.flowEntry
  else if c == '-' && atGap cs then x.blockEntry
  else if c == '?' && (x.inFlow || atGap cs) then x.key
  else if c == ':' && (x.inFlow || atGap cs) then x.value
  else if c == '*' then x.anchor .alias
  else if c == '&' then x.anchor .anchor
  else if c == '!' then x.tag
  else if c == '|' && !x.inFlow then x.blockScalar false
  else if c == '>' && !x.inFlow then x.blockScalar true
  else if c == '\'' then x.quotedScalar true
  else if c == '"' then x.quotedScalar false
  else if x.startsPlain c cs then x.plainScalar
  else .error .strayCharacter

/-- The end of the text. -/
def finish (x : Lexer) : Except Error (List Token) := do
  let x ← (x.closeBlocks none).dropCandidate
  return (x.emit .streamEnd).tokens.reverse

/-- All tokens from here on.  Each takes some of the text; one that took nothing would be read for
    ever, and is refused. -/
def run (x : Lexer) : Except Error (List Token) := do
  let y ← x.toToken.refreshAll
  let z := y.closeBlocks (some y.column)
  match z.cursor.rest with
  | [] => z.finish
  | c :: cs =>
    let next ← z.token c cs
    if _ : next.cursor.rest.length < x.cursor.rest.length then next.run
    else throw .strayCharacter
  termination_by x.cursor.rest.length

end Lexer

/-- The tokens of a text. -/
def tokens (text : String) : Except Error (List Token) :=
  if text.toList.all isAllowed then (Lexer.start text.toList).run else .error .forbiddenCharacter

end CallSweep.Yaml
