/-
  Which texts are regular expressions.

  An expression is read from left to right and nothing is built: what is known of a group is the
  nesting of its parts, for there is a limit to it, and whether the last of them may be repeated.

  1. **Modes** — flags such as `(?i)` change what an expression means up to the end of the group
     that they stand in.
  2. **Parts** — a character, an escape, a class in brackets.
  3. **Groups** — branches between bars, each a row of parts, some of them repeated.

  Two things are known to be missing where these expressions are used, and are refused as if they
  were no expressions: a brace, because nothing there can close one, and what asks for the letters,
  digits, spaces, words or cases of all scripts, because no tables of them are kept.  With the flag
  `-u`, which asks for those of ASCII, the latter are there.
-/
import CallSweep.Text.Digits
import CallSweep.Text.Letter
import CallSweep.Text.Space

namespace CallSweep.Text.Regex

/-! ## Modes -/

/-- The modes that bear on what an expression may hold: cases are left out of account, characters
    of all scripts are meant, blanks and comments mean nothing. -/
structure Modes where
  caseless : Bool
  unicode : Bool
  spaced : Bool
  deriving DecidableEq, Repr

namespace Modes

def start : Modes := ⟨false, true, false⟩

/-- The modes behind some flags.  A hyphen switches off what follows it. -/
def switch (m : Modes) (on : Bool) : List Char → Modes
  | [] => m
  | '-' :: flags => m.switch false flags
  | 'i' :: flags => { m with caseless := on }.switch on flags
  | 'u' :: flags => { m with unicode := on }.switch on flags
  | 'x' :: flags => { m with spaced := on }.switch on flags
  | _ :: flags => m.switch on flags

end Modes

/-- Whether some characters may stand as flags: none twice, and no hyphen at the end. -/
def areFlags (flags : List Char) : Bool :=
  flags.all ['i', 'm', 's', 'U', 'R', 'u', 'x', '-'].contains && decide flags.Nodup &&
    flags.getLast? != some '-'

/-- Drops blanks and comments.  A comment runs from `#` to the end of the line. -/
def dropGaps (inComment : Bool) : List Char → List Char
  | [] => []
  | c :: cs =>
    if inComment then dropGaps (c != '\n') cs
    else if isBlank c then dropGaps false cs
    else if c == '#' then dropGaps true cs
    else c :: cs

/-- The text from its first character on that means something. -/
def skip (m : Modes) (cs : List Char) : List Char := if m.spaced then dropGaps false cs else cs

/-! ## Parts -/

/-- A part that is no class in brackets and no group. -/
inductive Part where
  /-- A character, which may be given as an octet by two digits. -/
  | char (c : Char) (asOctet : Bool)
  /-- The digits, spaces or word characters, or all others. -/
  | kind (negated : Bool)
  /-- The end of a line or of the text. -/
  | lineEdge
  | wordEdge
  | any
  deriving DecidableEq, Repr

namespace Part

/-- Whether a part may stand in an expression.  Without `unicode` no octet may match that is only
    a piece of a character. -/
def isAllowed (m : Modes) : Part → Bool
  | .char c asOctet => if m.unicode then !m.caseless else !asOctet || c < '\x80'
  | .kind negated => !m.unicode && !negated
  | .lineEdge => true
  | .wordEdge => !m.unicode
  | .any => m.unicode

/-- Whether a part may stand in brackets. -/
def isMember (m : Modes) : Part → Bool
  | .char c _ => if m.unicode then !m.caseless else c < '\x80'
  | .kind negated => !m.unicode && !negated
  | _ => false

/-- Whether two parts bound a range. -/
def isRange : Part → Part → Bool
  | .char first _, .char last _ => first ≤ last
  | _, _ => false

end Part

/-- Reads a code point of so many hexadecimal digits. -/
def readCode (m : Modes) : (digits : Nat) → (code : Nat) → List Char → Option (Char × List Char)
  | 0, code, cs => if code.isValidChar then some (Char.ofNat code, cs) else none
  | n + 1, code, cs =>
    match skip m cs with
    | c :: cs => do readCode m n (16 * code + (← hexDigit? c)) cs
    | [] => none

/-- Reads an escape from behind its backslash.  Letters and digits have meanings, or none; all else
    that is ASCII stands for itself, but for the signs of the edges of words. -/
def readEscape (m : Modes) : List Char → Option (Part × List Char)
  | 'x' :: cs => (readCode m 2 0 cs).map fun (c, cs) => (.char c true, cs)
  | 'u' :: cs => (readCode m 4 0 cs).map fun (c, cs) => (.char c false, cs)
  | 'U' :: cs => (readCode m 8 0 cs).map fun (c, cs) => (.char c false, cs)
  | c :: cs =>
    if ['d', 's', 'w'].contains c then some (.kind false, cs)
    else if ['D', 'S', 'W'].contains c then some (.kind true, cs)
    else if ['A', 'z'].contains c then some (.lineEdge, cs)
    else if ['b', 'B', '<', '>'].contains c then some (.wordEdge, cs)
    else if ['a', 'f', 'n', 'r', 't', 'v'].contains c || (c < '\x80' && !c.isAlphanum) then
      some (.char c false, cs)
    else none
  | [] => none

/-- Reads a part outside of brackets that begins with no sign of its own. -/
def readPart (m : Modes) : List Char → Option (Part × List Char)
  | '\\' :: cs => readEscape m cs
  | '.' :: cs => some (.any, cs)
  | '^' :: cs => some (.lineEdge, cs)
  | '$' :: cs => some (.lineEdge, cs)
  | c :: cs => some (.char c false, cs)
  | [] => none

/-! ## Nesting -/

/-- How deep expressions may be nested. -/
def maxNesting : Nat := 250

/-- The nesting of several things together, given that of each.  A thing alone is no level. -/
def together : List Nat → Nat
  | [] => 0
  | [n] => n
  | ns => ns.foldl max 0 + 1

/-! ## Classes in brackets -/

/-- An open bracket: whether its class is what lies outside of it, the nesting of what is left of
    the last operator, and that of each member behind it. -/
structure Bracket where
  negated : Bool
  left : Option Nat
  members : List Nat

namespace Bracket

def add (b : Bracket) (nesting : Nat) : Bracket := { b with members := nesting :: b.members }

/-- The nesting of what is in the bracket so far. -/
def nesting (b : Bracket) : Nat :=
  match b.left with
  | none => together b.members
  | some n => together [n, together b.members]

/-- The bracket behind an operator. -/
def operator (b : Bracket) : Bracket := { b with left := some b.nesting, members := [] }

/-- Whether the class may stand in an expression. -/
def isAllowed (b : Bracket) (m : Modes) : Bool := m.unicode || !b.negated

end Bracket

/-- Counts the hyphens that a text begins with, in at most `steps` steps. -/
def readHyphens (m : Modes) : (steps : Nat) → List Char → Nat × List Char
  | steps + 1, '-' :: cs =>
    let (n, rest) := readHyphens m steps (skip m cs)
    (n + 1, rest)
  | _, cs => (0, cs)

/-- Reads the head of a class from behind its bracket.  Hyphens there stand for themselves, and so
    does a closing bracket if it comes first. -/
def readHead (m : Modes) (cs : List Char) : Option (Bracket × List Char) :=
  let (negated, cs) := match skip m cs with
    | '^' :: cs => (true, skip m cs)
    | cs => (false, cs)
  let (hyphens, cs) := readHyphens m cs.length cs
  let (signs, cs) := match hyphens, cs with
    | 0, ']' :: cs => (1, cs)
    | n, cs => (n, cs)
  if signs = 0 || (Part.char '-' false).isMember m then
    some (⟨negated, none, List.replicate signs 0⟩, cs)
  else none

/-- The classes that have names. -/
def classNames : List String :=
  ["alnum", "alpha", "ascii", "blank", "cntrl", "digit", "graph", "lower", "print", "punct",
    "space", "upper", "word", "xdigit"]

/-- Whether a named class may stand in brackets. -/
def isNamedMember (m : Modes) (negated : Bool) : Bool := if m.unicode then !m.caseless else !negated

/-- Reads `:name:]` or `:^name:]`, the latter being negated. -/
def readNamed : List Char → Option (Bool × List Char)
  | ':' :: cs =>
    let (negated, cs) := match cs with
      | '^' :: cs => (true, cs)
      | cs => (false, cs)
    let name := cs.takeWhile (· != ':')
    match cs.drop name.length with
    | ':' :: ']' :: rest =>
      if classNames.contains (String.ofList name) then some (negated, rest) else none
    | _ => none
  | _ => none

/-- Reads a member of a class that is neither a name nor a class itself. -/
def readMember (m : Modes) (cs : List Char) : Option (Part × List Char) := do
  let (p, rest) ← match cs with
    | '\\' :: cs => readEscape m cs
    | c :: cs => some (.char c false, cs)
    | [] => none
  if p.isMember m then some (p, rest) else none

/-- Reads a member or a range of them. -/
def readRange (m : Modes) (cs : List Char) : Option (List Char) := do
  let (first, cs) ← readMember m cs
  match skip m cs with
  | '-' :: rest =>
    let rest := skip m rest
    if rest.head? = some ']' || rest.head? = some '-' then return skip m cs
    let (last, rest) ← readMember m rest
    if first.isRange last then return rest else none
  | rest => return rest

/-- Reads the members of open brackets, the innermost first, up to the end of the outermost, in at
    most `steps` steps.  Gives the nesting of the whole class. -/
def readMembers (m : Modes) : (steps : Nat) → List Bracket → List Char → Option (Nat × List Char)
  | steps + 1, b :: outer, cs =>
    match skip m cs with
    | [] => none
    | '[' :: cs =>
      match readNamed cs with
      | some (negated, rest) =>
        if isNamedMember m negated then readMembers m steps (b.add 0 :: outer) rest else none
      | none =>
        match readHead m cs with
        | some (inner, rest) => readMembers m steps (inner :: b :: outer) rest
        | none => none
    | ']' :: cs =>
      if !b.isAllowed m then none
      else
        match outer with
        | [] => some (b.nesting + 1, cs)
        | o :: outer => readMembers m steps (o.add (b.nesting + 1) :: outer) cs
    | '&' :: '&' :: cs => readMembers m steps (b.operator :: outer) cs
    | '-' :: '-' :: cs => readMembers m steps (b.operator :: outer) cs
    | '~' :: '~' :: cs => readMembers m steps (b.operator :: outer) cs
    | cs =>
      match readRange m cs with
      | some rest => readMembers m steps (b.add 0 :: outer) rest
      | none => none
  | _, _, _ => none

/-- Reads a class from behind its bracket, and gives its nesting. -/
def readClass (m : Modes) (cs : List Char) : Option (Nat × List Char) := do
  let (b, rest) ← readHead m cs
  readMembers m (rest.length + 1) [b] rest

/-! ## Groups -/

/-- An open group: the modes in force, the nesting of each finished branch and of each part of the
    branch that is being read, and whether the last part may be repeated. -/
structure Group where
  modes : Modes
  branches : List Nat
  parts : List Nat
  repeatable : Bool

namespace Group

def start (m : Modes) : Group := ⟨m, [], [], false⟩

/-- The nesting of what is in the group so far. -/
def nesting (g : Group) : Nat := together (together g.parts :: g.branches)

def add (g : Group) (nesting : Nat) : Group :=
  { g with parts := nesting :: g.parts, repeatable := true }

/-- The group behind flags, which are a part of their own but cannot be repeated. -/
def switch (g : Group) (flags : List Char) : Group :=
  { g with modes := g.modes.switch true flags, parts := 0 :: g.parts, repeatable := false }

/-- The group behind a bar. -/
def bar (g : Group) : Group :=
  { g with branches := together g.parts :: g.branches, parts := [], repeatable := false }

/-- The group behind a sign of repetition.  None if nothing is there to be repeated. -/
def again? (g : Group) : Option Group :=
  match g.repeatable, g.parts with
  | true, n :: parts => some { g with parts := (n + 1) :: parts }
  | _, _ => none

end Group

/-- Whether a group may have a name. -/
def isGroupName : List Char → Bool
  | [] => false
  | c :: cs =>
    (c == '_' || isLetter c) &&
      cs.all fun c => isLetterOrDigit c || ['_', '.', '[', ']'].contains c

/-- What stands behind an opening parenthesis. -/
inductive Opening where
  | group
  | named (name : List Char)
  | flagged (flags : List Char)
  /-- Flags alone, which open no group. -/
  | flags (flags : List Char)

/-- Reads what opens a group, from behind its parenthesis. -/
def readOpening : List Char → Option (Opening × List Char)
  | '?' :: 'P' :: '<' :: cs => readName cs
  | '?' :: '<' :: cs => readName cs
  | '?' :: cs =>
    let flags := cs.takeWhile fun c => c != ':' && c != ')'
    if !areFlags flags then none
    else
      match cs.drop flags.length with
      | ':' :: rest => some (.flagged flags, rest)
      | ')' :: rest => if flags.isEmpty then none else some (.flags flags, rest)
      | _ => none
  | cs => some (.group, cs)
where
  readName (cs : List Char) : Option (Opening × List Char) :=
    let name := cs.takeWhile (· != '>')
    match cs.drop name.length with
    | '>' :: rest => if isGroupName name then some (.named name, rest) else none
    | _ => none

/-- Reads open groups, the innermost first, to the end of the text, in at most `steps` steps.  The
    names of groups are all different. -/
def readGroups (names : List (List Char)) : (steps : Nat) → List Group → List Char → Bool
  | steps + 1, g :: outer, cs =>
    match skip g.modes cs with
    | [] => outer.isEmpty && g.nesting ≤ maxNesting
    | '(' :: cs =>
      match readOpening (skip g.modes cs) with
      | some (.group, rest) => readGroups names steps (.start g.modes :: g :: outer) rest
      | some (.named name, rest) =>
        !names.contains name && readGroups (name :: names) steps (.start g.modes :: g :: outer) rest
      | some (.flagged flags, rest) =>
        readGroups names steps (.start (g.modes.switch true flags) :: g :: outer) rest
      | some (.flags flags, rest) => readGroups names steps (g.switch flags :: outer) rest
      | none => false
    | ')' :: cs =>
      match outer with
      | [] => false
      | o :: outer => readGroups names steps (o.add (g.nesting + 1) :: outer) cs
    | '|' :: cs => readGroups names steps (g.bar :: outer) cs
    | '[' :: cs =>
      match readClass g.modes cs with
      | some (n, rest) => readGroups names steps (g.add n :: outer) rest
      | none => false
    | '{' :: _ => false
    | c :: cs =>
      if ['?', '*', '+'].contains c then
        match g.again? with
        | some g => readGroups names steps (g :: outer) (if cs.head? = some '?' then cs.tail else cs)
        | none => false
      else
        match readPart g.modes (c :: cs) with
        | some (p, rest) => p.isAllowed g.modes && readGroups names steps (g.add 0 :: outer) rest
        | none => false
  | _, _, _ => false

/-- Whether a text is a regular expression. -/
def isRegex (cs : List Char) : Bool := readGroups [] (cs.length + 1) [.start .start] cs

end CallSweep.Text.Regex
