/-
  Reading anchors, tags and directives.

  All of them stand on one line, so a cursor passes over them by the characters that they take.
-/
import CallSweep.Yaml.Cursor
import CallSweep.Yaml.Token

namespace CallSweep.Yaml

/-- The cursor at `rest`, a later place on the same line. -/
def Cursor.at (c : Cursor) (rest : List Char) : Cursor :=
  ⟨rest, c.mark.advance (c.rest.take (c.rest.length - rest.length))⟩

/-! ## Anchors -/

/-- The characters that may directly follow the name of an anchor. -/
def endsAnchor (cs : List Char) : Bool :=
  atGap cs || cs.head?.any (['?', ':', ',', ']', '}', '%', '@', '\x60'].contains ·)

/-- Reads the name of an anchor or of an alias from behind its indicator. -/
def readAnchor (c : Cursor) : Except Error (String × Cursor) :=
  let (name, c) := c.span isWordChar
  if name.isEmpty || !endsAnchor c.rest then .error .badAnchor
  else .ok (String.ofList name, c)

/-! ## Tags -/

/-- The characters of a tag.  Those that also divide flow collections belong to it only where it
    cannot be mistaken for one. -/
def isTagChar (inFull : Bool) (c : Char) : Bool :=
  isWordChar c ||
    [';', '/', '?', ':', '@', '&', '=', '+', '$', '.', '!', '~', '*', '\'', '(', ')'].contains c ||
    (inFull && [',', '[', ']'].contains c)

/-- The octets of a character that begins with the given one. -/
def octets? (first : Nat) : Option Nat :=
  if first < 0x80 then some 1
  else if first / 0x20 = 6 then some 2
  else if first / 0x10 = 14 then some 3
  else if first / 0x08 = 30 then some 4
  else none

/-- Reads the characters of a tag, `left` octets of an escaped character being still to come.
    Escaped characters of several octets are all read as U+FFFD: no tag with a meaning here has
    one. -/
def readTagChars (inFull : Bool) (left : Nat) (read : List Char) :
    List Char → Except Error (List Char × List Char)
  | '%' :: a :: b :: cs =>
    match Text.hexDigit? a, Text.hexDigit? b with
    | some high, some low =>
      let octet := 16 * high + low
      if left = 0 then
        match octets? octet with
        | some 1 => readTagChars inFull 0 (Char.ofNat octet :: read) cs
        | some n => readTagChars inFull (n - 1) ('\ufffd' :: read) cs
        | none => .error .badTag
      else if octet / 0x40 = 2 then readTagChars inFull (left - 1) read cs
      else .error .badTag
    | _, _ => .error .badTag
  | c :: cs =>
    if left ≠ 0 ∨ c = '%' then .error .badTag
    else if isTagChar inFull c then readTagChars inFull 0 (c :: read) cs
    else .ok (read.reverse, c :: cs)
  | [] => if left ≠ 0 then .error .badTag else .ok (read.reverse, [])

/-- Reads `!`, `!!` or `!word!`, or as much of it as is there. -/
def readHandle (cs : List Char) : Except Error (List Char × List Char) :=
  match cs with
  | '!' :: cs =>
    let word := cs.takeWhile isWordChar
    match cs.dropWhile isWordChar with
    | '!' :: rest => .ok ('!' :: word ++ ['!'], rest)
    | rest => .ok ('!' :: word, rest)
  | _ => .error .badTag

/-- The text of a tag's characters.  It ends in front of the first U+0000, which only an escape can
    put there. -/
def tagPart (cs : List Char) : String := String.ofList (cs.takeWhile (· != '\x00'))

/-- Whether a handle is complete. -/
def isHandle (handle : List Char) : Bool :=
  2 ≤ handle.length && handle.getLast? == some '!'

/-- Reads a tag from its exclamation mark on. -/
def readTagParts (cs : List Char) : Except Error (Tag × List Char) :=
  match cs with
  | '!' :: '<' :: cs => do
    let (name, rest) ← readTagChars true 0 [] cs
    match rest with
    | '>' :: rest => if name.isEmpty then throw .badTag else return (⟨"", tagPart name⟩, rest)
    | _ => throw .badTag
  | _ => do
    let (handle, rest) ← readHandle cs
    if isHandle handle then
      let (suffix, rest) ← readTagChars false 0 [] rest
      if suffix.isEmpty then throw .badTag
      return (⟨String.ofList handle, tagPart suffix⟩, rest)
    else
      let (suffix, rest) ← readTagChars false 0 [] rest
      let suffix := tagPart (handle.tail ++ suffix)
      if suffix.isEmpty then return (⟨"", "!"⟩, rest)
      return (⟨"!", suffix⟩, rest)

/-- Reads a tag, behind which there must be a gap or, in a flow collection, a comma. -/
def readTag (inFlow : Bool) (c : Cursor) : Except Error (Tag × Cursor) := do
  let (tag, rest) ← readTagParts c.rest
  if atGap rest || (inFlow && rest.head? == some ',') then return (tag, c.at rest)
  throw .badTag

/-! ## Directives -/

/-- Reads a number of at most nine digits. -/
def readNumber (cs : List Char) : Except Error (Nat × List Char) :=
  let digits := cs.takeWhile Char.isDigit
  if digits.isEmpty || 9 < digits.length then .error .badDirective
  else .ok (digits.foldl (fun n d => 10 * n + (d.toNat - '0'.toNat)) 0, cs.dropWhile Char.isDigit)

/-- Reads the value of a version directive. -/
def readVersion (cs : List Char) : Except Error (Token × List Char) := do
  let (major, rest) ← readNumber (cs.dropWhile isBlank)
  match rest with
  | '.' :: rest =>
    let (minor, rest) ← readNumber rest
    return (.version major minor, rest)
  | _ => throw .badDirective

/-- Reads the value of a tag directive. -/
def readTagDirective (cs : List Char) : Except Error (Token × List Char) := do
  let (handle, rest) ← readHandle (cs.dropWhile isBlank)
  if !isHandle handle && handle ≠ ['!'] then throw .badDirective
  if !rest.head?.any isBlank then throw .badDirective
  let (stem, rest) ← readTagChars true 0 [] (rest.dropWhile isBlank)
  if stem.isEmpty || !atGap rest then throw .badDirective
  return (.tagHandle (String.ofList handle) (tagPart stem), rest)

/-- Reads a directive from behind its per cent sign to the end of the line. -/
def readDirective (c : Cursor) : Except Error (Token × Cursor) := do
  let (name, after) := c.span isWordChar
  if !atGap after.rest then throw .badDirective
  let (token, rest) ←
    if name = "YAML".toList then readVersion after.rest
    else if name = "TAG".toList then readTagDirective after.rest
    else throw .badDirective
  match (c.at rest).skipToLineEnd? with
  | some c => return (token, c)
  | none => throw .badDirective

end CallSweep.Yaml
