/-
  White space, in the two senses this library needs.

  * `isBlank` is Unicode's White_Space property: what `trim` takes off the ends of a configured
    name, and what makes a settings text blank.
  * `isScriptSpace` is the `\s` class of ECMAScript (its WhiteSpace and LineTerminator
    productions together): what may stand between a callee and its opening parenthesis.

  The two differ in two characters.  U+0085 is blank but no script space, and U+FEFF (the byte
  order mark) is a script space but not blank.
-/

namespace CallSweep.Text

/-! ## The character classes -/

/-- Space separators of Unicode beyond U+0020 and U+00A0, which both classes share, with the two
    separators of lines and paragraphs. -/
def isWideSpace (c : Char) : Bool :=
  c == '\u1680' || ('\u2000' ≤ c && c ≤ '\u200a') || c == '\u2028' || c == '\u2029' ||
    c == '\u202f' || c == '\u205f' || c == '\u3000'

/-- The Unicode property White_Space. -/
def isBlank (c : Char) : Bool :=
  ('\t' ≤ c && c ≤ '\r') || c == ' ' || c == '\u0085' || c == '\u00a0' || isWideSpace c

/-- The class `\s` of ECMAScript. -/
def isScriptSpace (c : Char) : Bool :=
  ('\t' ≤ c && c ≤ '\r') || c == ' ' || c == '\u00a0' || isWideSpace c || c == '\ufeff'

/-- The line terminators of ECMAScript: no backslash may stand in front of one inside a literal. -/
def isLineTerminator (c : Char) : Bool :=
  c == '\n' || c == '\r' || c == '\u2028' || c == '\u2029'

/-! ## Trimming -/

/-- A list of characters without the blanks at its two ends. -/
def trimChars (cs : List Char) : List Char :=
  ((cs.dropWhile isBlank).reverse.dropWhile isBlank).reverse

/-- A text without the blanks at its two ends. -/
def trim (s : String) : String :=
  String.ofList (trimChars s.toList)

/-- Whether a text holds nothing but blanks. -/
def allBlank (s : String) : Bool :=
  s.toList.all isBlank

end CallSweep.Text
