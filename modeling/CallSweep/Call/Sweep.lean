/-
  Sweeping a text: every call that its pattern finds is cut out, and a record is kept of where it
  stood.

  One walk over the spans does it.  Between two spans the text is kept, a span's own text is
  removed, and a `Position` is carried over both, so that lines and columns are those of the text
  as it was, removed calls included.
-/
import CallSweep.Call.Span

namespace CallSweep

open Text (splitAtByte)

/-! ## Positions -/

/-- A place in a text for a reader: lines and byte columns, both counted from one. -/
structure Position where
  line : Nat
  column : Nat
  deriving DecidableEq, Repr

namespace Position

/-- The head of a text. -/
def start : Position := ⟨1, 1⟩

/-- The position behind a character.  Only a line feed ends a line. -/
def step (p : Position) (c : Char) : Position :=
  if c = '\n' then ⟨p.line + 1, 1⟩ else ⟨p.line, p.column + c.utf8Size⟩

/-- The position behind a run of characters. -/
def advance (p : Position) (cs : List Char) : Position :=
  cs.foldl step p

end Position

/-! ## Sweeps -/

/-- One call that was cut out. -/
structure Removal where
  span : Span
  position : Position
  text : String
  deriving DecidableEq

/-- What sweeping a text gives: the text without its calls, and the calls in order. -/
structure Sweep where
  modified : String
  removals : List Removal
  deriving DecidableEq

namespace Sweep

/-- Calls that were removed. -/
def count (s : Sweep) : Nat := s.removals.length

/-- Whether there was nothing to remove. -/
def isUnchanged (s : Sweep) : Bool := s.removals.isEmpty

end Sweep

/-- Cuts `spans` out of a text that begins at the byte offset `offset` and at the position `here`:
    the characters that are kept, and the removals. -/
def cut (offset : Nat) (here : Position) (cs : List Char) :
    List Span → List Char × List Removal
  | [] => (cs, [])
  | span :: spans =>
    let (kept, cs) := splitAtByte (span.start - offset) cs
    let (gone, cs) := splitAtByte span.length cs
    let found := here.advance kept
    let (keptLater, later) := cut span.stop (found.advance gone) cs spans
    (kept ++ keptLater, ⟨span, found, String.ofList gone⟩ :: later)

/-- Removes every call of the pattern from a text. -/
def CallPattern.sweep (p : CallPattern) (text : String) : Sweep :=
  let (kept, removals) := cut 0 .start text.toList (p.spans text)
  ⟨String.ofList kept, removals⟩

end CallSweep
