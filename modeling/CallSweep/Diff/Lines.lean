/-
  Texts as lines for a diff.

  A line ends behind a line feed, behind a carriage return, or behind the two together, and keeps
  its ending; what is left at the end of the text is a line of its own.  So the lines of a text
  put together are the text again (`flatten_splitLines`).
-/

namespace CallSweep.Diff

/-- Whether a character ends a line. -/
def endsLine (c : Char) : Bool := c == '\n' || c == '\r'

/-- The lines of some characters, `current` being read, in reverse, of the first of them. -/
def splitLines (current : List Char) : List Char → List (List Char)
  | [] => if current.isEmpty then [] else [current.reverse]
  | '\r' :: '\n' :: cs => ('\n' :: '\r' :: current).reverse :: splitLines [] cs
  | c :: cs =>
    if endsLine c then (c :: current).reverse :: splitLines [] cs
    else splitLines (c :: current) cs

/-- No character is lost between the lines. -/
theorem flatten_splitLines (current cs : List Char) :
    (splitLines current cs).flatten = current.reverse ++ cs := by
  fun_induction splitLines current cs with
  | case1 current h => simp_all
  | case2 current h => simp
  | case3 current cs ih => simp [ih]
  | case4 current c cs _ _ ih => simp [ih]
  | case5 current c cs _ _ ih => simp [ih]

/-- The lines of a text. -/
def lines (text : String) : List String :=
  (splitLines [] text.toList).map String.ofList

/-- Whether a line has no ending. -/
def isUnended (line : String) : Bool :=
  match line.toList.getLast? with
  | some c => !endsLine c
  | none => true

end CallSweep.Diff
