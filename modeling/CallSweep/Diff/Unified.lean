/-
  Unified diffs.

  A diff opens with the two names of what is compared.  Each hunk then gives its ranges in both
  texts and its lines, marked `-` where they are deleted, `+` where they are inserted and with a
  space where they stay.  A line without an ending says so.  Texts that are equal have the empty
  diff.
-/
import CallSweep.Diff.Compact
import CallSweep.Diff.Hunk
import CallSweep.Diff.Lines
import CallSweep.Diff.Script

namespace CallSweep.Diff

/-! ## Parts of a diff -/

/-- A range of lines, counted from one; one that is empty is told by the line in front of it. -/
def range (start stop : Nat) : String :=
  match stop - start with
  | 0 => toString start ++ ",0"
  | 1 => toString (start + 1)
  | n => toString (start + 1) ++ "," ++ toString n

/-- A line with its mark. -/
def markedLine (mark line : String) : String :=
  mark ++ line ++ if isUnended line then "\n\\ No newline at end of file\n" else ""

/-- Some lines of a text with their mark. -/
def markedLines (mark : String) (text : Array String) (start stop : Nat) : List String :=
  (text.extract start stop).toList.map (markedLine mark)

variable (a b : Array String)

/-- The lines of a block. -/
def blockLines (x : Block) : List String :=
  if x.changed then
    markedLines "-" a x.old x.oldStop ++ markedLines "+" b x.new x.newStop
  else markedLines " " a x.old x.oldStop

/-- The line in front of a hunk, with its ranges in both texts. -/
def hunkHeader (first last : Block) : String :=
  "@@ -" ++ range first.old last.oldStop ++ " +" ++ range first.new last.newStop ++ " @@\n"

/-- A hunk.  One without lines prints nothing. -/
def hunkText (hunk : List Block) : String :=
  match hunk.head?, hunk.getLast?, hunk.flatMap (blockLines a b) with
  | some first, some last, line :: lines => hunkHeader first last ++ String.join (line :: lines)
  | _, _, _ => ""

/-- The names of what is compared. -/
def fileHeader (label : String) : String :=
  "--- a/" ++ label ++ "\n+++ b/" ++ label ++ "\n"

/-! ## Diffs -/

/-- The hunks that lead from the lines of one text to those of another. -/
def hunksOf : List (List Block) :=
  hunks (blocks (compact a b (script a b)))

/-- The unified diff from one text to another, both under the name `label`. -/
def unified (label before after : String) : String :=
  let a := (lines before).toArray
  let b := (lines after).toArray
  match hunksOf a b with
  | [] => ""
  | found => fileHeader label ++ String.join (found.map (hunkText a b))

end CallSweep.Diff
