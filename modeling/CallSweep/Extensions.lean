/-
  Which files are swept: those whose extension is on a list.

  Entries of the list are written with or without the dot and with blanks around them.
  `Extensions.ofEntries` brings them to one form, the dot in front, and keeps the first of equal
  entries; case matters.
-/
import CallSweep.Disk.Path
import CallSweep.Text.Space

namespace CallSweep

/-- The extensions of the files to be swept, each with its dot, in the order of the list they were
    read from. -/
structure Extensions where
  suffixes : List String
  deriving DecidableEq

namespace Extensions

/-- One entry in its normal form: none when it says nothing. -/
def normal? (entry : String) : Option String :=
  match (Text.trim entry).toList with
  | [] => none
  | ['.'] => none
  | '.' :: cs => some (String.ofList ('.' :: cs))
  | cs => some (String.ofList ('.' :: cs))

/-- Adds a suffix that is not there yet. -/
def insert (suffixes : List String) (suffix : String) : List String :=
  if suffix ∈ suffixes then suffixes else suffixes ++ [suffix]

/-- The list that some entries describe. -/
def ofEntries (entries : List String) : Extensions :=
  ⟨(entries.filterMap normal?).foldl insert []⟩

/-- The entries taken when nothing is configured. -/
def standardEntries : List String := [".js", ".ts", ".tsx", ".vue", ".jsx", ".cjs", ".mjs"]

def isEmpty (x : Extensions) : Bool := x.suffixes.isEmpty

/-- Whether a path's extension is on the list.  One that is no text never is. -/
def admits (x : Extensions) (p : Path) : Bool :=
  match p.extension?.bind Text.decode? with
  | some e => x.suffixes.contains ("." ++ e)
  | none => false

end Extensions

end CallSweep
