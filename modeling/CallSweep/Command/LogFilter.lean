/-
  Which events reach the log.

  A filter is a list of directives, written with commas between them.  Of those that mean an event
  the narrowest one decides about it, and of several that are as narrow the last.

  A filter that cannot be read is as good as none, and then the standard one holds.
-/
import CallSweep.Command.LogFilter.Directive

namespace CallSweep

/-- Which events are logged. -/
structure LogFilter where
  directives : List LogFilter.Directive
  deriving DecidableEq, Repr

namespace LogFilter

/-- The filter that holds where none is given. -/
def standard (verbose : Bool) : LogFilter :=
  ⟨[⟨Topic.program.target, .all, some (if verbose then .debug else .info)⟩]⟩

/-- The filter that a text describes.  One that says nothing lets errors through. -/
def ofText? (text : String) : Option LogFilter := do
  let parts := (text.splitOn ",").filter (· ≠ "")
  if parts.isEmpty then return ⟨[⟨"", .all, some .error⟩]⟩
  return ⟨← parts.mapM Directive.ofText?⟩

/-- The filter of a run, given the bytes that describe it, if there are any. -/
def choose (given : Option (List UInt8)) (verbose : Bool) : LogFilter :=
  ((given.bind Text.decode?).bind ofText?).getD (standard verbose)

/-- The directive that decides about an event. -/
def deciding? (f : LogFilter) (e : LogEvent) : Option Directive :=
  (f.directives.filter (·.concerns e)).foldl
    (fun best d =>
      match best with
      | some b => if d.isAsNarrow b then some d else best
      | none => some d)
    none

/-- Whether an event is logged. -/
def admits (f : LogFilter) (e : LogEvent) : Bool :=
  match (f.deciding? e).bind (·.level) with
  | some level => e.level.rank ≤ level.rank
  | none => false

end LogFilter

end CallSweep
