/-
  What a program may ask of its surroundings.

  A program is a value: it says what it asks next and how it goes on with each answer.  Asking is
  the only thing that it does, so a `Request` is also the grain in which programs that run side by
  side take turns.  There are four sorts:

  * looking at a file system, which changes nothing;
  * changing one;
  * counting into the tally that the tasks of a run share, and reading it;
  * telling: a note for the user or the log, a text for a channel, the exit status.
-/
import CallSweep.Disk.Operations
import CallSweep.Report

namespace CallSweep

/-! ## Counting -/

/-- The counts of a run. -/
structure Tally where
  /-- Eligible files that were looked into. -/
  scanned : Nat
  /-- Files from which something was taken, or would be. -/
  changed : Nat
  /-- Calls that were taken out, or would be. -/
  removals : Nat
  failures : Nat
  deriving DecidableEq, Repr

namespace Tally

def zero : Tally := ⟨0, 0, 0, 0⟩

instance : Add Tally where
  add a b := ⟨a.scanned + b.scanned, a.changed + b.changed, a.removals + b.removals,
    a.failures + b.failures⟩

end Tally

/-! ## Requests -/

/-- One thing that is asked. -/
inductive Request where
  | stat (p : Path)
  /-- Opens a directory, to read its entries. -/
  | list (p : Path)
  /-- Reads one more entry of a directory that has been opened. -/
  | next (p : Path) (l : Listing p)
  | read (p : Path)
  /-- Where a path leads when links are followed. -/
  | resolve (p : Path)
  | write (p : Path) (bytes : ByteArray)
  | chmod (p : Path) (mode : Nat)
  | rename (p q : Path)
  | remove (p : Path)
  | count (t : Tally)
  | tally
  | note (n : Note)
  /-- How many messages of failure have been told. -/
  | complaints
  | print (c : Channel) (text : String)
  /-- Sets the exit status. -/
  | exit (status : Nat)

/-- What is answered to a request. -/
abbrev Request.Answer : Request → Type
  | .stat _ => Except OsError Stat
  | .list p => Except OsError (Listing p)
  | .next _ l => Except OsError (Option ((Name × Except OsError FileKind) × l.Shorter))
  | .read _ => Except OsError ByteArray
  | .resolve _ => Except OsError Place
  | .write _ _ | .chmod _ _ | .rename _ _ | .remove _ => Except OsError Unit
  | .tally => Tally
  | .complaints => Nat
  | .count _ | .note _ | .print _ _ | .exit _ => Unit

end CallSweep
