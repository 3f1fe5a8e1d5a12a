/-
  Sweeping a file or a whole tree of directories.

  A directory is read entry by entry, and each entry is worked on by a task of its own: a directory
  that is not to be skipped is walked, an eligible file is swept, and all else, links included, is
  passed over.  A task starts as soon as its entry has come up, while the listing goes on.  A
  directory is done when all its tasks are.

  Nothing that fails ends the walk.  A `Failure` is counted, logged and told as a message, and the
  siblings go on; so does the parent of a task that crashed, which tells of that when all its tasks
  have ended.  An entry whose kind cannot be told is left out, and where a listing breaks off, so are
  the entries behind.

  The walk ends because a path that can be listed has at most `maxPath` bytes, the path of an entry
  is longer than its directory's, and a listing gets shorter with each entry.
-/
import CallSweep.Call.Sweep
import CallSweep.Diff.Unified
import CallSweep.Run.Job
import CallSweep.Settings.Basic
import CallSweep.Source

namespace CallSweep

/-! ## Plans -/

/-- A configuration in the form in which a walk uses it. -/
structure Plan where
  pattern : CallPattern
  extensions : Extensions
  skipDirs : List String
  maxFileSize : Nat
  dryRun : Bool
  atomicWrite : Bool

namespace Plan

def ofConfig (c : Config) : Plan where
  pattern := .ofNames c.callees c.maxDepth
  extensions := .ofEntries c.extensions
  skipDirs := c.skipDirs
  maxFileSize := c.maxFileSize
  dryRun := c.dryRun
  atomicWrite := c.atomicWrite

/-- Whether a directory of this name is not entered. -/
def skips (plan : Plan) (name : Name) : Bool :=
  match name.text? with
  | some text => plan.skipDirs.contains text
  | none => false

end Plan

/-! ## Failures -/

/-- Why something on a walk was left alone. -/
inductive Failure where
  | read (p : Path) (e : SourceError)
  | write (p : Path) (e : SourceError)
  | list (p : Path) (e : OsError)
  | inspect (p : Path) (e : OsError)
  | crashed (report : String)
  deriving DecidableEq

def Failure.message : Failure → String
  | .read p e => "Failed to clean file " ++ p.display ++ ": " ++ e.message
  | .write p e => "Failed to write file " ++ p.display ++ ": " ++ e.message
  | .list p e => "Failed to clean directory " ++ p.display ++ ": " ++ e.message
  | .inspect p e => "Failed to inspect " ++ p.display ++ ": " ++ e.message
  | .crashed report => "Traversal task failed: " ++ report

/-! ## Telling -/

namespace Walk

/-- Tells a message. -/
def tell (m : Message) : Script Unit := Script.request (.note (.message m))

/-- Adds an event of the walk to the log. -/
def log (text event : String) (fields : List (String × String)) (unshown : List String := []) :
    Script Unit :=
  Script.request (.note (.event ⟨.walk, .debug, text, ("event", event) :: fields, unshown⟩))

/-- Counts a failure and tells of it. -/
def fail (f : Failure) : Script Unit := do
  Script.request (.count ⟨0, 0, 0, 1⟩)
  log "traversal failure" "strip.failure" [] ["error"]
  tell (.error f.message)

/-! ## Files -/

/-- Puts the swept text in place of the old one, or shows what that would change. -/
def replace (plan : Plan) (p : Path) (text swept : String) : Script (Except Failure Unit) := do
  if plan.dryRun then
    tell (.info (Diff.unified p.display text swept))
    return .ok ()
  else
    return (← writeSource p swept plan.atomicWrite).mapError (.write p)

/-- Sweeps a file, and gives the number of calls that went. -/
def sweepFile (plan : Plan) (p : Path) : Script (Except Failure Nat) := do
  Script.request (.count ⟨1, 0, 0, 0⟩)
  match ← readSource p plan.maxFileSize with
  | .error e => return .error (.read p e)
  | .ok text =>
    let s := plan.pattern.sweep text
    if s.isUnchanged then return .ok 0
    match ← replace plan p text s.modified with
    | .error f => return .error f
    | .ok () =>
      Script.request (.count ⟨0, 1, s.count, 0⟩)
      log "stripped file" "strip.file.rewritten"
        [("path", p.display), ("removed", toString s.count), ("dry_run", toString plan.dryRun)]
      return .ok s.count

/-- Sweeps a file and tells if that fails.  Gives the number of calls that went, if it does not. -/
def processFile (plan : Plan) (p : Path) : Script (Option Nat) := do
  match ← sweepFile plan p with
  | .ok removed => return some removed
  | .error f =>
    fail f
    return none

/-! ## Directories -/

/-- Tells of the tasks that crashed. -/
def failAll : List String → Script Unit
  | [] => .done ()
  | report :: reports => do
    fail (.crashed report)
    failAll reports

/-- Ends the walk of a directory, its tasks having ended. -/
def finishDirectory (p : Path) (reports : List String) : Script Unit := do
  failAll reports
  log "directory done" "strip.dir.completed" [("path", p.display)]

/-- There is less room for the path of an entry than for that of its directory. -/
theorem room_child_lt {p : Path} (l : Listing p) (name : Name) :
    maxPath + 1 - (p.child name).length < maxPath + 1 - p.length := by
  have := Path.length_lt_length_child p name
  have := l.length_le
  omega

mutual

/-- Walks a directory. -/
def directory (plan : Plan) (p : Path) : Job :=
  .ask (.list p) fun
    | .error e => (fail (.list p e)).job
    | .ok l => entries plan p l
  termination_by (maxPath + 1 - p.length, 1, 0)

/-- Reads the rest of a listing.  Each entry that is to be worked on gets a task, which starts while
    the listing goes on. -/
def entries (plan : Plan) (p : Path) (l : Listing p) : Job :=
  .ask (.next p l) fun
    | .error e =>
      (fail (.list p e)).andThen fun _ => .join fun reports => (finishDirectory p reports).job
    | .ok none => .join fun reports => (finishDirectory p reports).job
    | .ok (some ((name, .error e), rest)) =>
      (fail (.inspect (p.child name) e)).andThen fun _ => entries plan p rest.1
    | .ok (some ((name, .ok kind), rest)) =>
      match kind with
      | .directory =>
        if plan.skips name then
          (log "skipped directory" "strip.dir.skipped"
            [("path", (p.child name).display)]).andThen fun _ => entries plan p rest.1
        else .spawn (directory plan (p.child name)) (entries plan p rest.1)
      | .file =>
        if plan.extensions.admits (p.child name) then
          .spawn ((processFile plan (p.child name)).andThen fun _ => .done) (entries plan p rest.1)
        else entries plan p rest.1
      | .other => entries plan p rest.1
  termination_by (maxPath + 1 - p.length, 0, l.entries.length)
  decreasing_by
    all_goals first
      | exact .right _ (.right _ rest.2)
      | exact .left _ _ (room_child_lt l _)

end

/-! ## Runs -/

/-- What is said to be done. -/
def verb (plan : Plan) : String := if plan.dryRun then "Would remove" else "Removed"

/-- The last message of the walk of a directory. -/
def summary (plan : Plan) (p : Path) (t : Tally) : String :=
  verb plan ++ " " ++ toString t.removals ++ " call(s) in " ++ toString t.changed ++ " of " ++
    toString t.scanned ++ " file(s) in directory: " ++ p.display ++
    if t.failures = 0 then "" else " (" ++ toString t.failures ++ " failure(s))"

/-- Tells what the walk of a directory came to. -/
def tellSummary (plan : Plan) (p : Path) : Script Unit := do
  let t ← Script.request .tally
  tell (.info (summary plan p t))

/-- Sweeps a file that was asked for by its path. -/
def file (plan : Plan) (p : Path) : Script Unit := do
  if plan.extensions.admits p then
    match ← processFile plan p with
    | some removed =>
      tell (.info (verb plan ++ " " ++ toString removed ++ " call(s) in file: " ++ p.display))
    | none => return
  else tell (.info ("Skipped file with unsupported extension: " ++ p.display))

/-- Sweeps what an absolute path leads to. -/
def absolute (plan : Plan) (p : Path) : Job :=
  .ask (.stat p) fun
    | .error e => (fail (.inspect p e)).job
    | .ok stat =>
      match stat.kind with
      | .directory => (directory plan p).followedBy (tellSummary plan p).job
      | .file => (file plan p).job
      | .other =>
        (tell (.info ("Skipped path that is neither a file nor a directory: " ++
          p.display))).job

end Walk

/-- Sweeps what a path leads to that is read in the directory `cwd`. -/
def walk (plan : Plan) (cwd p : Path) : Job := Walk.absolute plan (Path.absolute cwd p)

end CallSweep
