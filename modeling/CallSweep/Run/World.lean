/-
  A world for programs to run in, as a value.

  A `World` is all that a program can change: the disk, the tally, what has been told and printed,
  and the exit status.  A `Host` is what stays as it is: the directory that relative paths are
  read in, what is printed of a message, and which messages bring down the task that sends them.
  `World.perform` meets a request; it is a function, so a run is one too.

  A request fails for what the disk holds, and for nothing else.  A listing is a snapshot: it holds
  the entries that the directory has when it is opened, with their kinds at that time.  What else a
  system may answer (a right that is missing, a full medium, a listing that breaks off) is not a
  matter of worlds, but of the systems that a run is proved about (`Host.faulty`).
-/
import CallSweep.Run.Job

namespace CallSweep

/-- What a run finds and does not change. -/
structure Host where
  cwd : Place
  /-- What is printed when a message arrives. -/
  prints : Message → List (Channel × String)
  /-- The report of the crash that a message causes, if it causes one. -/
  refuses : Message → Option String

/-- A host that takes every message and keeps it to itself. -/
def Host.quiet (cwd : Place) : Host := ⟨cwd, fun _ => [], fun _ => none⟩

/-- What a run changes. -/
structure World where
  disk : Disk
  tally : Tally
  notes : List Note
  /-- What was printed, in the order in which it was. -/
  printed : List (Channel × String)
  status : Nat

namespace World

/-- The world before a run. -/
def start (disk : Disk) : World := ⟨disk, .zero, [], [], 0⟩

/-- The world after an operation on its disk. -/
def commit (w : World) : Except OsError Disk → Except OsError Unit × World
  | .ok disk => (.ok (), { w with disk })
  | .error e => (.error e, w)

/-- The world after a note has been told. -/
def tell (h : Host) (w : World) : Note → World
  | .message m =>
    { w with notes := w.notes ++ [.message m], printed := w.printed ++ h.prints m }
  | .event e => { w with notes := w.notes ++ [.event e] }

/-- Meets a request that is not refused. -/
def answer (h : Host) (w : World) : (r : Request) → r.Answer × World
  | .stat p => (w.disk.stat h.cwd p, w)
  | .list p => (w.disk.list h.cwd p, w)
  | .next _ l => (.ok (l.next?.map fun ((name, kind), rest) => ((name, .ok kind), rest)), w)
  | .read p => (w.disk.read h.cwd p, w)
  | .resolve p => (w.disk.resolve h.cwd p, w)
  | .write p bytes => w.commit (w.disk.write h.cwd p bytes)
  | .chmod p mode => w.commit (w.disk.chmod h.cwd p mode)
  | .rename p q => w.commit (w.disk.rename h.cwd p q)
  | .remove p => w.commit (w.disk.remove h.cwd p)
  | .count t => ((), { w with tally := w.tally + t })
  | .tally => (w.tally, w)
  | .note n => ((), w.tell h n)
  | .complaints => ((Note.errors w.notes).length, w)
  | .print c text => ((), { w with printed := w.printed ++ [(c, text)] })
  | .exit status => ((), { w with status })

/-- The report of the crash that a request causes, if it causes one. -/
def refusal (h : Host) : Request → Option String
  | .note (.message m) => h.refuses m
  | _ => none

/-- Meets a request or refuses it. -/
def perform (h : Host) (r : Request) : StateM World (Except String r.Answer) := fun w =>
  match refusal h r with
  | some report => (.error report, w)
  | none =>
    let (a, w) := w.answer h r
    (.ok a, w)

/-- Runs a job, and gives the report if it crashes. -/
def run (h : Host) (job : Job) (w : World) : Option String × World :=
  (job.exec (perform h) (pure [])).run w

/-- Runs a script. -/
def runScript {α : Type} (h : Host) (s : Script α) (w : World) : Except String α × World :=
  (s.exec (perform h)).run w

end World

end CallSweep
