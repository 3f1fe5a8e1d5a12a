/-
  Programs that run side by side.

  A `Job` asks like a script, and may also start tasks: jobs of their own, that run from then on
  beside it and beside each other.  It may wait until all of them have ended, and is then told of
  every one that crashed.  A job that ends without having waited takes its tasks with it.

  `Job.exec` carries a job out, and puts off its tasks until they are waited for; what it leaves is
  one of the results that a run of them side by side can have.

  Left out is that a job which waits hears of a crash as soon as that task has ended, while others
  may still be running.  Here it hears of all crashes when the last task has ended, which makes a
  difference to the tasks only if what it then does brings it down as well.
-/
import CallSweep.Run.Script

namespace CallSweep

/-- A program without a result, of several parts that run side by side. -/
inductive Job where
  | done
  | crashed (report : String)
  | ask (r : Request) (next : r.Answer → Job)
  /-- Starts a task and goes on beside it. -/
  | spawn (task next : Job)
  /-- Waits for the tasks that have been started, then goes on with the reports of those that
      crashed. -/
  | join (next : List String → Job)

/-- A script, then a job that depends on its result. -/
def Script.andThen {α : Type} : Script α → (α → Job) → Job
  | .done a, f => f a
  | .ask r next, f => .ask r fun a => (next a).andThen f

/-- The script as a job. -/
def Script.job (s : Script Unit) : Job := s.andThen fun _ => .done

namespace Job

/-- A job, then another one unless it crashes. -/
def followedBy : Job → Job → Job
  | .done, job => job
  | .crashed report, _ => .crashed report
  | .ask r next, job => .ask r fun a => (next a).followedBy job
  | .spawn task next, job => .spawn task (next.followedBy job)
  | .join next, job => .join fun reports => (next reports).followedBy job

variable {m : Type → Type} [Monad m] (perform : (r : Request) → m (Except String r.Answer))

/-- Carries a job out, and gives the report if it crashes.  `tasks` carries out the tasks that have
    been started, first to last, and gives the reports of those that crash. -/
def exec : Job → (tasks : m (List String)) → m (Option String)
  | .done, _ => pure none
  | .crashed report, _ => pure (some report)
  | .ask r next, tasks => do
    match ← perform r with
    | .ok a => exec (next a) tasks
    | .error report => pure (some report)
  | .spawn task next, tasks =>
    exec next do
      let reports ← tasks
      let report ← exec task (pure [])
      pure (reports ++ report.toList)
  | .join next, tasks => do
    let reports ← tasks
    exec (next reports) (pure reports)

end Job

end CallSweep
