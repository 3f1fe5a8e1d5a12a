/-
  The parts of a job taking turns.

  `Job.exec` puts the tasks of a job off until they are waited for, and carries them out one after
  the other.  What runs is freer: any part that has not ended may be the next to act, and the parts
  see what the others have changed.  The module says what that means, and what holds of every job
  whatever the order.

  1. **Acts** (`Act`, `Crew.Does`) — a `Crew` is a job under way, a lead with the tasks that it has
     started.  A part asks and is answered or refused; a lead starts a task, or goes on when all its
     tasks have ended.  What a task does is marked with its number.  A lead that has ended does
     nothing any more, and nor do its tasks.  The reports of the tasks that crashed come in any
     order, since tasks end in any order.

  2. **Traces** (`Crew.Did`, `World.Mets`) — what has been done, one thing after the other, and the
     worlds that it went through.  Which acts are possible depends on the crew alone; how a world
     meets them is for a `System` to say.  The system of a host (`Host.system`) meets requests as
     `World.answer` does; others let them down, and may still be `Honest` about all that is not of
     the file system.

  3. **Progress** (`Crew.ended_or_does`) — a crew that has not ended can act.

  4. **Termination** (`Crew.acc_successor`) — no crew can act forever, even when its surroundings
     change meanwhile.  An act replaces a lead by a branch of it, or a task by what comes after that
     task; a list of which each member can change only finitely often can change only finitely
     often.

  5. **Ends** — `Job.Ends S good` says that every run comes to an end, and that `good` holds of its
     trace, of what is left of the crew and of the world.  By 3 and 4 it is enough to look at the
     runs that have ended (`Job.ends_of_traces`).  `Job.Settles` says the same of the world alone,
     for the system of a host.

  6. **One of the runs** — `World.run` is one of them (`World.run_did`), so what holds of all of them
     holds of it (`World.good_of_settles`).
-/
import CallSweep.Run.World

namespace CallSweep

/-! ## Acts -/

namespace Job

/-- Whether a job has nothing left to do. -/
def Ended : Job → Prop
  | .done | .crashed _ => True
  | .ask _ _ | .spawn _ _ | .join _ => False

/-- The report of a job that has crashed. -/
def report? : Job → Option String
  | .crashed report => some report
  | .done | .ask _ _ | .spawn _ _ | .join _ => none

end Job

/-- One thing that is done in a run. -/
inductive Act where
  | asked (r : Request) (answer : r.Answer)
  | refused (m : Message) (report : String)
  /-- A task is started. -/
  | spawned (task : Job)
  /-- The tasks have ended, with these reports of those that crashed. -/
  | joined (reports : List String)
  /-- The task of this number does something. -/
  | inside (i : Nat) (act : Act)

/-- A job under way: what its lead has left to do, and the tasks that it has started. -/
inductive Crew where
  | mk (lead : Job) (tasks : List Crew)

namespace Crew

/-- A job that is about to begin. -/
def start (job : Job) : Crew := ⟨job, []⟩

def lead : Crew → Job
  | ⟨lead, _⟩ => lead

def tasks : Crew → List Crew
  | ⟨_, tasks⟩ => tasks

/-- Whether nothing more is done. -/
def Ended (crew : Crew) : Prop := crew.lead.Ended

/-- The report of a crew whose lead has crashed. -/
def report? (crew : Crew) : Option String := crew.lead.report?

/-- Whether nothing has been broken off: the lead has ended, and so has every task, down to the
    last. -/
inductive Finished : Crew → Prop
  | mk {lead : Job} {tasks : List Crew} (ended : lead.Ended)
      (each : ∀ c ∈ tasks, Finished c) : Finished ⟨lead, tasks⟩

theorem Finished.ended {crew : Crew} : crew.Finished → crew.Ended
  | .mk ended _ => ended

/-- A crew can do this, and what is left of it then. -/
inductive Does : Crew → Act → Crew → Prop
  | ask {r : Request} {next : r.Answer → Job} {tasks : List Crew} (answer : r.Answer) :
      Does ⟨.ask r next, tasks⟩ (.asked r answer) ⟨next answer, tasks⟩
  | refuse {m : Message} {next : Unit → Job} {tasks : List Crew} (report : String) :
      Does ⟨.ask (.note (.message m)) next, tasks⟩ (.refused m report) ⟨.crashed report, tasks⟩
  | spawn {task next : Job} {tasks : List Crew} :
      Does ⟨.spawn task next, tasks⟩ (.spawned task) ⟨next, tasks ++ [start task]⟩
  | join {next : List String → Job} {tasks : List Crew} {reports : List String}
      (ended : ∀ c ∈ tasks, c.Ended) (told : reports.Perm (tasks.filterMap report?)) :
      Does ⟨.join next, tasks⟩ (.joined reports) ⟨next reports, tasks⟩
  | inside {lead : Job} {tasks : List Crew} {i : Nat} {c c' : Crew} {act : Act}
      (going : ¬ lead.Ended) (at_i : tasks[i]? = some c) (does : Does c act c') :
      Does ⟨lead, tasks⟩ (.inside i act) ⟨lead, tasks.set i c'⟩

/-- What a crew did, one thing after the other, and what is left of it. -/
inductive Did : Crew → List Act → Crew → Prop
  | refl {crew : Crew} : Did crew [] crew
  | head {crew crew' crew'' : Crew} {act : Act} {T : List Act} (does : Does crew act crew')
      (did : Did crew' T crew'') : Did crew (act :: T) crew''

theorem Ended.not_does {crew crew' : Crew} {act : Act} (ended : crew.Ended) :
    ¬ Does crew act crew' := by
  intro does
  cases does with
  | inside going _ _ => exact going ended
  | _ => exact ended

theorem Ended.eq_of_did {crew crew' : Crew} {T : List Act} (ended : crew.Ended)
    (did : Did crew T crew') : T = [] ∧ crew' = crew := by
  cases did with
  | refl => exact ⟨rfl, rfl⟩
  | head does _ => exact absurd does ended.not_does

namespace Did

variable {crew crew' crew'' : Crew} {T T' : List Act}

theorem trans (first : Did crew T crew') (second : Did crew' T' crew'') :
    Did crew (T ++ T') crew'' := by
  induction first with
  | refl => exact second
  | head does _ ih => exact .head does (ih second)

/-- What a task does, its crew does. -/
theorem inside {lead : Job} {tasks : List Crew} {i : Nat} {c c' : Crew} (going : ¬ lead.Ended)
    (at_i : tasks[i]? = some c) (did : Did c T c') :
    Did ⟨lead, tasks⟩ (T.map (.inside i)) ⟨lead, tasks.set i c'⟩ := by
  induction did generalizing tasks with
  | refl =>
    -- a task that is put back where it was
    obtain ⟨hi, rfl⟩ := List.getElem?_eq_some_iff.1 at_i
    rw [List.set_getElem_self]
    exact .refl
  | head does _ ih =>
    have hi := (List.getElem?_eq_some_iff.1 at_i).1
    have rest := ih (List.getElem?_set_self hi)
    rw [List.set_set] at rest
    exact .head (.inside going at_i does) rest

end Did

section

variable {P : Crew → Prop} (mk : ∀ lead tasks, (∀ c ∈ tasks, P c) → P ⟨lead, tasks⟩)

include mk

set_option linter.unusedSectionVars false

mutual

/-- What holds of a crew if it holds of its tasks holds of every crew. -/
theorem induction : (crew : Crew) → P crew
  | ⟨lead, tasks⟩ => mk lead tasks (induction_all tasks)

theorem induction_all : (crews : List Crew) → ∀ c ∈ crews, P c
  | [] => List.forall_mem_nil P
  | crew :: crews => List.forall_mem_cons.2 ⟨induction crew, induction_all crews⟩

end

end

end Crew

/-! ## Systems -/

/-- How requests are met in the surroundings of a run: which answers may be given, and what the
    world is then. -/
structure System where
  host : Host
  answers : World → (r : Request) → r.Answer → World → Prop
  /-- What is not refused is answered. -/
  total : ∀ w r, World.refusal host r = none → ∃ a w', answers w r a w'

/-- The system that lets nothing down but for what the world holds. -/
def Host.system (h : Host) : System where
  host := h
  answers w r a w' := w.answer h r = (a, w')
  total _ _ _ := ⟨_, _, rfl⟩

/-- Whether a request is a look at a file system. -/
def Request.isLook : Request → Bool
  | .stat _ | .list _ | .next _ _ | .read _ | .resolve _ => true
  | _ => false

/-- Whether a request is part of reading a listing. -/
def Request.isListing : Request → Bool
  | .list _ | .next _ _ => true
  | _ => false

/-- Whether a request changes a file system. -/
def Request.isChange : Request → Bool
  | .write _ _ | .chmod _ _ | .rename _ _ | .remove _ => true
  | _ => false

/-- Whether a request has nothing to do with a file system. -/
def Request.isBook : Request → Bool
  | .count _ | .tally | .note _ | .complaints | .print _ _ | .exit _ => true
  | _ => false

theorem Request.isLook_or (r : Request) : r.isLook = true ∨ r.isChange = true ∨ r.isBook = true := by
  cases r with
  | stat _ | list _ | next _ _ | read _ | resolve _ => exact .inl rfl
  | write _ _ | chmod _ _ | rename _ _ | remove _ => exact .inr (.inl rfl)
  | _ => exact .inr (.inr rfl)

theorem Request.isChange_of_book {r : Request} (book : r.isBook = true) : r.isChange = false := by
  cases r with
  | write _ _ | chmod _ _ | rename _ _ | remove _ => cases book
  | _ => rfl

/-- A system that keeps the books as they should be kept.  How it meets the requests to the file
    system is another matter, as long as a look changes nothing. -/
structure System.Honest (S : System) : Prop where
  look : ∀ {w r a w'}, r.isLook = true → S.answers w r a w' → w' = w
  change : ∀ {w r a w'}, r.isChange = true → S.answers w r a w' → ∃ disk, w' = { w with disk }
  book : ∀ {w r a w'}, r.isBook = true → S.answers w r a w' → w.answer S.host r = (a, w')

theorem World.exists_disk_of_commit {w w' : World} {result : Except OsError Disk}
    {answer : Except OsError Unit} (committed : w.commit result = (answer, w')) :
    ∃ disk, w' = { w with disk } := by
  cases result with
  | ok disk =>
    cases committed
    exact ⟨disk, rfl⟩
  | error e =>
    cases committed
    exact ⟨w.disk, rfl⟩

theorem Host.system_honest (h : Host) : h.system.Honest where
  look {w r a w'} look answered := by
    cases r with
    | stat _ | list _ | next _ _ | read _ | resolve _ =>
      cases answered
      rfl
    | _ => cases look
  change {w r a w'} change answered := by
    cases r with
    | write _ _ | chmod _ _ | rename _ _ | remove _ => exact World.exists_disk_of_commit answered
    | _ => cases change
  book _ answered := answered

/-- Whether a world meets an act so, and is another one then. -/
def Act.Met (S : System) (w : World) : Act → World → Prop
  | .asked r answer, w' => World.refusal S.host r = none ∧ S.answers w r answer w'
  | .refused m report, w' => S.host.refuses m = some report ∧ w' = w
  | .spawned _, w' | .joined _, w' => w' = w
  | .inside _ act, w' => act.Met S w w'

/-- Worlds that meet acts, one after the other. -/
inductive World.Mets (S : System) : World → List Act → World → Prop
  | nil {w : World} : Mets S w [] w
  | cons {w w' w'' : World} {act : Act} {T : List Act} (met : act.Met S w w')
      (mets : Mets S w' T w'') : Mets S w (act :: T) w''

namespace World.Mets

variable {S : System} {w w' w'' : World} {T T' : List Act}

theorem append (first : Mets S w T w') (second : Mets S w' T' w'') : Mets S w (T ++ T') w'' := by
  induction first with
  | nil => exact second
  | cons met _ ih => exact .cons met (ih second)

theorem of_append (mets : Mets S w (T ++ T') w'') : ∃ w', Mets S w T w' ∧ Mets S w' T' w'' := by
  induction T generalizing w with
  | nil => exact ⟨w, .nil, mets⟩
  | cons act T ih =>
    cases mets with
    | cons met mets =>
      obtain ⟨w', first, second⟩ := ih mets
      exact ⟨w', .cons met first, second⟩

theorem inside (i : Nat) (mets : Mets S w T w') : Mets S w (T.map (.inside i)) w' := by
  induction mets with
  | nil => exact .nil
  | cons met _ ih => exact .cons met ih

end World.Mets

namespace Crew

variable {S : System}

/-! ## Progress -/

/-- A crew that has not ended can act, whatever the world is. -/
theorem ended_or_does (crew : Crew) (w : World) :
    crew.Ended ∨ ∃ act crew' w', Does crew act crew' ∧ act.Met S w w' := by
  induction crew using induction with
  | mk lead tasks ih =>
  cases lead with
  | done | crashed report => exact .inl trivial
  | ask r next =>
    right
    cases refused : World.refusal S.host r with
    | none =>
      obtain ⟨a, w', answered⟩ := S.total w r refused
      exact ⟨_, _, w', .ask a, refused, answered⟩
    | some report =>
      -- nothing but a message is refused
      cases r with
      | note n =>
        cases n with
        | message m => exact ⟨_, _, w, .refuse report, refused, rfl⟩
        | event e => cases refused
      | _ => cases refused
  | spawn task next => exact .inr ⟨_, _, w, .spawn, rfl⟩
  | join next =>
    right
    by_cases all : ∀ c ∈ tasks, c.Ended
    · exact ⟨_, _, w, .join all (.refl _), rfl⟩
    · -- some task has not ended, and can act
      obtain ⟨c, unended⟩ := Classical.not_forall.1 all
      obtain ⟨hc, unended⟩ := Classical.not_imp.1 unended
      obtain ⟨i, at_i⟩ := List.mem_iff_getElem?.1 hc
      obtain ⟨act, c', w', does, met⟩ := (ih c hc).resolve_left unended
      exact ⟨_, _, w', .inside id at_i does, met⟩

/-! ## Termination -/

/-- Whether a crew comes right after another one. -/
def Successor (crew' crew : Crew) : Prop := ∃ act, Does crew act crew'

/-- Whether crews come right after others, one of them having acted. -/
def SuccessorAmong (crews' crews : List Crew) : Prop :=
  ∃ i c c', crews[i]? = some c ∧ Successor c' c ∧ crews' = crews.set i c'

theorem acc_successorAmong_nil : Acc SuccessorAmong [] := by
  constructor
  rintro crews' ⟨i, c, c', at_i, -, -⟩
  cases at_i

theorem acc_successorAmong_concat {crews : List Crew} {c : Crew} (acc : Acc SuccessorAmong crews)
    (acc_c : Acc Successor c) : Acc SuccessorAmong (crews ++ [c]) := by
  -- the last crew's acts are counted before those of the others, which start over after each
  induction acc_c generalizing crews with
  | intro c _ ih_c =>
  induction acc with
  | intro crews acc ih =>
  constructor
  rintro crews' ⟨i, d, d', at_i, succ, rfl⟩
  rcases Nat.lt_or_ge i crews.length with early | late
  · rw [List.set_append_left _ _ early]
    rw [List.getElem?_append_left early] at at_i
    exact ih _ ⟨i, d, d', at_i, succ, rfl⟩
  · -- the last one acts: the others are as they were
    rw [List.getElem?_append_right late] at at_i
    obtain ⟨last, rfl⟩ := List.getElem?_eq_some_iff.1 at_i
    obtain last : i - crews.length = 0 := by simpa using last
    rw [List.set_append_right _ _ late]
    simp only [last, List.getElem_cons_zero] at succ ⊢
    exact ih_c d' succ (.intro crews acc)

theorem acc_of_ended {crew : Crew} (ended : crew.Ended) : Acc Successor crew :=
  .intro _ fun _ ⟨_, does⟩ => absurd does ended.not_does

/-- A crew cannot act forever if its tasks cannot: the lead's acts are counted first. -/
theorem acc_mk (lead : Job) {tasks : List Crew} (acc : Acc SuccessorAmong tasks) :
    Acc Successor ⟨lead, tasks⟩ := by
  induction lead generalizing tasks with
  | done | crashed report => exact acc_of_ended trivial
  | ask r next ih =>
    induction acc with
    | intro tasks acc ih_tasks =>
    constructor
    rintro crew' ⟨act, does⟩
    cases does with
    | ask answer => exact ih answer (.intro tasks acc)
    | refuse report => exact acc_of_ended trivial
    | inside _ at_i does => exact ih_tasks _ ⟨_, _, _, at_i, ⟨_, does⟩, rfl⟩
  | spawn task next ih_task ih =>
    induction acc with
    | intro tasks acc ih_tasks =>
    constructor
    rintro crew' ⟨act, does⟩
    cases does with
    | spawn =>
      exact ih (acc_successorAmong_concat (.intro tasks acc) (ih_task acc_successorAmong_nil))
    | inside _ at_i does => exact ih_tasks _ ⟨_, _, _, at_i, ⟨_, does⟩, rfl⟩
  | join next ih =>
    induction acc with
    | intro tasks acc ih_tasks =>
    constructor
    rintro crew' ⟨act, does⟩
    cases does with
    | join ended told => exact ih _ (.intro tasks acc)
    | inside _ at_i does => exact ih_tasks _ ⟨_, _, _, at_i, ⟨_, does⟩, rfl⟩

/-- **Termination**: no crew can act forever. -/
theorem acc_successor (crew : Crew) : Acc Successor crew := by
  induction crew using induction with
  | mk lead tasks ih =>
  have acc {crews : List Crew} (each : ∀ c ∈ crews, Acc Successor c) :
      Acc SuccessorAmong crews.reverse := by
    induction crews with
    | nil => exact acc_successorAmong_nil
    | cons c crews ih =>
      rw [List.reverse_cons]
      exact acc_successorAmong_concat (ih fun d hd => each d (List.mem_cons_of_mem c hd))
        (each c List.mem_cons_self)
  have acc_tasks := acc fun c hc => ih c (List.mem_reverse.1 hc)
  rw [List.reverse_reverse] at acc_tasks
  exact acc_mk lead acc_tasks

/-- A crew can act until it has ended. -/
theorem exists_ended (crew : Crew) (w : World) :
    ∃ T crew' w', Did crew T crew' ∧ crew'.Ended ∧ World.Mets S w T w' := by
  induction acc_successor crew generalizing w with
  | intro crew _ ih =>
  rcases ended_or_does (S := S) crew w with ended | ⟨act, crew₁, w₁, does, met⟩
  · exact ⟨[], crew, w, .refl, ended, .nil⟩
  · obtain ⟨T, crew', w', did, ended, mets⟩ := ih crew₁ ⟨act, does⟩ w₁
    exact ⟨act :: T, crew', w', .head does did, ended, .cons met mets⟩

/-! ## Ends -/

/-- However a crew goes on that has come here by some acts, it comes to an end, and `good` holds of
    all its acts, of what is left of it and of the world then. -/
inductive Ends (S : System) (good : List Act → Crew → World → Prop) :
    List Act → Crew → World → Prop
  | ended {T : List Act} {crew : Crew} {w : World} (ended : crew.Ended)
      (holds : good T crew w) : Ends S good T crew w
  | step {T : List Act} {crew : Crew} {w : World}
      (can : ∃ act crew' w', Does crew act crew' ∧ act.Met S w w')
      (must : ∀ act crew' w', Does crew act crew' → act.Met S w w' →
        Ends S good (T ++ [act]) crew' w') : Ends S good T crew w

end Crew

namespace Job

open Crew (Did)

variable {S : System} {good : List Act → Crew → World → Prop} {job : Job} {w : World}

/-- Every run of a job comes to an end, and `good` holds of its acts, of what is left of its crew and
    of the world. -/
def Ends (S : System) (good : List Act → Crew → World → Prop) (job : Job) (w : World) : Prop :=
  Crew.Ends S good [] (.start job) w

/-- Whatever order the parts of a job take turns in, they come to an end, and `good` holds of the
    world then. -/
def Settles (h : Host) (good : World → Prop) (job : Job) (w : World) : Prop :=
  job.Ends h.system (fun _ _ w' => good w') w

/-- It is enough to look at the runs that have ended. -/
theorem ends_of_traces
    (each : ∀ T crew w', Did (.start job) T crew → crew.Ended → World.Mets S w T w' →
      good T crew w') : job.Ends S good w := by
  have go (crew : Crew) {T : List Act} {w₁ : World} (did : Did (.start job) T crew)
      (mets : World.Mets S w T w₁) : Crew.Ends S good T crew w₁ := by
    induction Crew.acc_successor crew generalizing T w₁ with
    | intro crew _ ih =>
    rcases Crew.ended_or_does (S := S) crew w₁ with ended | can
    · exact .ended ended (each T crew w₁ did ended mets)
    · refine .step can fun act crew' w' does met => ih crew' ⟨act, does⟩ ?_ ?_
      · exact did.trans (.head does .refl)
      · exact mets.append (.cons met .nil)
  exact go _ .refl .nil

namespace Ends

theorem mono {good' : List Act → Crew → World → Prop} (ends : job.Ends S good w)
    (imp : ∀ T crew w', good T crew w' → good' T crew w') : job.Ends S good' w := by
  have go {T : List Act} {crew : Crew} {w₁ : World} (ends : Crew.Ends S good T crew w₁) :
      Crew.Ends S good' T crew w₁ := by
    induction ends with
    | ended ended holds => exact .ended ended (imp _ _ _ holds)
    | step can _ ih => exact .step can ih
  exact go ends

/-- Where a run has ended, `good` holds. -/
theorem of_did {T : List Act} {crew : Crew} {w' : World} (ends : job.Ends S good w)
    (did : Did (.start job) T crew) (ended : crew.Ended) (mets : World.Mets S w T w') :
    good T crew w' := by
  have go {T₀ T : List Act} {crew₀ crew : Crew} {w₀ : World}
      (ends : Crew.Ends S good T₀ crew₀ w₀) (did : Did crew₀ T crew) (ended : crew.Ended)
      (mets : World.Mets S w₀ T w') : good (T₀ ++ T) crew w' := by
    induction did generalizing T₀ w₀ with
    | refl =>
      cases mets
      rw [List.append_nil]
      cases ends with
      | ended _ holds => exact holds
      | step can must =>
        obtain ⟨_, _, _, does, -⟩ := can
        exact absurd does ended.not_does
    | @head _ _ _ act T does did ih =>
      cases mets with
      | cons met mets =>
        cases ends with
        | ended e _ => exact absurd does e.not_does
        | step can must =>
          rw [List.append_cons]
          exact ih (must _ _ _ does met) ended mets
  exact go ends did ended mets

end Ends

theorem Settles.mono {h : Host} {good good' : World → Prop} (imp : ∀ w, good w → good' w)
    (settles : Settles h good job w) : Settles h good' job w :=
  Ends.mono settles fun _ _ w' => imp w'

end Job

/-! ## One of the runs -/

namespace World

variable {h : Host} {r : Request} {w w' : World}

theorem perform_of_free (free : refusal h r = none) :
    perform h r w = (.ok (w.answer h r).1, (w.answer h r).2) := by
  unfold perform
  rw [free]

theorem perform_of_refused {report : String} (refused : refusal h r = some report) :
    perform h r w = (.error report, w) := by
  unfold perform
  rw [refused]

open Crew (Did)

/-- Carries a job out that has started tasks. -/
def runWith (h : Host) (tasks : StateM World (List String)) (job : Job) (w : World) :
    Option String × World :=
  (job.exec (perform h) tasks).run w

theorem runWith_ask_of_free {tasks : StateM World (List String)} {next : r.Answer → Job}
    (free : refusal h r = none) : runWith h tasks (.ask r next) w =
      runWith h tasks (next (w.answer h r).1) (w.answer h r).2 := by
  simp only [runWith, Job.exec, StateT.run_bind]
  rw [show (perform h r).run w = _ from perform_of_free free]
  rfl

theorem runWith_ask_of_refused {tasks : StateM World (List String)} {next : r.Answer → Job}
    {report : String} (refused : refusal h r = some report) :
    runWith h tasks (.ask r next) w = (some report, w) := by
  simp only [runWith, Job.exec, StateT.run_bind]
  rw [show (perform h r).run w = _ from perform_of_refused refused]
  rfl

theorem run_ask_of_free {next : r.Answer → Job} (free : refusal h r = none) :
    run h (.ask r next) w = run h (next (w.answer h r).1) (w.answer h r).2 :=
  runWith_ask_of_free free

/-- Whether a run of a job by itself is one of its runs. -/
def Follows (h : Host) (job : Job) : Prop :=
  ∀ w, ∃ T crew, Did (.start job) T crew ∧ crew.Ended ∧ crew.report? = (run h job w).1 ∧
    Mets h.system w T (run h job w).2

/-- Whether carrying out some tasks is one of the ways in which they can be carried out, whatever
    tasks there are behind them. -/
def Covers (h : Host) (crews : List Crew) (tasks : StateM World (List String)) : Prop :=
  ∀ w (lead : Job) (behind : List Crew), ¬ lead.Ended → ∃ T crews',
    Did ⟨lead, crews ++ behind⟩ T ⟨lead, crews' ++ behind⟩ ∧ (∀ c ∈ crews', c.Ended) ∧
      crews'.filterMap Crew.report? = (tasks.run w).1 ∧ Mets h.system w T (tasks.run w).2

theorem covers_of_ended {crews : List Crew} (ended : ∀ c ∈ crews, c.Ended) :
    Covers h crews (pure (crews.filterMap Crew.report?)) :=
  fun _ _ _ _ => ⟨[], crews, .refl, ended, rfl, .nil⟩

/-- One more task is carried out after the others. -/
theorem Covers.concat {crews : List Crew} {tasks : StateM World (List String)} {task : Job}
    (covers : Covers h crews tasks) (follows : Follows h task) :
    Covers h (crews ++ [.start task]) (do
      let reports ← tasks
      let report ← task.exec (perform h) (pure [])
      pure (reports ++ report.toList)) := by
  intro w lead behind going
  obtain ⟨T, crews', did, ended, reports, mets⟩ := covers w lead (.start task :: behind) going
  obtain ⟨T', c, did', ended', report, mets'⟩ := follows (tasks.run w).2
  have at_c : (crews' ++ .start task :: behind)[crews'.length]? = some (.start task) := by simp
  have second := did'.inside going at_c
  rw [List.set_append_right _ _ (Nat.le_refl _), Nat.sub_self, List.set_cons_zero] at second
  refine ⟨T ++ T'.map (.inside crews'.length), crews' ++ [c], ?_, ?_, ?_, ?_⟩
  · rw [List.append_assoc, List.append_assoc]
    exact did.trans second
  · intro d hd
    rcases List.mem_append.1 hd with hd | hd
    · exact ended d hd
    · exact List.mem_singleton.1 hd ▸ ended'
  · rw [List.filterMap_append, reports, List.filterMap_cons, report]
    show _ = (tasks.run w).1 ++ (run h task (tasks.run w).2).1.toList
    cases (run h task (tasks.run w).2).1 <;> rfl
  · exact mets.append (mets'.inside _)

/-- What `run_did` says of a job that has started tasks. -/
theorem runWith_did (job : Job) {crews : List Crew} {tasks : StateM World (List String)}
    (covers : Covers h crews tasks) (w : World) :
    ∃ T crew, Did ⟨job, crews⟩ T crew ∧ crew.Ended ∧
      crew.report? = (runWith h tasks job w).1 ∧ Mets h.system w T (runWith h tasks job w).2 := by
  induction job generalizing crews tasks w with
  | done => exact ⟨[], _, .refl, trivial, rfl, .nil⟩
  | crashed report => exact ⟨[], _, .refl, trivial, rfl, .nil⟩
  | ask r next ih =>
    cases refused : refusal h r with
    | none =>
      obtain ⟨T, crew, did, ended, report, mets⟩ := ih (w.answer h r).1 covers (w.answer h r).2
      rw [runWith_ask_of_free refused]
      exact ⟨_, crew, .head (.ask _) did, ended, report, .cons ⟨refused, rfl⟩ mets⟩
    | some report =>
      rw [runWith_ask_of_refused refused]
      cases r with
      | note n =>
        cases n with
        | message m =>
          exact ⟨_, _, .head (.refuse report) .refl, trivial, rfl, .cons ⟨refused, rfl⟩ .nil⟩
        | event e => cases refused
      | _ => cases refused
  | spawn task next ih_task ih =>
    have follows : Follows h task := fun w => ih_task (covers_of_ended (List.forall_mem_nil _)) w
    obtain ⟨T, crew, did, ended, report, mets⟩ := ih (covers.concat follows) w
    exact ⟨_, crew, .head .spawn did, ended, report, .cons rfl mets⟩
  | join next ih =>
    obtain ⟨T, crews', did, ended, reports, mets⟩ := covers w (.join next) [] id
    rw [List.append_nil, List.append_nil] at did
    obtain ⟨T', crew, did', ended', report, mets'⟩ :=
      ih (tasks.run w).1 (reports ▸ covers_of_ended ended) (tasks.run w).2
    -- the tasks have been run to their ends, so the lead goes on
    have joins : Crew.Does ⟨.join next, crews'⟩ (.joined (tasks.run w).1) ⟨next _, crews'⟩ :=
      .join ended (by rw [reports])
    exact ⟨_, crew, did.trans (.head joins did'), ended', report, mets.append (.cons rfl mets')⟩

/-- `World.run` is one of the runs of a job. -/
theorem run_did (job : Job) : Follows h job :=
  fun w => runWith_did job (covers_of_ended (List.forall_mem_nil _)) w

/-- What every order comes to, the run that puts the tasks off comes to. -/
theorem good_of_settles {good : World → Prop} {job : Job}
    (settles : Job.Settles h good job w) : good (run h job w).2 := by
  obtain ⟨T, crew, did, ended, -, mets⟩ := run_did (h := h) job w
  exact settles.of_did did ended mets

end World

end CallSweep
