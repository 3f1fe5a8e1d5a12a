/-
  What the leads of a walk do.

  A walk is carried out by leads: that of its root and one for each directory, while the tasks of
  files do all that they do themselves.

  1. **Inversion** (`Led`, `directory_leads`) — the lead of a directory opens it, starts a task for
     each entry that is to be worked on, tells of each trouble, waits, and tells of the tasks that
     crashed.

  2. **Tasks** (`exists_task`) — the task of a number is that of the entry that came up as the one of
     that number.  A task crashes by a message of its own only (`task_down`).

  3. **Breaking off** (`directory_finished`) — no task is broken off, unless a message about a listing
     brings the walk of a directory down.

  4. **Roots** (`Walked`) — what a walk has done that has ended: what leads to a directory is walked
     and summed up, and all else is dealt with by a single script.
-/
import CallSweep.Proofs.Disk.Calls
import CallSweep.Proofs.Walk.Handed

namespace CallSweep

open Script (Plays)
open Job (Leads)
open Crew (Did)

/-- A failure that the walk of a directory tells of: it has to do with its listing, or with a task of
    its own. -/
def Failure.isOfDirectory : Failure → Bool
  | .list _ _ | .inspect _ _ | .crashed _ => true
  | .read _ _ | .write _ _ => false

/-- What the walk of a directory tells that has been opened, when an entry does not come up or is not
    known for what it is. -/
def Act.breaks? : Act → Option Failure
  | .asked (.next p l) answer => (Act.asked (.next p l) answer).trouble?
  | .inside _ act => act.breaks?
  | _ => none

theorem Act.isOfDirectory_of_breaks {act : Act} {f : Failure} (breaks : act.breaks? = some f) :
    f.isOfDirectory = true := by
  induction act with
  | asked r answer =>
    cases r with
    | next p l =>
      rcases answer with e | _ | ⟨⟨name, e | kind⟩, rest⟩ <;> cases breaks <;> rfl
    | _ => cases breaks
  | inside i act ih => exact ih breaks
  | refused _ _ | spawned _ | joined _ => cases breaks

namespace Walk

/-- An entry did not come up, or was not known for what it is, and the message about that was
    refused.  The walk of the directory, which has begun, is then broken off with all its tasks. -/
def Snapped (T : List Act) : Prop :=
  ∃ f : Failure, (∃ act ∈ T, act.breaks? = some f) ∧
    ∃ act ∈ T, act.refused? = some (.error f.message)

theorem Snapped.mono {T T' : List Act} (sub : T ⊆ T') : Snapped T → Snapped T'
  | ⟨f, ⟨act, mem, breaks⟩, act', mem', refused⟩ =>
    ⟨f, ⟨act, sub mem, breaks⟩, act', sub mem', refused⟩

theorem Snapped.of_rest {act : Act} (T' : List Act) {T : List Act} (snapped : Snapped T) :
    Snapped (act :: (T' ++ T)) :=
  snapped.mono fun _ mem => List.mem_cons_of_mem _ (List.mem_append_right _ mem)

theorem Snapped.of_within {i : Nat} {T : List Act} : Snapped (within i T) → Snapped T
  | ⟨f, ⟨act, mem, breaks⟩, act', mem', refused⟩ =>
    ⟨f, ⟨.inside i act, mem_within_iff.1 mem, breaks⟩, .inside i act', mem_within_iff.1 mem',
      refused⟩

/-- The walk of a directory was refused a message about its listing or about a task that crashed. -/
def DirectoryRefused (T : List Act) : Prop :=
  ∃ f : Failure, f.isOfDirectory = true ∧ ∃ act ∈ T, act.refused? = some (.error f.message)

theorem Snapped.directoryRefused {T : List Act} : Snapped T → DirectoryRefused T
  | ⟨f, ⟨_, _, breaks⟩, refused⟩ => ⟨f, Act.isOfDirectory_of_breaks breaks, refused⟩

section

variable {M : Type} [AddCommMonoid M] {b : Ledger M} {plan : Plan} {p q : Path} {T O : List Act}
  {job' : Job}

/-! ## Inversion -/

/-- A job came to its end, or was brought down by a message of its own. -/
def DoneOrDown (T : List Act) (job : Job) : Prop :=
  job = .done ∨ ∃ m report, .refused m report ∈ T ∧ job = .crashed report

theorem DoneOrDown.mono {T' : List Act} (sub : T ⊆ T') : DoneOrDown T job' → DoneOrDown T' job'
  | .inl done => .inl done
  | .inr ⟨m, report, mem, crashed⟩ => .inr ⟨m, report, sub mem, crashed⟩

theorem job_leads {s : Script Unit} (leads : Leads s.job O job') (ended : job'.Ended) :
    DoneOrDown O job' ∧ ∃ x, s.Plays O x ∧ (job' = .done → x = some ()) := by
  rcases leads.of_job ended with ⟨plays, done⟩ | ⟨plays, m, report, mem, crashed⟩
  · exact ⟨.inl done, _, plays, fun _ => rfl⟩
  · refine ⟨.inr ⟨m, report, mem, crashed⟩, _, plays, fun done => ?_⟩
    rw [crashed] at done
    cases done

/-- A script as the whole of what a lead has left to do, its tasks having ended. -/
theorem job_did {s : Script Unit} {tasks : List Crew} {crew : Crew}
    (did : Did ⟨s.job, tasks⟩ T crew) (idle : ∀ c ∈ tasks, c.Ended) (ended : crew.Ended) :
    DoneOrDown T crew.lead ∧ crew.tasks = tasks ∧
      ∃ x, s.Plays T x ∧ (crew.lead = .done → x = some ()) := by
  obtain ⟨down, x, plays, whole⟩ := job_leads did.leads ended
  have none_ : starts T = [] := by rw [← starts_own, plays.starts_eq_nil]
  rw [did.own_eq idle none_] at down plays
  exact ⟨down, did.tasks_eq idle none_, x, plays, whole⟩

theorem callers_append (T T' : List Act) :
    callers plan p (T ++ T') = callers plan p T ++ callers plan p T' := List.filterMap_append

theorem troubles_append (T T' : List Act) : troubles (T ++ T') = troubles T ++ troubles T' :=
  List.filterMap_append

theorem callers_own (T : List Act) : callers plan p (own T) = callers plan p T := by
  rw [callers, own, List.filterMap_filter]
  refine List.filterMap_congr fun act _ => ?_
  cases act <;> rfl

theorem trouble?_of_unlisted {act : Act} (unlisted : act.Asks fun r => r.isListing = false) :
    act.trouble? = none := by
  induction act with
  | asked r answer =>
    cases r with
    | list _ | next _ _ => cases unlisted
    | _ => rfl
  | inside i act ih => exact ih unlisted
  | _ => rfl

theorem caller?_of_unlisted {act : Act} (unlisted : act.Asks fun r => r.isListing = false) :
    caller? plan p act = none := by
  cases act with
  | asked r answer =>
    cases r with
    | next _ _ => cases unlisted
    | _ => rfl
  | _ => rfl

/-- Acts of which none reads a listing: no entry comes up, and there is no trouble. -/
structure Quiet (T : List Act) : Prop where
  callers_eq : ∀ plan p, callers plan p T = []
  troubles_eq : troubles T = []

theorem Quiet.nil : Quiet [] := ⟨fun _ _ => rfl, rfl⟩

theorem quiet_of_plays {α : Type} {s : Script α} {x : Option α}
    (unlisted : s.Only fun r => r.isListing = false) (plays : s.Plays T x) : Quiet T where
  callers_eq _ _ := List.filterMap_eq_nil_iff.2 fun act mem =>
    caller?_of_unlisted (unlisted.asks plays act mem)
  troubles_eq := List.filterMap_eq_nil_iff.2 fun act mem =>
    trouble?_of_unlisted (unlisted.asks plays act mem)

theorem quiet_of_books {α : Type} {s : Script α} {x : Option α}
    (books : s.Only fun r => r.isBook = true) (plays : s.Plays T x) : Quiet T :=
  quiet_of_plays (books.mono fun _ => not_isListing_of_book) plays

/-- What is entered for troubles. -/
def troubleEntry (b : Ledger M) (fs : List Failure) : M := (fs.map (failureEntry b)).sum

theorem troubleEntry_append (fs fs' : List Failure) :
    troubleEntry b (fs ++ fs') = troubleEntry b fs + troubleEntry b fs' := by
  rw [troubleEntry, List.map_append, List.sum_append]
  rfl

/-- Some acts of the lead of a directory: the tasks that it starts are those of the entries that come
    up, and it enters its troubles. -/
structure Reads (b : Ledger M) (plan : Plan) (p : Path) (O : List Act) : Prop where
  starts : (starts O).map some = (callers plan p O).map (task plan p)
  entered : spent b O = troubleEntry b (troubles O)

/-- The tasks have ended, with these reports of those that crashed, and no more are started. -/
def Joined (O : List Act) (reports : List String) : Prop :=
  ∃ T₁ T₂, O = T₁ ++ .joined reports :: T₂ ∧ starts T₂ = []

theorem Joined.prepend {T₁ : List Act} {reports : List String} :
    Joined O reports → Joined (T₁ ++ O) reports
  | ⟨T₂, T₃, split, none_⟩ => ⟨T₁ ++ T₂, T₃, by rw [split, List.append_assoc], none_⟩

/-- All that the lead of a directory does behind the opening. -/
structure Led (b : Ledger M) (plan : Plan) (p : Path) (O : List Act) (job' : Job) : Prop where
  starts : (starts O).map some = (callers plan p O).map (task plan p)
  down : DoneOrDown O job'
  entered : ∃ told, spent b O = troubleEntry b (troubles O) + crashEntry b told ∧
    (told ≠ [] → ∃ reports ≠ [], Joined O reports)
  /-- It waits for its tasks, unless the message about an entry that did not come up brings it
      down. -/
  waits : (∃ reports, Joined O reports) ∨ Snapped O

theorem Led.prepend {T₁ : List Act} (led : Led b plan p O job') (reads : Reads b plan p T₁) :
    Led b plan p (T₁ ++ O) job' where
  starts := by
    rw [starts_append, callers_append, List.map_append, List.map_append, reads.starts, led.starts]
  down := led.down.mono (List.subset_append_right _ _)
  entered := by
    obtain ⟨told, entered, crashed⟩ := led.entered
    refine ⟨told, ?_, fun some_ => ?_⟩
    · rw [spent_append, troubles_append, troubleEntry_append, reads.entered, entered, add_assoc]
    · obtain ⟨reports, ne, joined⟩ := crashed some_
      exact ⟨reports, ne, joined.prepend⟩
  waits := by
    rcases led.waits with ⟨reports, joined⟩ | snapped
    · exact .inl ⟨reports, joined.prepend⟩
    · exact .inr (snapped.mono (List.subset_append_right _ _))

/-- What a lead does that has read its listing: it waits for its tasks and tells of those that
    crashed. -/
def closing (p : Path) : Job := .join fun reports => (finishDirectory p reports).job

theorem quiet_of_closing (leads : Leads (closing p) O job') (ended : job'.Ended) : Quiet O := by
  cases leads with
  | refl => exact ended.elim
  | join reports rest =>
    obtain ⟨-, x, plays, -⟩ := job_leads rest ended
    obtain ⟨callers_eq, troubles_eq⟩ := quiet_of_books (finishDirectory_books p reports) plays
    exact ⟨callers_eq, troubles_eq⟩

/-- The tasks have ended: the lead tells of those that crashed. -/
theorem finish_led (discreet : b.Discreet)
    (leads : Leads (closing p) O job')
    (ended : job'.Ended) : Led b plan p O job' := by
  cases leads with
  | refl => exact ended.elim
  | @join _ reports T _ rest =>
    obtain ⟨down, x, plays, -⟩ := job_leads rest ended
    have quiet := quiet_of_books (finishDirectory_books p reports) plays
    obtain ⟨told, entered, crashed⟩ := spent_finishDirectory discreet plays
    have joined : Joined (.joined reports :: T) reports := ⟨[], T, rfl, plays.starts_eq_nil⟩
    exact {
      starts := by
        rw [show callers plan p (.joined reports :: T) = callers plan p T from rfl,
          quiet.callers_eq]
        exact congrArg (List.map some) plays.starts_eq_nil
      down := down.mono (List.subset_cons_self _ _)
      entered := by
        refine ⟨told, ?_, fun some_ => ⟨reports, crashed some_, joined⟩⟩
        rw [show troubles (.joined reports :: T) = troubles T from rfl, quiet.troubles_eq,
          spent_cons, entered]
        rfl
      waits := .inl ⟨reports, joined⟩ }

/-- Some events that are added to the log. -/
def Logs (T : List Act) : Prop :=
  ∀ act ∈ T, ∃ e : LogEvent, tellsRewrite e = false ∧ act = .asked (.note (.event e)) ()

theorem Logs.singleton (e : LogEvent) (other : tellsRewrite e = false) :
    Logs [.asked (.note (.event e)) ()] := List.forall_mem_singleton.2 ⟨e, other, rfl⟩

/-- How a lead reads a listing and ends. -/
inductive Reading (plan : Plan) (p : Path) (job' : Job) : Listing p → List Act → Prop
  /-- The listing breaks off. -/
  | broken {l : Listing p} {e : OsError} {T₁ T₂ : List Act}
      (plays : (fail (.list p e)).Plays T₁ (some ())) (rest : Leads (closing p) T₂ job') :
      Reading plan p job' l (.asked (.next p l) (.error e) :: (T₁ ++ T₂))
  | ended {l : Listing p} {T : List Act} (rest : Leads (closing p) T job') :
      Reading plan p job' l (.asked (.next p l) (.ok none) :: T)
  /-- An entry comes up, and of what kind it is cannot be told. -/
  | untold {l : Listing p} {name : Name} {e : OsError} {rest : l.Shorter} {T₁ T₂ : List Act}
      (plays : (fail (.inspect (p.child name) e)).Plays T₁ (some ()))
      (reading : Reading plan p job' rest.1 T₂) :
      Reading plan p job' l
        (.asked (.next p l) (.ok (some ((name, .error e), rest))) :: (T₁ ++ T₂))
  /-- The message about that, or about the listing, is refused. -/
  | down {l : Listing p} {answer : (Request.next p l).Answer} {f : Failure} {T : List Act}
      {report : String} (trouble : (Act.asked (.next p l) answer).trouble? = some f)
      (plays : (fail f).Plays T none) (mem : .refused (.error f.message) report ∈ T)
      (crashed : job' = .crashed report) : Reading plan p job' l (.asked (.next p l) answer :: T)
  /-- An entry comes up that gets no task. -/
  | passed {l : Listing p} {name : Name} {kind : FileKind} {rest : l.Shorter} {T₁ T₂ : List Act}
      (idle : task plan p (name, kind) = none) (logs : Logs T₁)
      (reading : Reading plan p job' rest.1 T₂) :
      Reading plan p job' l
        (.asked (.next p l) (.ok (some ((name, .ok kind), rest))) :: (T₁ ++ T₂))
  | started {l : Listing p} {name : Name} {kind : FileKind} {rest : l.Shorter} {job : Job}
      {T : List Act} (made : task plan p (name, kind) = some job)
      (reading : Reading plan p job' rest.1 T) :
      Reading plan p job' l
        (.asked (.next p l) (.ok (some ((name, .ok kind), rest))) :: .spawned job :: T)

/-- A failure is told, and then a job goes on. -/
theorem fail_leads {f : Failure} {job : Job} {T : List Act}
    (leads : Leads ((fail f).andThen fun _ => job) T job') (ended : job'.Ended) :
    (∃ T₁ T₂, T = T₁ ++ T₂ ∧ (fail f).Plays T₁ (some ()) ∧ Leads job T₂ job') ∨
      ∃ report, (fail f).Plays T none ∧ .refused (.error f.message) report ∈ T ∧
        job' = .crashed report := by
  rcases leads.of_andThen ended with ⟨_, T₁, T₂, rfl, plays, rest⟩ | ⟨plays, m, report, mem, crashed⟩
  · exact .inl ⟨T₁, T₂, rfl, plays, rest⟩
  · -- what is refused is the message of the failure
    have only : (fail f).Only fun r => ∀ m, r = .note (.message m) → m = .error f.message :=
      ⟨nofun, fun _ => ⟨nofun, fun _ => ⟨fun m same => (by cases same; rfl), fun _ => trivial⟩⟩⟩
    have message := only.asks plays _ mem m rfl
    subst message
    exact .inr ⟨report, plays, mem, crashed⟩

/-- **Inversion**: what the lead of a directory does when it has been opened. -/
theorem reading_of_leads {l : Listing p} (leads : Leads (entries plan p l) O job')
    (ended : job'.Ended) : Reading plan p job' l O := by
  induction size : l.entries.length using Nat.strongRecOn generalizing l O with
  | ind n ih =>
  subst size
  rw [entries] at leads
  cases leads with
  | refl => exact ended.elim
  | @ask _ _ answer O _ leads =>
    have none_ : Logs [] := List.forall_mem_nil _
    rcases answer with e | _ | ⟨⟨name, e | kind⟩, rest⟩
    · rcases fail_leads leads ended with ⟨T₁, T₂, rfl, plays, second⟩ | ⟨_, plays, mem, crashed⟩
      · exact .broken plays second
      · exact .down rfl plays mem crashed
    · exact .ended leads
    · rcases fail_leads leads ended with ⟨T₁, T₂, rfl, plays, second⟩ | ⟨_, plays, mem, crashed⟩
      · exact .untold plays (ih _ rest.2 second rfl)
      · exact .down rfl plays mem crashed
    · cases kind with
      | directory =>
        change Leads (if plan.skips name then _ else _) O job' at leads
        cases skipped : plan.skips name with
        | true =>
          rw [if_pos skipped] at leads
          have idle : task plan p (name, .directory) = none := if_pos skipped
          cases leads with
          | refl => exact ended.elim
          | ask _ leads =>
            exact .passed idle (.singleton _ rfl) (ih _ rest.2 leads rfl)
        | false =>
          rw [if_neg (by simp [skipped])] at leads
          have made : task plan p (name, .directory) = some (directory plan (p.child name)) :=
            if_neg (by simp [skipped])
          cases leads with
          | refl => exact ended.elim
          | spawn leads => exact .started made (ih _ rest.2 leads rfl)
      | file =>
        change Leads (if plan.extensions.admits (p.child name) then _ else _) O job' at leads
        cases admitted : plan.extensions.admits (p.child name) with
        | true =>
          rw [if_pos admitted] at leads
          have made : task plan p (name, .file) =
              some ((processFile plan (p.child name)).andThen fun _ => .done) := if_pos admitted
          cases leads with
          | refl => exact ended.elim
          | spawn leads => exact .started made (ih _ rest.2 leads rfl)
        | false =>
          rw [if_neg (by simp [admitted])] at leads
          have idle : task plan p (name, .file) = none := if_neg (by simp [admitted])
          exact .passed idle none_ (ih _ rest.2 leads rfl)
      | other => exact .passed rfl none_ (ih _ rest.2 leads rfl)

namespace Logs

theorem quiet (logs : Logs T) : Quiet T where
  callers_eq _ _ := List.filterMap_eq_nil_iff.2 fun act mem => by
    obtain ⟨e, -, rfl⟩ := logs act mem
    rfl
  troubles_eq := List.filterMap_eq_nil_iff.2 fun act mem => by
    obtain ⟨e, -, rfl⟩ := logs act mem
    rfl

theorem starts_eq_nil (logs : Logs T) : starts T = [] :=
  List.filterMap_eq_nil_iff.2 fun act mem => by
    obtain ⟨e, -, rfl⟩ := logs act mem
    rfl

theorem spent_eq_zero (discreet : b.Discreet) (logs : Logs T) : spent b T = 0 := by
  refine List.sum_eq_zero fun m mem => ?_
  obtain ⟨act, logged, rfl⟩ := List.mem_map.1 mem
  obtain ⟨e, other, rfl⟩ := logs act logged
  exact discreet e other

end Logs

/-! ### What a step shows -/

section

variable {l : Listing p} {name : Name} {kind : FileKind} {rest : l.Shorter}
  {answer : (Request.next p l).Answer} {f : Failure} {T₁ T₂ : List Act}

theorem caller?_of_trouble (trouble : (Act.asked (.next p l) answer).trouble? = some f) :
    caller? plan p (.asked (.next p l) answer) = none := by
  rcases answer with e | _ | ⟨⟨name, e | kind⟩, rest⟩
  · rfl
  · rfl
  · rfl
  · cases trouble

theorem callers_trouble (trouble : (Act.asked (.next p l) answer).trouble? = some f)
    {x : Option Unit} (plays : (fail f).Plays T₁ x) :
    callers plan p (.asked (.next p l) answer :: (T₁ ++ T₂)) = callers plan p T₂ := by
  rw [callers, List.filterMap_cons_none (caller?_of_trouble trouble)]
  show callers plan p (T₁ ++ T₂) = _
  rw [callers_append, (quiet_of_books (fail_books f) plays).callers_eq, List.nil_append]

theorem troubles_trouble (trouble : (Act.asked (.next p l) answer).trouble? = some f)
    {x : Option Unit} (plays : (fail f).Plays T₁ x) :
    troubles (.asked (.next p l) answer :: (T₁ ++ T₂)) = f :: troubles T₂ := by
  rw [troubles, List.filterMap_cons_some trouble]
  show f :: troubles (T₁ ++ T₂) = _
  rw [troubles_append, (quiet_of_books (fail_books f) plays).troubles_eq, List.nil_append]

/-- A trouble of which the message is refused. -/
theorem snapped_of_trouble (trouble : (Act.asked (.next p l) answer).trouble? = some f)
    {report : String} (refused : .refused (.error f.message) report ∈ T) :
    Snapped (.asked (.next p l) answer :: T) :=
  ⟨f, ⟨_, List.mem_cons_self, trouble⟩, _, List.mem_cons_of_mem _ refused, rfl⟩

theorem callers_passed (idle : task plan p (name, kind) = none) (logs : Logs T₁) :
    callers plan p (.asked (.next p l) (.ok (some ((name, .ok kind), rest))) :: (T₁ ++ T₂)) =
      callers plan p T₂ := by
  have none_ : caller? plan p (.asked (.next p l) (.ok (some ((name, .ok kind), rest)))) = none :=
    if_neg (by simp [idle])
  rw [callers, List.filterMap_cons_none none_]
  show callers plan p (T₁ ++ T₂) = _
  rw [callers_append, logs.quiet.callers_eq, List.nil_append]

theorem troubles_passed (logs : Logs T₁) :
    troubles (.asked (.next p l) (.ok (some ((name, .ok kind), rest))) :: (T₁ ++ T₂)) =
      troubles T₂ := by
  show troubles (T₁ ++ T₂) = _
  rw [troubles_append, logs.quiet.troubles_eq, List.nil_append]

theorem callers_started {job : Job} (made : task plan p (name, kind) = some job) :
    callers plan p (.asked (.next p l) (.ok (some ((name, .ok kind), rest))) :: .spawned job :: T) =
      (name, kind) :: callers plan p T := by
  have some_ : caller? plan p (.asked (.next p l) (.ok (some ((name, .ok kind), rest)))) =
      some (name, kind) := if_pos (by simp [made])
  rw [callers, List.filterMap_cons_some some_]
  rfl

end

/-- The lead of a directory tells of a trouble. -/
theorem reads_trouble (discreet : b.Discreet) {f : Failure} {l : Listing p}
    {answer : (Request.next p l).Answer}
    (trouble : (Act.asked (.next p l) answer).trouble? = some f) {x : Option Unit}
    (plays : (fail f).Plays T x) : Reads b plan p (.asked (.next p l) answer :: T) := by
  have quiet := quiet_of_books (fail_books f) plays
  constructor
  · rw [callers, List.filterMap_cons_none (caller?_of_trouble trouble),
      show starts (_ :: T) = starts T from rfl, plays.starts_eq_nil]
    exact congrArg (List.map (task plan p)) (quiet.callers_eq plan p).symm
  · rw [troubles, List.filterMap_cons_some trouble, spent_cons,
      show Act.cost b (.asked (.next p l) answer) = 0 from rfl, zero_add,
      spent_fail discreet plays, show List.filterMap _ T = [] from quiet.troubles_eq]
    exact List.sum_singleton.symm

/-- An entry that comes up, and what is done for it. -/
theorem reads_entry {l : Listing p} {name : Name} {kind : FileKind} {rest : l.Shorter}
    (quiet : Quiet T) (free : spent b T = 0)
    (tasks : starts T = (task plan p (name, kind)).toList) :
    Reads b plan p (.asked (.next p l) (.ok (some ((name, .ok kind), rest))) :: T) := by
  constructor
  · show (starts T).map some = (callers plan p (_ :: T)).map (task plan p)
    rw [tasks, callers, List.filterMap_cons, show T.filterMap _ = [] from quiet.callers_eq _ _,
      caller?]
    cases made : task plan p (name, kind) with
    | none => rfl
    | some job => exact congrArg (fun x => [x]) made.symm
  · rw [spent_cons, free, show troubles (_ :: T) = troubles T from rfl, quiet.troubles_eq]
    exact zero_add 0

/-- All that the lead of a directory comes to. -/
theorem Reading.led (discreet : b.Discreet) {l : Listing p} (reading : Reading plan p job' l O)
    (ended : job'.Ended) : Led b plan p O job' := by
  induction reading with
  | broken plays rest =>
    exact (finish_led discreet rest ended).prepend (reads_trouble discreet rfl plays)
  | @ended l T rest =>
    have reads : Reads b plan p [.asked (.next p l) (.ok none)] := ⟨rfl, add_zero 0⟩
    exact (finish_led discreet rest ended).prepend reads
  | untold plays _ ih => exact ih.prepend (reads_trouble discreet rfl plays)
  | @down l answer f T report trouble plays mem crashed =>
    have reads : Reads b plan p (.asked (.next p l) answer :: T) :=
      reads_trouble discreet trouble plays
    have mem' := List.mem_cons_of_mem (Act.asked (.next p l) answer) mem
    exact {
      starts := reads.starts
      down := .inr ⟨_, report, mem', crashed⟩
      entered := ⟨[], reads.entered.trans (add_zero _).symm, fun some_ => absurd rfl some_⟩
      waits := .inr (snapped_of_trouble trouble mem) }
  | passed idle logs _ ih =>
    refine ih.prepend (reads_entry logs.quiet (logs.spent_eq_zero discreet) ?_)
    rw [idle]
    exact logs.starts_eq_nil
  | @started l name kind rest job T made _ ih =>
    have quiet : Quiet [Act.spawned job] := ⟨fun _ _ => rfl, rfl⟩
    exact ih.prepend (reads_entry quiet (add_zero 0) (by rw [made]; rfl))

/-- What the walk of a directory does: it cannot be listed and that is told, or it is listed. -/
theorem directory_leads {crew : Crew} (did : Did (.start (directory plan p)) T crew)
    (ended : crew.Ended) :
    (∃ e T' x, T = .asked (.list p) (.error e) :: T' ∧ DoneOrDown T' crew.lead ∧ crew.tasks = [] ∧
      (fail (.list p e)).Plays T' x) ∨
    ∃ l T', T = .asked (.list p) (.ok l) :: T' ∧ Did ⟨entries plan p l, []⟩ T' crew ∧
      Reading plan p crew.lead l (own T') := by
  rw [directory] at did
  cases did with
  | refl => exact ended.elim
  | @head _ _ _ _ T does did =>
    cases does with
    | inside _ at_i _ => cases at_i
    | ask answer =>
      cases answer with
      | error e =>
        obtain ⟨down, empty, x, plays, -⟩ := job_did did (List.forall_mem_nil _) ended
        exact .inl ⟨e, T, x, rfl, down, empty, plays⟩
      | ok l => exact .inr ⟨l, T, rfl, did, reading_of_leads did.leads ended⟩

/-- What comes after the walk of a directory hands nothing over. -/
theorem handedIn_of_did {crew : Crew} (did : Did (.start (directory plan p)) T crew)
    (ended : crew.Ended) {rest : List Act} (quiet : Quiet rest) (none_ : ∀ i, within i rest = []) :
    handedIn plan p (T ++ rest) = handedIn plan p T := by
  rcases directory_leads did ended with ⟨e, T, x, rfl, -⟩ | ⟨l, T, rfl, -⟩
  · rw [List.cons_append, handedIn_unlisted, handedIn_unlisted]
  · rw [List.cons_append, handedIn_listed, handedIn_listed, callers_append, quiet.callers_eq,
      List.append_nil]
    simp only [within_append, none_, List.append_nil]

/-- The tasks of a directory, by number. -/
theorem exists_task {l : Listing p} {crew : Crew} (did : Did ⟨entries plan p l, []⟩ T crew)
    (led : Led b plan p (own T) crew.lead) {i : Nat} {e : Name × FileKind}
    (at_i : (callers plan p T)[i]? = some e) :
    ∃ job c, task plan p e = some job ∧ crew.tasks[i]? = some c ∧
      Did (.start job) (within i T) c := by
  have starts := led.starts
  rw [starts_own, callers_own] at starts
  have at_i' := congrArg (fun jobs => jobs[i]?) starts
  rw [List.getElem?_map, List.getElem?_map, at_i] at at_i'
  obtain ⟨job, started, made⟩ := Option.map_eq_some_iff.1 at_i'
  have begun : ((⟨entries plan p l, []⟩ : Crew).tasks ++ (CallSweep.starts T).map .start)[i]? =
      some (.start job) := by
    show ([] ++ (CallSweep.starts T).map Crew.start)[i]? = _
    rw [List.nil_append, List.getElem?_map, started]
    rfl
  obtain ⟨c, at_c, did⟩ := did.task begun
  exact ⟨job, c, made.symm, at_c, did⟩

theorem length_tasks_eq {l : Listing p} {crew : Crew} (did : Did ⟨entries plan p l, []⟩ T crew)
    (led : Led b plan p (own T) crew.lead) : crew.tasks.length = (callers plan p T).length := by
  have starts := congrArg List.length led.starts
  rw [List.length_map, List.length_map, starts_own, callers_own] at starts
  rw [did.length_tasks, starts]
  exact Nat.zero_add _

theorem directory_down {crew : Crew} (did : Did (.start (directory plan p)) T crew)
    (ended : crew.Ended) : DoneOrDown T crew.lead := by
  rcases directory_leads did ended with ⟨e, T', x, rfl, down, -⟩ | ⟨l, T', rfl, -, reading⟩
  · exact down.mono (List.subset_cons_self _ _)
  · have led := reading.led discreet_sums ended
    exact (led.down.mono fun act mem => mem_of_mem_own mem).mono (List.subset_cons_self _ _)

/-- A task that crashes was brought down by a message of its own. -/
theorem task_down {e : Name × FileKind} {job : Job} {c : Crew} (made : task plan p e = some job)
    (did : Did (.start job) T c) (ended : c.Ended) : DoneOrDown T c.lead := by
  obtain ⟨name, kind⟩ := e
  cases kind with
  | directory =>
    obtain ⟨-, same⟩ := Option.ite_none_left_eq_some.1 made
    cases same
    exact directory_down did ended
  | file =>
    obtain ⟨-, same⟩ := Option.ite_none_right_eq_some.1 made
    cases same
    have own : DoneOrDown (own T) c.lead := by
      rcases did.leads.of_andThen ended with ⟨_, T₁, T₂, -, -, rest⟩ | ⟨-, m, report, mem, crashed⟩
      · have done : Job.done.Ended := trivial
        exact .inl (done.eq_of_leads rest).2
      · exact .inr ⟨m, report, mem, crashed⟩
    exact own.mono fun act mem => mem_of_mem_own mem
  | other => cases made

/-- A report of a task that crashed comes from something that was refused. -/
theorem refusing_of_joined {l : Listing p} {crew : Crew} (did : Did ⟨entries plan p l, []⟩ T crew)
    (led : Led b plan p (own T) crew.lead) {reports : List String} (ne : reports ≠ [])
    (joined : Joined (own T) reports) : Refusing T := by
  obtain ⟨T₁, T₂, split, none_⟩ := joined
  obtain ⟨ended, told⟩ := did.ended_of_joined split none_
  obtain ⟨report, mem⟩ := List.exists_mem_of_ne_nil _ ne
  obtain ⟨c, hc, crashed⟩ := List.mem_filterMap.1 (told.mem_iff.1 mem)
  obtain ⟨i, at_c⟩ := List.mem_iff_getElem?.1 hc
  have inside : i < (callers plan p T).length := by
    rw [← length_tasks_eq did led]
    exact (List.getElem?_eq_some_iff.1 at_c).1
  obtain ⟨job, c', made, at_c', did'⟩ := exists_task did led (List.getElem?_eq_getElem inside)
  cases at_c.symm.trans at_c'
  rcases task_down made did' (ended c hc) with done | ⟨m, report', refused, -⟩
  · rw [Crew.report?, done] at crashed
    cases crashed
  · exact .of_within ⟨_, refused, m, rfl⟩

/-! ## Breaking off -/

/-- The task of a file does all that it does itself. -/
theorem exists_plays {f : Path} {c : Crew}
    (did : Did (.start ((processFile plan f).andThen fun _ => .done)) T c) (ended : c.Ended) :
    ∃ y, (processFile plan f).Plays T y := by
  obtain ⟨y, plays⟩ : ∃ y, (processFile plan f).Plays (own T) y := by
    rcases did.leads.of_andThen ended with ⟨y, T₁, T₂, split, plays, rest⟩ | ⟨plays, -⟩
    · have done : Job.done.Ended := trivial
      obtain ⟨rfl, -⟩ := done.eq_of_leads rest
      rw [List.append_nil] at split
      exact ⟨_, split ▸ plays⟩
    · exact ⟨_, plays⟩
  have none_ : starts T = [] := by rw [← starts_own, plays.starts_eq_nil]
  rw [did.own_eq (List.forall_mem_nil _) none_] at plays
  exact ⟨y, plays⟩

/-- A lead without tasks of its own has broken nothing off. -/
theorem finished_of_starts {job : Job} {crew : Crew} (did : Did (.start job) T crew)
    (ended : crew.Ended) (none_ : starts T = []) : crew.Finished := by
  obtain ⟨lead, tasks⟩ := crew
  have empty : tasks = [] := List.length_eq_zero_iff.1 (by
    rw [show tasks.length = (Crew.mk lead tasks).tasks.length from rfl, did.length_tasks, none_]
    rfl)
  subst empty
  exact .mk ended (List.forall_mem_nil _)

/-- The task of an entry, given that the walks of directories break nothing off. -/
theorem task_finished {e : Name × FileKind} {job : Job} {c : Crew}
    (made : task plan p e = some job) (did : Did (.start job) T c) (ended : c.Ended)
    (sub : Did (.start (directory plan (p.child e.1))) T c → c.Finished) : c.Finished := by
  obtain ⟨name, kind⟩ := e
  cases kind with
  | directory =>
    obtain ⟨-, same⟩ := Option.ite_none_left_eq_some.1 made
    cases same
    exact sub did
  | file =>
    obtain ⟨-, same⟩ := Option.ite_none_right_eq_some.1 made
    cases same
    obtain ⟨y, plays⟩ := exists_plays did ended
    exact finished_of_starts did ended plays.starts_eq_nil
  | other => cases made

/-- Where no listing snaps, the walk of a directory breaks nothing off. -/
theorem directory_finished {crew : Crew} (did : Did (.start (directory plan p)) T crew)
    (ended : crew.Ended) (whole : ¬ Snapped T) : crew.Finished := by
  induction size : T.length using Nat.strongRecOn generalizing p T crew with
  | ind n ih =>
  subst size
  obtain ⟨lead, tasks⟩ := crew
  rcases directory_leads did ended with ⟨e, T', x, rfl, -, empty, -⟩ | ⟨l, T', rfl, did, reading⟩
  · exact .mk ended (by rw [show tasks = [] from empty]; exact List.forall_mem_nil _)
  · have led := reading.led discreet_sums ended
    rcases led.waits with ⟨reports, T₁, T₂, split, none_⟩ | snapped
    · obtain ⟨all, -⟩ := did.ended_of_joined split none_
      refine .mk ended fun c hc => ?_
      obtain ⟨i, at_c⟩ := List.mem_iff_getElem?.1 hc
      have inside : i < (callers plan p T').length := by
        rw [← length_tasks_eq did led]
        exact (List.getElem?_eq_some_iff.1 at_c).1
      obtain ⟨job, c', made, at_c', did'⟩ := exists_task did led (List.getElem?_eq_getElem inside)
      cases at_c.symm.trans at_c'
      refine task_finished made did' (all c hc) fun did'' => ?_
      refine ih _ (Nat.lt_succ_of_le (length_within_le i T')) did'' (all c hc) (fun snapped => ?_) rfl
      exact whole (snapped.of_within.mono (List.subset_cons_self _ _))
    · have snapped := snapped.mono fun act mem => mem_of_mem_own mem
      exact absurd (snapped.mono (List.subset_cons_self _ _)) whole

/-- A message that is refused brings its lead down. -/
theorem crashed_of_leads {job : Job} (leads : Leads job O job') {act : Act} {m : Message}
    (mem : act ∈ O) (refused : act.refused? = some m) : ∃ report, job' = .crashed report := by
  induction leads with
  | refl => cases mem
  | refuse report' => exact ⟨report', rfl⟩
  | ask _ _ ih | spawn _ ih | join _ _ ih =>
    rcases List.mem_cons.1 mem with rfl | mem
    · cases refused
    · exact ih mem

/-- When the walk of a directory has come to its end, its tasks have ended. -/
theorem tasks_ended_of_done {tasks : List Crew}
    (did : Did (.start (directory plan p)) T ⟨.done, tasks⟩) : ∀ c ∈ tasks, c.Ended := by
  rcases directory_leads did trivial with
    ⟨e, T', x, rfl, -, empty, -⟩ | ⟨l, T', rfl, did, reading⟩
  · rw [show tasks = [] from empty]
    exact List.forall_mem_nil _
  · have led := reading.led discreet_sums trivial
    rcases led.waits with ⟨reports, T₁, T₂, split, none_⟩ | ⟨f, -, act, mem, refused⟩
    · exact (did.ended_of_joined split none_).1
    · obtain ⟨_, crashed⟩ := crashed_of_leads did.leads mem refused
      cases crashed

/-! ## Roots -/

/-- What a walk does with a path that does not lead to a directory. -/
def aside (plan : Plan) (q : Path) : Except OsError Stat → Script Unit
  | .error e => fail (.inspect q e)
  | .ok stat =>
    match stat.kind with
    | .file => file plan q
    | .directory | .other =>
      tell (.info ("Skipped path that is neither a file nor a directory: " ++ q.display))

/-- What a walk has done that has ended. -/
inductive Walked (plan : Plan) (q : Path) : List Act → Crew → Prop
  | aside {answer : Except OsError Stat} {T : List Act} {crew : Crew}
      (other : ∀ stat, answer = .ok stat → stat.kind ≠ .directory)
      (did : Did ⟨(aside plan q answer).job, []⟩ T crew) :
      Walked plan q (.asked (.stat q) answer :: T) crew
  /-- The walk of the directory crashed. -/
  | broken {stat : Stat} {T : List Act} {crew : Crew} {report : String}
      (isDir : stat.kind = .directory) (did : Did (.start (directory plan q)) T crew)
      (crashed : crew.lead = .crashed report) :
      Walked plan q (.asked (.stat q) (.ok stat) :: T) crew
  | summed {stat : Stat} {T₁ T₂ : List Act} {crew : Crew} (isDir : stat.kind = .directory)
      (did : Did (.start (directory plan q)) T₁ ⟨.done, crew.tasks⟩)
      (down : DoneOrDown T₂ crew.lead) (x : Option Unit) (plays : (tellSummary plan q).Plays T₂ x)
      (whole : crew.lead = .done → x = some ()) :
      Walked plan q (.asked (.stat q) (.ok stat) :: (T₁ ++ T₂)) crew

theorem handedFrom_directory {stat : Stat} (isDir : stat.kind = .directory) (T : List Act) :
    handedFrom plan q (.asked (.stat q) (.ok stat) :: T) = handedIn plan q T := by
  simp only [handedFrom, isDir]

/-- The summary hands nothing over, and there is no trouble with it. -/
theorem from_summed {stat : Stat} (isDir : stat.kind = .directory) {T₁ T₂ : List Act} {crew : Crew}
    (did : Did (.start (directory plan q)) T₁ crew) (ended : crew.Ended) {x : Option Unit}
    (plays : (tellSummary plan q).Plays T₂ x) :
    handedFrom plan q (.asked (.stat q) (.ok stat) :: (T₁ ++ T₂)) = handedIn plan q T₁ ∧
      troublesFrom q (.asked (.stat q) (.ok stat) :: (T₁ ++ T₂)) = troubles T₁ := by
  have quiet := quiet_of_books (tellSummary_books plan q) plays
  constructor
  · rw [handedFrom_directory isDir, handedIn_of_did did ended quiet plays.within_eq_nil]
  · show troubles (T₁ ++ T₂) = _
    rw [troubles_append, quiet.troubles_eq, List.append_nil]

theorem walked_of_did {crew : Crew} (did : Did (.start (absolute plan q)) T crew)
    (ended : crew.Ended) : Walked plan q T crew := by
  rw [absolute] at did
  cases did with
  | refl => exact ended.elim
  | @head _ _ _ _ T does did =>
    cases does with
    | inside _ at_i _ => cases at_i
    | ask answer =>
      have alone (did : Did ⟨(aside plan q answer).job, []⟩ T crew)
          (other : ∀ stat, answer = .ok stat → stat.kind ≠ .directory) :
          Walked plan q (.asked (.stat q) answer :: T) crew := .aside other did
      rcases answer with e | ⟨kind, size, mode⟩
      · exact alone did nofun
      · cases kind with
        | directory =>
          rcases did.of_followedBy ended with
            ⟨T₁, T₂, tasks, rfl, first, second⟩ | ⟨report, tasks, first, rfl⟩
          · obtain ⟨down, rfl, x, plays, whole⟩ :=
              job_did second (tasks_ended_of_done first) ended
            exact .summed rfl first down x plays whole
          · exact .broken rfl first rfl
        | file | other =>
          refine alone did fun stat same => ?_
          cases same
          exact nofun

namespace Walked

variable {crew : Crew}

/-- A walk comes to its end, or is brought down by a message of its own. -/
theorem down (walked : Walked plan q T crew) (ended : crew.Ended) : DoneOrDown T crew.lead := by
  cases walked with
  | aside _ did =>
    exact (job_did did (List.forall_mem_nil _) ended).1.mono (List.subset_cons_self _ _)
  | broken _ did => exact (directory_down did ended).mono (List.subset_cons_self _ _)
  | @summed _ T₁ _ _ _ _ down =>
    exact (down.mono (List.subset_append_right T₁ _)).mono (List.subset_cons_self _ _)

/-- The walk of a directory ends with the summary. -/
theorem exists_summary {stat : Stat} {T' : List Act}
    (walked : Walked plan q (.asked (.stat q) (.ok stat) :: T') crew) (done : crew.lead = .done)
    (isDir : stat.kind = .directory) :
    ∃ T₁ T₂, T' = T₁ ++ T₂ ∧ (tellSummary plan q).Plays T₂ (some ()) := by
  cases walked with
  | aside other => exact absurd isDir (other stat rfl)
  | broken _ _ crashed => cases done.symm.trans crashed
  | @summed _ T₁ T₂ _ _ _ _ x plays whole => exact ⟨T₁, T₂, rfl, whole done ▸ plays⟩

/-- Where no listing snaps, nothing is broken off. -/
theorem finished (walked : Walked plan q T crew) (ended : crew.Ended)
    (whole : ¬ Snapped T) : crew.Finished := by
  obtain ⟨lead, tasks⟩ := crew
  cases walked with
  | aside _ did =>
    obtain ⟨-, empty, -⟩ := job_did did (List.forall_mem_nil _) ended
    cases empty
    exact .mk ended (List.forall_mem_nil _)
  | broken _ did =>
    exact directory_finished did ended fun snapped =>
      whole (snapped.mono (List.subset_cons_self _ _))
  | summed _ did =>
    have finished := directory_finished did trivial fun snapped =>
      whole ((snapped.mono (List.subset_append_left _ _)).mono (List.subset_cons_self _ _))
    cases finished with
    | mk _ each => exact .mk ended each

end Walked

end

end Walk

/-! ### A tree of one file -/

namespace OneFile

def src : Name := ⟨[0x73, 0x72, 0x63], by decide⟩

theorem isName_aJs : IsName [0x61, 0x2e, 0x6a, 0x73] := by decide

def aJs : Name := ⟨[0x61, 0x2e, 0x6a, 0x73], isName_aJs⟩

/-- The file `/src/a.js` and its directory. -/
def disk : Disk where
  entries := [([src], .dir), ([src, aJs], .file 0)]
  inode _ := ⟨"console.log(1);x".toUTF8, 0o640⟩
  nodup := by decide

def plan : Plan where
  pattern := .standard
  extensions := ⟨[".js"]⟩
  skipDirs := []
  maxFileSize := 100
  dryRun := false
  atomicWrite := true

theorem rooted : disk.Rooted ([src] ++ [aJs]) :=
  (Disk.Rooted.nil.concat rfl (by decide) : disk.Rooted ([] ++ [src])).concat rfl (by decide)

theorem names_src : disk.Names [] (Place.path [src]) [src] :=
  .of_rooted rooted.of_append (List.cons_ne_nil _ _) (fun _ link => by cases link)
    (Disk.checkPath_eq_ok_iff.2 (by decide))

theorem names_aJs : disk.Names [] (Place.path [src, aJs]) ([src] ++ [aJs]) :=
  .of_rooted rooted (List.cons_ne_nil _ _) (fun _ link => by cases link)
    (Disk.checkPath_eq_ok_iff.2 (by decide))

/-! What is answered in a run over it, if nothing fails. -/

theorem find_src : disk.find [] (Place.path [src]) = .ok ([src], .dir) := names_src.find rfl

theorem find_aJs : disk.find [] (Place.path [src, aJs]) = .ok ([src, aJs], .file 0) :=
  names_aJs.find rfl

def source : String := "console.log(1);x"

theorem stat_src : disk.stat [] (Place.path [src]) = .ok ⟨.directory, 4096, 0o755⟩ := by
  rw [Disk.stat, find_src]
  rfl

theorem stat_aJs :
    disk.stat [] (Place.path [src, aJs]) = .ok ⟨.file, source.toUTF8.size, 0o640⟩ := by
  rw [Disk.stat, find_aJs]
  rfl

theorem read_aJs : disk.read [] (Place.path [src, aJs]) = .ok source.toUTF8 := by
  rw [Disk.read, find_aJs]
  rfl

/-- What is read of `/src/a.js`, and how. -/
def looks : List Act :=
  [.asked (.stat (Place.path [src, aJs])) (.ok ⟨.file, source.toUTF8.size, 0o640⟩),
    .asked (.read (Place.path [src, aJs])) (.ok source.toUTF8)]

theorem plays_looks :
    (readSource (Place.path [src, aJs]) plan.maxFileSize).Plays looks (some (.ok source)) := by
  have small : ¬ plan.maxFileSize < source.toUTF8.size := by decide +kernel
  have text : plainText source.toUTF8 = .ok source := by decide +kernel
  refine .ask ?_
  change Plays (if plan.maxFileSize < source.toUTF8.size then _ else _) _ _
  rw [if_neg small, ← text]
  exact .ask .done

theorem length_src_le : (Place.path [src]).length ≤ maxPath := by decide

/-- `/src` when it is opened, and behind its one entry. -/
def listing : Listing (Place.path [src]) := ⟨[(aJs, .file)], length_src_le⟩

def behind : listing.Shorter := ⟨⟨[], length_src_le⟩, Nat.zero_lt_one⟩

theorem list_src : disk.list [] (Place.path [src]) = .ok listing := by
  rw [Disk.list, dif_pos length_src_le, find_src]
  rfl

theorem absolute_src : Path.absolute (Place.path []) (Path.ofString "src") = Place.path [src] := by
  decide +kernel

theorem child_src : (Place.path [src]).child aJs = Place.path [src, aJs] := by decide +kernel

section

variable (plan : Plan)

def task : Job := (Walk.processFile plan (Place.path [src, aJs])).andThen fun _ => .done

/-- What a run over `/src` does first: it opens the directory and starts the task of its entry. -/
def opening : List Act :=
  [.asked (.stat (Place.path [src])) (.ok ⟨.directory, 4096, 0o755⟩),
    .asked (.list (Place.path [src])) (.ok listing),
    .asked (.next (Place.path [src]) listing) (.ok (some ((aJs, .ok .file), behind))),
    .spawned (task plan)]

/-- What is left then for the lead to do. -/
def rest : Job :=
  (Walk.entries plan (Place.path [src]) behind.1).followedBy
    (Walk.tellSummary plan (Place.path [src])).job

variable {plan}

theorem did_opening (admits : plan.extensions.admits (Place.path [src, aJs]) = true) :
    Did (.start (walk plan (Place.path []) (Path.ofString "src"))) (opening plan)
      ⟨rest plan, [.start (task plan)]⟩ := by
  rw [walk, absolute_src]
  refine .head (.ask _) ?_
  change Did ⟨(Walk.directory plan (Place.path [src])).followedBy _, []⟩ _ _
  rw [Walk.directory]
  refine .head (.ask _) ?_
  change Did ⟨(Walk.entries plan (Place.path [src]) listing).followedBy _, []⟩ _ _
  rw [Walk.entries]
  refine .head (.ask _) ?_
  change Did ⟨(if plan.extensions.admits ((Place.path [src]).child aJs) then _ else _ :
    Job).followedBy _, []⟩ _ _
  rw [child_src, if_pos admits]
  exact .head .spawn .refl

/-- The lead has not ended then, so the task can do what it has to. -/
theorem did_task {T : List Act} {y : Option Nat}
    (plays : (Walk.processFile plan (Place.path [src, aJs])).Plays T (some y)) :
    Did ⟨rest plan, [.start (task plan)]⟩ (T.map (.inside 0)) ⟨rest plan, [.start .done]⟩ := by
  have whole : Did (.start (task plan)) (T ++ []) (.start .done) := Did.andThen plays .refl
  rw [List.append_nil] at whole
  have going : ¬ (rest plan).Ended := by
    rw [rest, Walk.entries]
    exact id
  exact Did.inside going rfl whole

end

/-- What a run over `/src` does last, its one task having ended. -/
def closing (plan : Plan) (t : Tally) : List Act :=
  [.asked (.next (Place.path [src]) behind.1) (.ok none), .joined [],
    .asked (.note (.event ⟨.walk, .debug, "directory done", [("event", "strip.dir.completed"),
      ("path", (Place.path [src]).display)], []⟩)) (),
    .asked .tally t,
    .asked (.note (.message (.info (Walk.summary plan (Place.path [src]) t)))) ()]

theorem did_closing (plan : Plan) (t : Tally) :
    Did ⟨rest plan, [.start .done]⟩ (closing plan t) ⟨.done, [.start .done]⟩ := by
  rw [rest, Walk.entries]
  have ended : ∀ c ∈ [Crew.start .done], c.Ended := List.forall_mem_singleton.2 trivial
  exact .head (.ask _) (.head (.join ended (.refl _))
    (.head (.ask _) (.head (.ask _) (.head (.ask _) .refl))))

theorem mets_opening {S : System} (cwd : S.host.cwd = []) (plan : Plan)
    (meets : ∀ {w r a w'}, World.refusal S.host r = none → w.answer S.host r = (a, w') →
      S.answers w r a w') (w : World) (same : w.disk = disk) :
    World.Mets S w (opening plan) w := by
  have asked {r : Request} {a : r.Answer} (free : World.refusal S.host r = none)
      (answered : w.answer S.host r = (a, w)) : (Act.asked r a).Met S w w :=
    ⟨free, meets free answered⟩
  refine .cons (asked rfl (congrArg (·, w) ?_)) (.cons (asked rfl (congrArg (·, w) ?_))
    (.cons (asked rfl rfl) (.cons rfl .nil)))
  · rw [same, cwd, stat_src]
  · rw [same, cwd, list_src]

/-- The end of a run leaves the counts as they are. -/
theorem exists_mets_closing {S : System} (plan : Plan)
    (meets : ∀ {w r a w'}, World.refusal S.host r = none → w.answer S.host r = (a, w') →
      S.answers w r a w') (w : World)
    (free : S.host.refuses (.info (Walk.summary plan (Place.path [src]) w.tally)) = none) :
    ∃ w', World.Mets S w (closing plan w.tally) w' ∧ w'.tally = w.tally :=
  have asked {r : Request} {a : r.Answer} {w w' : World} (free : World.refusal S.host r = none)
      (answered : w.answer S.host r = (a, w')) : (Act.asked r a).Met S w w' :=
    ⟨free, meets free answered⟩
  ⟨_, .cons (asked rfl rfl) (.cons rfl (.cons (asked rfl rfl) (.cons (asked rfl rfl)
    (.cons (asked free rfl) .nil)))), rfl⟩

end OneFile

end CallSweep
