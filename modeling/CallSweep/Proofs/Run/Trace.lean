/-
  What the parts of a job have done.

  A trace of a crew tells the acts of all its parts in the order in which they came.  The module
  takes traces apart, so that one can ask what became of a single part.

  1. **Parts** — the lead's own acts (`own`), and those of the task of a number (`within`).  The own
     acts are a way through the lead by itself (`Job.Leads`), and the acts of a task are a trace of
     that task (`Crew.Did.task`).  Behind a join, all tasks have ended (`Crew.Did.ended_of_joined`).

  2. **Scripts** (`Script.Plays`) — a script that is part of a job is played to its end or up to the
     message that is refused.  `Script.replay?` finds the result in a trace.

  3. **Sums** (`spent`) — what a trace enters in the books.  The entries of a crew are its lead's and
     its tasks' (`spent_eq_own_add_within`), those of a script are what the script costs
     (`Script.Plays.exists_spent_add`).
-/
import Mathlib
import CallSweep.Proofs.Run.Interleaving
import CallSweep.Proofs.Run.Ledger

namespace CallSweep

/-! ## Refusals -/

/-- The message that is refused in an act, if one is. -/
def Act.refused? : Act → Option Message
  | .refused m _ => some m
  | .inside _ act => act.refused?
  | .asked _ _ | .spawned _ | .joined _ => none

/-- What is refused in a run is refused by its host. -/
theorem Act.Met.refuses {S : System} {w w' : World} {act : Act} {m : Message}
    (met : act.Met S w w') (refused : act.refused? = some m) : S.host.refuses m ≠ none := by
  induction act with
  | refused m' report =>
    cases refused
    rw [met.1]
    exact Option.some_ne_none report
  | inside i act ih => exact ih met refused
  | asked _ _ | spawned _ | joined _ => cases refused

theorem World.Mets.refuses {S : System} {w w' : World} {T : List Act} (mets : Mets S w T w')
    {act : Act} {m : Message} (mem : act ∈ T) (refused : act.refused? = some m) :
    S.host.refuses m ≠ none := by
  induction mets with
  | nil => cases mem
  | cons met _ ih =>
    rcases List.mem_cons.1 mem with rfl | mem
    · exact met.refuses refused
    · exact ih mem

/-! ## Parts -/

/-- Whether an act is one of a task. -/
def Act.isInside : Act → Bool
  | .inside _ _ => true
  | .asked _ _ | .refused _ _ | .spawned _ | .joined _ => false

/-- What the task of this number does in an act. -/
def Act.of? (i : Nat) : Act → Option Act
  | .inside j act => if j = i then some act else none
  | .asked _ _ | .refused _ _ | .spawned _ | .joined _ => none

/-- The task that is started in an act. -/
def Act.task? : Act → Option Job
  | .spawned task => some task
  | .asked _ _ | .refused _ _ | .joined _ | .inside _ _ => none

/-- The acts of the lead itself. -/
def own (T : List Act) : List Act := T.filter fun act => !act.isInside

/-- The acts of the task of this number. -/
def within (i : Nat) (T : List Act) : List Act := T.filterMap (Act.of? i)

/-- The tasks that the lead starts. -/
def starts (T : List Act) : List Job := T.filterMap Act.task?

section

variable {i : Nat} {act : Act} {T : List Act}

theorem own_cons (outer : act.isInside = false) : own (act :: T) = act :: own T := by
  rw [own, List.filter_cons_of_pos (by simp [outer])]
  rfl

@[simp] theorem own_inside : own (.inside i act :: T) = own T := rfl

@[simp] theorem own_append (T' : List Act) : own (T ++ T') = own T ++ own T' :=
  List.filter_append ..

theorem within_cons (outer : act.isInside = false) : within i (act :: T) = within i T := by
  cases act with
  | inside _ _ => cases outer
  | _ => rfl

@[simp] theorem within_append (T' : List Act) : within i (T ++ T') = within i T ++ within i T' :=
  List.filterMap_append

@[simp] theorem within_inside_self : within i (.inside i act :: T) = act :: within i T :=
  List.filterMap_cons_some (if_pos rfl)

theorem within_inside_of_ne {j : Nat} (ne : j ≠ i) :
    within i (.inside j act :: T) = within i T :=
  List.filterMap_cons_none (if_neg ne)

/-- The acts of a task are acts of the crew, marked with its number. -/
theorem mem_within_iff : act ∈ within i T ↔ .inside i act ∈ T := by
  rw [within, List.mem_filterMap]
  constructor
  · rintro ⟨marked, mem, same⟩
    cases marked with
    | inside j act' =>
      obtain ⟨rfl, own⟩ := Option.ite_none_right_eq_some.1 same
      cases own
      exact mem
    | _ => cases same
  · intro mem
    exact ⟨_, mem, if_pos rfl⟩

theorem mem_of_mem_own (mem : act ∈ own T) : act ∈ T := (List.mem_filter.1 mem).1

theorem length_within_le (i : Nat) (T : List Act) : (within i T).length ≤ T.length :=
  List.length_filterMap_le _ T

@[simp] theorem starts_append (T' : List Act) : starts (T ++ T') = starts T ++ starts T' :=
  List.filterMap_append

@[simp] theorem starts_own : starts (own T) = starts T := by
  rw [starts, own, List.filterMap_filter]
  refine List.filterMap_congr fun act _ => ?_
  cases act <;> rfl

end

/-- One of the items of a list without repetitions brings something more with it. -/
theorem perm_flatMap_of_more {β : Type} {ns : List Nat} (nodup : ns.Nodup) {i : Nat} (mem : i ∈ ns)
    {g g' : Nat → List β} {more : List β} (at_i : g' i = more ++ g i)
    (else_ : ∀ j ≠ i, g' j = g j) : (ns.flatMap g').Perm (more ++ ns.flatMap g) := by
  induction ns with
  | nil => cases mem
  | cons n ns ih =>
    obtain ⟨fresh, nodup⟩ := List.nodup_cons.1 nodup
    rw [List.flatMap_cons, List.flatMap_cons]
    by_cases same : n = i
    · subst same
      have rest : ns.flatMap g' = ns.flatMap g :=
        List.flatMap_congr fun j hj => else_ j fun same => fresh (same ▸ hj)
      rw [at_i, rest, List.append_assoc]
    · have mem : i ∈ ns := (List.mem_cons.1 mem).resolve_left (Ne.symm same)
      rw [else_ n same]
      refine ((ih nodup mem).append_left (g n)).trans ?_
      rw [← List.append_assoc, ← List.append_assoc]
      exact List.perm_append_comm.append_right _

/-- What the acts of a crew show is what those of its lead show, and those of its tasks each. -/
theorem perm_own_append_within {β : Type} {f : Act → Option β} {n : Nat} {T : List Act}
    (inside : ∀ i act, f (.inside i act) = f act) (marked : ∀ i act, .inside i act ∈ T → i < n) :
    (T.filterMap f).Perm ((own T).filterMap f ++
      (List.range n).flatMap fun i => (within i T).filterMap f) := by
  induction T with
  | nil =>
    have none_ : ((List.range n).flatMap fun i => (within i []).filterMap f) = [] :=
      List.flatMap_eq_nil_iff.2 fun _ _ => rfl
    rw [none_]
    exact .nil
  | cons act T ih =>
    have rest := ih fun i act' mem => marked i act' (List.mem_cons_of_mem _ mem)
    have split (act : Act) (T : List Act) :
        (act :: T).filterMap f = (f act).toList ++ T.filterMap f := by
      rw [List.filterMap_cons]
      cases f act <;> rfl
    rw [split]
    cases outer : act.isInside with
    | false =>
      have same : ((List.range n).flatMap fun i => (within i (act :: T)).filterMap f) =
          (List.range n).flatMap fun i => (within i T).filterMap f :=
        List.flatMap_congr fun i _ => by rw [within_cons outer]
      rw [same, own_cons outer, split, List.append_assoc]
      exact rest.append_left _
    | true =>
      cases act with
      | inside i act' =>
        have hi : i < n := marked i act' List.mem_cons_self
        -- only what the task shows that acts is more
        have more : ((List.range n).flatMap fun j =>
              (within j (.inside i act' :: T)).filterMap f).Perm
            ((f act').toList ++ (List.range n).flatMap fun j => (within j T).filterMap f) :=
          perm_flatMap_of_more List.nodup_range (List.mem_range.2 hi)
            (by rw [within_inside_self, split]) fun j ne => by
              rw [within_inside_of_ne (Ne.symm ne)]
        rw [inside, own_inside]
        refine (rest.append_left _).trans (.trans ?_ (more.symm.append_left _))
        rw [← List.append_assoc, ← List.append_assoc]
        exact List.perm_append_comm.append_right _
      | _ => cases outer

/-! ### The lead -/

namespace Job

/-- A way through a job by itself, whatever its tasks do meanwhile. -/
inductive Leads : Job → List Act → Job → Prop
  | refl {job : Job} : Leads job [] job
  | ask {r : Request} {next : r.Answer → Job} (answer : r.Answer) {T : List Act} {job' : Job}
      (rest : Leads (next answer) T job') : Leads (.ask r next) (.asked r answer :: T) job'
  | refuse {m : Message} {next : Unit → Job} (report : String) :
      Leads (.ask (.note (.message m)) next) [.refused m report] (.crashed report)
  | spawn {task next : Job} {T : List Act} {job' : Job} (rest : Leads next T job') :
      Leads (.spawn task next) (.spawned task :: T) job'
  | join {next : List String → Job} (reports : List String) {T : List Act} {job' : Job}
      (rest : Leads (next reports) T job') : Leads (.join next) (.joined reports :: T) job'

theorem Ended.eq_of_leads {job job' : Job} {T : List Act} (ended : job.Ended)
    (leads : Leads job T job') : T = [] ∧ job' = job := by
  cases leads with
  | refl => exact ⟨rfl, rfl⟩
  | _ => exact ended.elim

end Job

open Job (Leads)

namespace Crew.Did

variable {crew crew' : Crew} {T : List Act}

theorem leads (did : Did crew T crew') : Leads crew.lead (own T) crew'.lead := by
  induction did with
  | refl => exact .refl
  | @head _ _ _ _ T does did ih =>
    cases does with
    | ask answer => exact .ask answer ih
    | refuse report =>
      have crashed : (Job.crashed report).Ended := trivial
      obtain ⟨none, same⟩ := crashed.eq_of_leads ih
      rw [own_cons rfl, none, same]
      exact .refuse report
    | spawn => exact .spawn ih
    | join ended told => exact .join _ ih
    | inside going at_i does => exact ih

/-! ### Tasks -/

/-- There are the tasks that there were and those that have been started, and what is inside is what
    one of them does. -/
theorem length_tasks (did : Did crew T crew') :
    crew'.tasks.length = crew.tasks.length + (starts T).length := by
  induction did with
  | refl => rfl
  | head does did ih =>
    rw [ih]
    cases does with
    | @spawn task next tasks =>
      show (tasks ++ [start task]).length + _ = tasks.length + (_ + 1)
      rw [List.length_append, List.length_singleton, Nat.add_assoc, Nat.add_comm 1]
      rfl
    | inside going at_i does =>
      show (List.set _ _ _).length + _ = _
      rw [List.length_set]
      rfl
    | _ => rfl

theorem lt_of_mem (did : Did crew T crew') {i : Nat} {act : Act} (mem : .inside i act ∈ T) :
    i < crew'.tasks.length := by
  induction did with
  | refl => cases mem
  | head does did ih =>
    rcases List.mem_cons.1 mem with rfl | mem
    · cases does with
      | inside going at_i does =>
        rw [did.length_tasks]
        show _ < (List.set _ _ _).length + _
        rw [List.length_set]
        exact Nat.lt_add_right _ (List.getElem?_eq_some_iff.1 at_i).1
    · exact ih mem

/-- What a task has done is a trace of that task. -/
theorem task (did : Did crew T crew') {i : Nat} {c : Crew}
    (at_i : (crew.tasks ++ (starts T).map start)[i]? = some c) :
    ∃ c', crew'.tasks[i]? = some c' ∧ Did c (within i T) c' := by
  induction did generalizing c with
  | refl =>
    rw [starts, List.filterMap_nil, List.map_nil, List.append_nil] at at_i
    exact ⟨c, at_i, .refl⟩
  | @head _ _ _ act T does did ih =>
    cases does with
    | ask answer => exact ih at_i
    | refuse report => exact ih at_i
    | spawn =>
      rw [show starts (.spawned _ :: T) = _ :: starts T from rfl, List.map_cons,
        List.append_cons] at at_i
      exact ih at_i
    | join ended told => exact ih at_i
    | @inside lead tasks j d d' act going at_j does =>
      obtain ⟨hj, rfl⟩ := List.getElem?_eq_some_iff.1 at_j
      change (tasks ++ (starts T).map start)[i]? = some c at at_i
      have set : tasks.set j d' ++ (starts T).map start =
          (tasks ++ (starts T).map start).set j d' := (List.set_append_left _ _ hj).symm
      by_cases same : j = i
      · -- the task that acts: its act comes first in its own trace
        subst same
        rw [List.getElem?_append_left hj, List.getElem?_eq_getElem hj] at at_i
        cases at_i
        have at_j' : (tasks.set j d' ++ (starts T).map start)[j]? = some d' := by
          rw [List.getElem?_append_left (by rwa [List.length_set]), List.getElem?_set_self hj]
        obtain ⟨c', at_i', did'⟩ := ih at_j'
        rw [within_inside_self]
        exact ⟨c', at_i', .head does did'⟩
      · rw [within_inside_of_ne same]
        refine ih ?_
        show (tasks.set j d' ++ _)[i]? = _
        rw [set, List.getElem?_set_ne same, at_i]

/-- Where all tasks have ended and none is started, nothing is inside. -/
theorem tasks_eq (did : Did crew T crew') (ended : ∀ c ∈ crew.tasks, c.Ended)
    (none_ : starts T = []) : crew'.tasks = crew.tasks := by
  induction did with
  | refl => rfl
  | head does did ih =>
    cases does with
    | spawn => cases none_
    | inside going at_i does => exact absurd does (ended _ (List.mem_of_getElem? at_i)).not_does
    | ask answer => exact ih ended none_
    | refuse report => exact ih ended none_
    | join all told => exact ih ended none_

/-- Behind a join, all tasks have ended, and the reports are theirs. -/
theorem ended_of_joined (did : Did crew T crew') {T₁ T₂ : List Act} {reports : List String}
    (split : own T = T₁ ++ .joined reports :: T₂) (none_ : starts T₂ = []) :
    (∀ c ∈ crew'.tasks, c.Ended) ∧ reports.Perm (crew'.tasks.filterMap report?) := by
  induction did generalizing T₁ with
  | refl =>
    have length := congrArg List.length split
    simp [own] at length
  | @head _ _ _ act T does did ih =>
    cases outer : act.isInside with
    | true =>
      cases does with
      | inside going at_i does => exact ih split
      | _ => cases outer
    | false =>
      rw [own_cons outer] at split
      cases T₁ with
      | cons act' T₁ => exact ih (List.cons.inj split).2
      | nil =>
        obtain ⟨rfl, rfl⟩ := List.cons.inj split
        cases does with
        | join ended told =>
          rw [starts_own] at none_
          rw [did.tasks_eq ended none_]
          exact ⟨ended, told⟩

/-- A lead whose tasks have ended does everything itself, as long as it starts no more. -/
theorem own_eq (did : Did crew T crew') (ended : ∀ c ∈ crew.tasks, c.Ended)
    (none_ : starts T = []) : own T = T := by
  induction did with
  | refl => rfl
  | head does did ih =>
    cases does with
    | ask answer => exact congrArg _ (ih ended none_)
    | refuse report => exact congrArg _ (ih ended none_)
    | spawn => cases none_
    | join all told => exact congrArg _ (ih ended none_)
    | inside going at_i does => exact absurd does (ended _ (List.mem_of_getElem? at_i)).not_does

end Crew.Did

/-! ## Scripts -/

deriving instance DecidableEq for Request

namespace Script

variable {α β : Type}

/-- Some acts are all of what a script did: to its end, with a result, or up to the message that was
    refused. -/
inductive Plays : Script α → List Act → Option α → Prop
  | done {a : α} : Plays (.done a) [] (some a)
  | ask {r : Request} {next : r.Answer → Script α} {answer : r.Answer} {T : List Act}
      {x : Option α} (rest : Plays (next answer) T x) :
      Plays (.ask r next) (.asked r answer :: T) x
  | refused {m : Message} {next : Unit → Script α} {report : String} :
      Plays (.ask (.note (.message m)) next) [.refused m report] none

/-- The result of a script that was answered as some acts tell, if it came to one. -/
def replay? : Script α → List Act → Option α
  | .done a, _ => some a
  | .ask r next, .asked r' answer :: T =>
    if same : r' = r then (next (same ▸ answer)).replay? T else none
  | .ask _ _, _ => none

namespace Plays

variable {s : Script α} {f : α → Script β} {T : List Act} {x : Option α}

theorem replay?_append (plays : s.Plays T x) (rest : List Act) : s.replay? (T ++ rest) = x := by
  induction plays with
  | done => rfl
  | @ask r next answer T x _ ih =>
    rw [List.cons_append, replay?, dif_pos rfl]
    exact ih
  | refused => rfl

theorem within_eq_nil (plays : s.Plays T x) (i : Nat) : within i T = [] := by
  induction plays with
  | done => rfl
  | ask _ ih => exact ih
  | refused => rfl

theorem starts_eq_nil (plays : s.Plays T x) : starts T = [] := by
  induction plays with
  | done => rfl
  | ask _ ih => exact ih
  | refused => rfl

/-- A script is broken off by a refusal only. -/
theorem exists_refused (plays : s.Plays T none) : ∃ m report, .refused m report ∈ T := by
  generalize cut : (none : Option α) = x at plays
  induction plays with
  | done => cases cut
  | ask _ ih =>
    obtain ⟨m, report, mem⟩ := ih cut
    exact ⟨m, report, List.mem_cons_of_mem _ mem⟩
  | refused => exact ⟨_, _, List.mem_cons_self⟩

theorem bind {a : α} {T' : List Act} {y : Option β} (first : s.Plays T (some a))
    (second : (f a).Plays T' y) : (s.bind f).Plays (T ++ T') y := by
  generalize whole : some a = x at first
  induction first with
  | done =>
    cases whole
    exact second
  | ask _ ih => exact .ask (ih whole)
  | refused => cases whole

/-- A script that is broken off in its first part. -/
theorem bind_none (first : s.Plays T none) (f : α → Script β) : (s.bind f).Plays T none := by
  generalize cut : (none : Option α) = x at first
  induction first with
  | done => cases cut
  | ask _ ih => exact .ask (ih cut)
  | refused => exact .refused

/-- A script that consists of two, one after the other. -/
theorem of_bind {y : Option β} (plays : (s.bind f).Plays T y) :
    (∃ a T₁ T₂, T = T₁ ++ T₂ ∧ s.Plays T₁ (some a) ∧ (f a).Plays T₂ y) ∨
      s.Plays T none ∧ y = none := by
  induction s generalizing T with
  | done a => exact .inl ⟨a, [], T, rfl, .done, plays⟩
  | ask r next ih =>
    cases plays with
    | ask rest =>
      rcases ih _ rest with ⟨a, T₁, T₂, rfl, first, second⟩ | ⟨first, cut⟩
      · exact .inl ⟨a, _, T₂, rfl, .ask first, second⟩
      · exact .inr ⟨.ask first, cut⟩
    | refused => exact .inr ⟨.refused, rfl⟩

end Plays

end Script

/-! ## Jobs that begin with scripts -/

namespace Job.Leads

variable {T : List Act} {job' : Job}

/-- A script as the first part of a job. -/
theorem of_andThen {α : Type} {s : Script α} {f : α → Job} (leads : Leads (s.andThen f) T job')
    (ended : job'.Ended) :
    (∃ a T₁ T₂, T = T₁ ++ T₂ ∧ s.Plays T₁ (some a) ∧ Leads (f a) T₂ job') ∨
      s.Plays T none ∧ ∃ m report, .refused m report ∈ T ∧ job' = .crashed report := by
  induction s generalizing T with
  | done a => exact .inl ⟨a, [], T, rfl, .done, leads⟩
  | ask r next ih =>
    cases leads with
    | refl => exact ended.elim
    | ask answer leads =>
      rcases ih answer leads with ⟨a, T₁, T₂, rfl, first, second⟩ | ⟨first, m, report, mem, crashed⟩
      · exact .inl ⟨a, _, T₂, rfl, .ask first, second⟩
      · exact .inr ⟨.ask first, m, report, List.mem_cons_of_mem _ mem, crashed⟩
    | refuse report => exact .inr ⟨.refused, _, report, List.mem_cons_self, rfl⟩

/-- A script as the whole of a job. -/
theorem of_job {s : Script Unit} (leads : Leads s.job T job') (ended : job'.Ended) :
    s.Plays T (some ()) ∧ job' = .done ∨
      s.Plays T none ∧ ∃ m report, .refused m report ∈ T ∧ job' = .crashed report := by
  rcases leads.of_andThen ended with ⟨a, T₁, T₂, rfl, plays, rest⟩ | crashed
  · have done : Job.done.Ended := trivial
    obtain ⟨rfl, rfl⟩ := done.eq_of_leads rest
    rw [List.append_nil]
    exact .inl ⟨plays, rfl⟩
  · exact .inr crashed

/-- What a script that comes to its end has played leads through it. -/
theorem andThen {α : Type} {s : Script α} {f : α → Job} {a : α} {T' : List Act}
    (plays : s.Plays T (some a)) (rest : Leads (f a) T' job') :
    Leads (s.andThen f) (T ++ T') job' := by
  generalize whole : some a = x at plays
  induction plays with
  | done =>
    cases whole
    exact rest
  | ask _ ih => exact .ask _ (ih whole)
  | refused => cases whole

end Job.Leads

namespace Crew.Did

/-- A script as the first part of the lead. -/
theorem andThen {α : Type} {s : Script α} {f : α → Job} {a : α} {T T' : List Act}
    {tasks : List Crew} {crew' : Crew} (plays : s.Plays T (some a))
    (did : Did ⟨f a, tasks⟩ T' crew') : Did ⟨s.andThen f, tasks⟩ (T ++ T') crew' := by
  generalize whole : some a = x at plays
  induction plays with
  | done =>
    cases whole
    exact did
  | ask _ ih => exact .head (.ask _) (ih whole)
  | refused => cases whole

/-- A script that is broken off brings the lead down. -/
theorem andThen_none {α : Type} {s : Script α} {T : List Act} {tasks : List Crew}
    (plays : s.Plays T none) (f : α → Job) :
    ∃ report, Did ⟨s.andThen f, tasks⟩ T ⟨.crashed report, tasks⟩ := by
  generalize cut : (none : Option α) = x at plays
  induction plays with
  | done => cases cut
  | ask _ ih =>
    obtain ⟨report, did⟩ := ih cut
    exact ⟨report, .head (.ask _) did⟩
  | @refused _ _ report => exact ⟨report, .head (.refuse report) .refl⟩

/-- A script as the first part of a lead whose tasks have ended. -/
theorem of_andThen {α : Type} {s : Script α} {f : α → Job} {tasks : List Crew} {T : List Act}
    {crew' : Crew} (did : Did ⟨s.andThen f, tasks⟩ T crew') (idle : ∀ c ∈ tasks, c.Ended)
    (ended : crew'.Ended) :
    (∃ a T₁ T₂, T = T₁ ++ T₂ ∧ s.Plays T₁ (some a) ∧ Did ⟨f a, tasks⟩ T₂ crew') ∨
      s.Plays T none ∧ ∃ m report, .refused m report ∈ T ∧ crew' = ⟨.crashed report, tasks⟩ := by
  induction s generalizing T with
  | done a => exact .inl ⟨a, [], T, rfl, .done, did⟩
  | ask r next ih =>
    cases did with
    | refl => exact ended.elim
    | head does did =>
      cases does with
      | ask answer =>
        rcases ih answer did with ⟨a, T₁, T₂, rfl, first, second⟩ | ⟨first, m, report, mem, crashed⟩
        · exact .inl ⟨a, _, T₂, rfl, .ask first, second⟩
        · exact .inr ⟨.ask first, m, report, List.mem_cons_of_mem _ mem, crashed⟩
      | refuse report =>
        have crashed : (Crew.mk (.crashed report) tasks).Ended := trivial
        obtain ⟨rfl, rfl⟩ := crashed.eq_of_did did
        exact .inr ⟨.refused, _, report, List.mem_cons_self, rfl⟩
      | inside _ at_i does => exact absurd does (idle _ (List.mem_of_getElem? at_i)).not_does

/-- A job, then another one unless it crashes. -/
theorem of_followedBy {job job₂ : Job} {tasks : List Crew} {T : List Act} {crew' : Crew}
    (did : Did ⟨job.followedBy job₂, tasks⟩ T crew') (ended : crew'.Ended) :
    (∃ T₁ T₂ tasks', T = T₁ ++ T₂ ∧ Did ⟨job, tasks⟩ T₁ ⟨.done, tasks'⟩ ∧
        Did ⟨job₂, tasks'⟩ T₂ crew') ∨
      ∃ report tasks', Did ⟨job, tasks⟩ T ⟨.crashed report, tasks'⟩ ∧
        crew' = ⟨.crashed report, tasks'⟩ := by
  generalize whole : Crew.mk (job.followedBy job₂) tasks = crew at did
  induction did generalizing job tasks with
  | @refl crew =>
    subst whole
    cases job with
    | done => exact .inl ⟨[], [], tasks, rfl, .refl, .refl⟩
    | crashed report => exact .inr ⟨report, tasks, .refl, rfl⟩
    | ask r next => exact ended.elim
    | spawn task next => exact ended.elim
    | join next => exact ended.elim
  | @head crew crew₁ crew' act T does did ih =>
    subst whole
    -- what the lead of the two does, the first one does, unless it has ended
    have step {job₁ : Job} {tasks₁ : List Crew} (first : Does ⟨job, tasks⟩ act ⟨job₁, tasks₁⟩)
        (rest : (∃ T₁ T₂ tasks', T = T₁ ++ T₂ ∧ Did ⟨job₁, tasks₁⟩ T₁ ⟨.done, tasks'⟩ ∧
            Did ⟨job₂, tasks'⟩ T₂ crew') ∨
          ∃ report tasks', Did ⟨job₁, tasks₁⟩ T ⟨.crashed report, tasks'⟩ ∧
            crew' = ⟨.crashed report, tasks'⟩) :
        (∃ T₁ T₂ tasks', act :: T = T₁ ++ T₂ ∧ Did ⟨job, tasks⟩ T₁ ⟨.done, tasks'⟩ ∧
            Did ⟨job₂, tasks'⟩ T₂ crew') ∨
          ∃ report tasks', Did ⟨job, tasks⟩ (act :: T) ⟨.crashed report, tasks'⟩ ∧
            crew' = ⟨.crashed report, tasks'⟩ := by
      rcases rest with ⟨T₁, T₂, tasks', rfl, did₁, did₂⟩ | ⟨report, tasks', did₁, crashed⟩
      · exact .inl ⟨act :: T₁, T₂, tasks', rfl, .head first did₁, did₂⟩
      · exact .inr ⟨report, tasks', .head first did₁, crashed⟩
    cases job with
    | done => exact .inl ⟨[], act :: T, tasks, rfl, .refl, .head does did⟩
    | crashed report =>
      have crashed : (Crew.mk (.crashed report) tasks).Ended := trivial
      exact absurd does crashed.not_does
    | ask r next =>
      cases does with
      | ask answer => exact step (.ask answer) (ih ended rfl)
      | refuse report =>
        have crashed : (Crew.mk (.crashed report) tasks).Ended := trivial
        obtain ⟨rfl, rfl⟩ := crashed.eq_of_did did
        exact .inr ⟨report, tasks, .head (.refuse report) .refl, rfl⟩
      | inside going at_i does => exact step (.inside id at_i does) (ih ended rfl)
    | spawn task next =>
      cases does with
      | spawn => exact step .spawn (ih ended rfl)
      | inside going at_i does => exact step (.inside id at_i does) (ih ended rfl)
    | join next =>
      cases does with
      | join all told => exact step (.join all told) (ih ended rfl)
      | inside going at_i does => exact step (.inside id at_i does) (ih ended rfl)

end Crew.Did

/-! ## Sums -/

/-- What is told in an act, if something is, be it refused or not. -/
def Act.told? : Act → Option Note
  | .asked (.note n) _ => some n
  | .refused m _ => some (.message m)
  | .inside _ act => act.told?
  | _ => none

/-- All that is told. -/
def told (T : List Act) : List Note := T.filterMap Act.told?

theorem told_cons (act : Act) (T : List Act) : told (act :: T) = act.told?.toList ++ told T := by
  rw [told, List.filterMap_cons]
  cases act.told? <;> rfl

theorem Act.Met.notes_eq {S : System} (honest : S.Honest) {w w' : World} {act : Act}
    (taken : ∀ m, S.host.refuses m = none) (met : act.Met S w w') :
    w'.notes = w.notes ++ act.told?.toList := by
  induction act with
  | asked r a =>
    have unsaid (no_book : r.isLook = true ∨ r.isChange = true) :
        (Act.asked r a).told?.toList = [] := by
      cases r with
      | note n => rcases no_book with no_book | no_book <;> cases no_book
      | _ => rfl
    rcases r.isLook_or with look | change | book
    · rw [honest.look look met.2, unsaid (.inl look), List.append_nil]
    · obtain ⟨disk, rfl⟩ := honest.change change met.2
      rw [unsaid (.inr change), List.append_nil]
    · have after : (w.answer S.host r).2 = w' := congrArg Prod.snd (honest.book book met.2)
      rw [← after]
      cases r with
      | note n => cases n <;> rfl
      | count _ | tally | complaints | print _ _ | exit _ => exact (List.append_nil _).symm
      | _ => cases book
  | refused m report => cases (taken m).symm.trans met.1
  | spawned _ | joined _ =>
    rw [show w' = w from met]
    exact (List.append_nil _).symm
  | inside i act ih => exact ih met

/-- Where nothing is refused, all that is told arrives. -/
theorem World.Mets.notes_eq {S : System} (honest : S.Honest) {w w' : World} {T : List Act}
    (taken : ∀ m, S.host.refuses m = none) (mets : Mets S w T w') :
    w'.notes = w.notes ++ told T := by
  induction mets with
  | nil => exact (List.append_nil _).symm
  | cons met _ ih => rw [ih, met.notes_eq honest taken, told_cons, List.append_assoc]

section

variable {M : Type} [AddCommMonoid M] (b : Ledger M)

/-- What is entered for an act.  A message that is refused is entered all the same. -/
def Act.cost : Act → M
  | .asked r _ => b.cost r
  | .refused m _ => b.note (.message m)
  | .spawned _ | .joined _ => 0
  | .inside _ act => act.cost

/-- What is entered for some acts. -/
def spent (T : List Act) : M := (T.map (Act.cost b)).sum

@[simp] theorem spent_nil : spent b [] = 0 := rfl

@[simp] theorem spent_cons (act : Act) (T : List Act) :
    spent b (act :: T) = act.cost b + spent b T := by
  rw [spent, List.map_cons, List.sum_cons]
  rfl

@[simp] theorem spent_append (T T' : List Act) : spent b (T ++ T') = spent b T + spent b T' := by
  rw [spent, List.map_append, List.sum_append]
  rfl

/-- What a crew enters is what its lead enters, and what its tasks enter each. -/
theorem spent_eq_own_add_within {n : Nat} {T : List Act}
    (marked : ∀ i act, .inside i act ∈ T → i < n) :
    spent b T = spent b (own T) + ((List.range n).map fun i => spent b (within i T)).sum := by
  have parts := perm_own_append_within (f := fun act => some (act.cost b)) (fun _ _ => rfl) marked
  simp only [List.filterMap_eq_map'] at parts
  have sums := parts.sum_eq
  rw [List.sum_append, List.flatMap_def, List.sum_flatten, List.map_map] at sums
  exact sums

end

namespace Script.Plays

variable {M : Type} [AddCommMonoid M] {b : Ledger M} {α : Type} {s : Script α} {T : List Act}
  {x : Option α} {e : M}

/-- What a script that was played has entered; when it was broken off, something may be missing. -/
theorem exists_spent_add (plays : s.Plays T x) (costs : s.Costs b e) :
    ∃ e', spent b T + e' = e ∧ (x ≠ none → e' = 0) := by
  induction plays generalizing e with
  | done =>
    cases costs
    exact ⟨0, add_zero _, fun _ => rfl⟩
  | @ask r next answer T x _ ih =>
    cases costs with
    | ask costs =>
      obtain ⟨e', sum, whole⟩ := ih (costs answer)
      refine ⟨e', ?_, whole⟩
      rw [spent_cons, add_assoc, sum]
      rfl
  | @refused m next report =>
    cases costs with
    | @ask _ _ e costs =>
      refine ⟨e, ?_, fun ne => absurd rfl ne⟩
      rw [spent_cons, spent_nil, add_zero]
      rfl

theorem spent_eq {a : α} (plays : s.Plays T (some a)) (costs : s.Costs b e) : spent b T = e := by
  obtain ⟨e', sum, whole⟩ := plays.exists_spent_add costs
  rw [← sum, whole (Option.some_ne_none a), add_zero]

end Script.Plays

end CallSweep
