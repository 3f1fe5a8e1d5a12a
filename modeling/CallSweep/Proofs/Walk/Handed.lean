/-
  What became of the files that a walk has swept.

  A trace of a walk tells which files were handed to the sweep, and what the task of each of them
  did.  Replaying the sweep on the acts of the task gives what it came to.

  1. **Handed files** (`Walk.handedFrom`) — the entries that come up while a directory is listed
     decide which files are handed over; the acts of a task are those of its number.

  2. **Troubles** (`Walk.troubles`) — the directories that could not be listed, or not to their
     ends, and the entries of which the kind could not be told.

  3. **Fates** (`Walk.Fate`) — a file failed, or was swept of so many calls, or its task was brought
     down by the diff that it showed.  Together with what was read, the fate says what is entered for
     the file (`fateEntry`).

  4. **Files** (`processFile_plays`) — whatever the task of a file is answered, its fate fits what was
     read (`Fits`), and it enters what that comes to.
-/
import CallSweep.Proofs.Run.Requests
import CallSweep.Proofs.Run.Trace
import CallSweep.Proofs.Walk.Account

namespace CallSweep

open Script (Plays)

namespace Walk

/-! ## Handed files -/

/-- The task of an entry, if it gets one. -/
def task (plan : Plan) (p : Path) : Name × FileKind → Option Job
  | (name, .directory) => if plan.skips name then none else some (directory plan (p.child name))
  | (name, .file) =>
    if plan.extensions.admits (p.child name) then
      some ((processFile plan (p.child name)).andThen fun _ => .done)
    else none
  | (_, .other) => none

/-- The entry that comes up in an act, if it gets a task. -/
def caller? (plan : Plan) (p : Path) : Act → Option (Name × FileKind)
  | .asked (.next _ _) (.ok (some ((name, .ok kind), _))) =>
    if (task plan p (name, kind)).isSome then some (name, kind) else none
  | _ => none

/-- The entries that come up and get tasks, first to last. -/
def callers (plan : Plan) (p : Path) (T : List Act) : List (Name × FileKind) :=
  T.filterMap (caller? plan p)

/-- A file that was handed to the sweep, and what its task did. -/
structure Handed where
  path : Path
  acts : List Act

/-- The files that the walk of a directory handed over. -/
def handedIn (plan : Plan) (p : Path) : List Act → List Handed
  | .asked (.list _) (.ok _) :: T =>
    (callers plan p T).zipIdx.flatMap fun ((name, kind), i) =>
      match kind with
      | .directory => handedIn plan (p.child name) (within i T)
      | .file | .other => [⟨p.child name, within i T⟩]
  | _ => []
  termination_by T => T.length
  decreasing_by
    have := length_within_le i T
    simp only [List.length_cons]
    omega

/-- The files that the task of an entry handed over. -/
def handedBy (plan : Plan) (p : Path) (e : Name × FileKind) (T : List Act) : List Handed :=
  match e.2 with
  | .directory => handedIn plan (p.child e.1) T
  | .file | .other => [⟨p.child e.1, T⟩]

theorem handedIn_listed {plan : Plan} {p p' : Path} {l : Listing p'} {T : List Act} :
    handedIn plan p (.asked (.list p') (.ok l) :: T) =
      (callers plan p T).zipIdx.flatMap fun (e, i) => handedBy plan p e (within i T) := by
  rw [handedIn]
  rfl

/-- The numbers of the entries. -/
theorem map_zipIdx {α β : Type} (xs : List α) (f : Nat → β) :
    xs.zipIdx.map (fun x => f x.2) = (List.range xs.length).map f := by
  rw [List.range_eq_range', ← List.zipIdx_map_snd 0, List.map_map]
  rfl

theorem handedIn_unlisted {plan : Plan} {p p' : Path} {e : OsError} {T : List Act} :
    handedIn plan p (.asked (.list p') (.error e) :: T) = [] := by
  rw [handedIn]
  intro _ _ _ same
  cases same

/-- The files that a walk handed over that began with a look at this path. -/
def handedFrom (plan : Plan) (q : Path) : List Act → List Handed
  | .asked (.stat _) (.ok stat) :: T =>
    match stat.kind with
    | .directory => handedIn plan q T
    | .file => if plan.extensions.admits q then [⟨q, T⟩] else []
    | .other => []
  | _ => []

/-! ## Troubles -/

end Walk

/-- What a walk tells that cannot go on at an act: a directory is not listed, or not to its end, or
    of an entry it is not said what it is. -/
def Act.trouble? : Act → Option Failure
  | .asked (.list p) (.error e) => some (.list p e)
  | .asked (.next p _) (.error e) => some (.list p e)
  | .asked (.next p _) (.ok (some ((name, .error e), _))) => some (.inspect (p.child name) e)
  | .inside _ act => act.trouble?
  | _ => none

namespace Walk

/-- The troubles of a walk. -/
def troubles (T : List Act) : List Failure := T.filterMap Act.trouble?

/-- The troubles of a walk that began with a look at this path. -/
def troublesFrom (q : Path) : List Act → List Failure
  | .asked (.stat _) (.error e) :: _ => [.inspect q e]
  | T => troubles T

/-! ## Fates -/

/-- What the sweep of a file came to: a failure, or how many calls went.  There is no result if a
    message was refused. -/
abbrev Fate := Option (Except Failure Nat)

namespace Fate

def removed : Fate → Nat
  | some (.ok n) => n
  | some (.error _) | none => 0

/-- Calls went. -/
def changed (x : Fate) : Bool := 0 < x.removed

/-- The file was read, and there was nothing to remove. -/
def unchanged : Fate → Bool
  | some (.ok n) => n = 0
  | some (.error _) | none => false

def failed : Fate → Bool
  | some (.error _) => true
  | some (.ok _) | none => false

@[simp] theorem removed_none : removed none = 0 := rfl

@[simp] theorem removed_error (f : Failure) : removed (some (.error f)) = 0 := rfl

@[simp] theorem removed_ok (n : Nat) : removed (some (.ok n)) = n := rfl

@[simp] theorem changed_none : changed none = false := rfl

@[simp] theorem changed_error (f : Failure) : changed (some (.error f)) = false := rfl

@[simp] theorem changed_ok (n : Nat) : changed (some (.ok n)) = decide (0 < n) := rfl

@[simp] theorem unchanged_none : unchanged none = false := rfl

@[simp] theorem unchanged_error (f : Failure) : unchanged (some (.error f)) = false := rfl

@[simp] theorem unchanged_ok (n : Nat) : unchanged (some (.ok n)) = decide (n = 0) := rfl

@[simp] theorem failed_none : failed none = false := rfl

@[simp] theorem failed_error (f : Failure) : failed (some (.error f)) = true := rfl

@[simp] theorem failed_ok (n : Nat) : failed (some (.ok n)) = false := rfl

end Fate

namespace Handed

def fate (plan : Plan) (s : Handed) : Fate := (sweepFile plan s.path).replay? s.acts

/-- What the reading of the file came to, which comes right after the count. -/
def reading (plan : Plan) (s : Handed) : Option (Except SourceError String) :=
  (readSource s.path plan.maxFileSize).replay? s.acts.tail

end Handed

/-- What the sweep of a file can come to, given what was read. -/
inductive Fits (plan : Plan) (p : Path) : Except SourceError String → Fate → Prop
  | unread (e : SourceError) : Fits plan p (.error e) (some (.error (.read p e)))
  | unchanged {text : String} (same : (plan.pattern.sweep text).isUnchanged = true) :
      Fits plan p (.ok text) (some (.ok 0))
  | unwritten {text : String} (differs : (plan.pattern.sweep text).isUnchanged = false)
      (live : plan.dryRun = false) (e : SourceError) :
      Fits plan p (.ok text) (some (.error (.write p e)))
  | changed {text : String} (differs : (plan.pattern.sweep text).isUnchanged = false) :
      Fits plan p (.ok text) (some (.ok (plan.pattern.sweep text).count))
  /-- The diff was refused. -/
  | cut {text : String} (differs : (plan.pattern.sweep text).isUnchanged = false)
      (dry : plan.dryRun = true) : Fits plan p (.ok text) none

/-- The file is eligible, and its acts tell what was read and a fate that fits that. -/
def Handed.Settled (plan : Plan) (s : Handed) : Prop :=
  plan.extensions.admits s.path = true ∧
    ∃ result, s.reading plan = some result ∧ Fits plan s.path result (s.fate plan)

section

variable {M : Type} [AddCommMonoid M] (b : Ledger M) (plan : Plan) (p : Path)

/-- What is entered for the change of a file: a diff, if the run is dry. -/
def changeEntry : Except SourceError String → M
  | .ok text => if (plan.pattern.sweep text).isUnchanged then 0 else diffEntry b plan p text
  | .error _ => 0

/-- What is entered when that is done: how many calls went, if any. -/
def doneEntry : Fate → M
  | some (.ok n) => if n = 0 then 0 else b.count ⟨0, 1, n, 0⟩ + b.note (.event (rewriteEvent plan p n))
  | some (.error _) | none => 0

/-- What is entered when a failure is told. -/
def toldEntry : Fate → M
  | some (.error f) => failureEntry b f
  | some (.ok _) | none => 0

/-- What is entered for a file. -/
def fateEntry (read : Except SourceError String) (x : Fate) : M :=
  b.count ⟨1, 0, 0, 0⟩ + (changeEntry b plan p read + doneEntry b plan p x) + toldEntry b x

/-- What is entered for a file, going by the acts of its task. -/
def Handed.entry (s : Handed) : M :=
  match s.reading plan with
  | some read => fateEntry b plan s.path read (s.fate plan)
  | none => 0

end

/-! ## Scripts -/

/-- Counts, and how many messages there were on the channel for failures and on that for what was
    done. -/
abbrev Sums := Tally × Nat × Nat

/-- Counts and messages, entered side by side, so that the one can be held against the other.  A
    message that is refused has been sent, and is entered. -/
def sums : Ledger Sums where
  count t := (t, 0, 0)
  note n := (0, (Note.errors [n]).length, (Note.infos [n]).length)

theorem discreet_sums : sums.Discreet := fun _ _ => rfl

/-- Something was refused. -/
def Refusing (T : List Act) : Prop := ∃ act ∈ T, ∃ m, act.refused? = some m

theorem Refusing.mono {T T' : List Act} (sub : T ⊆ T') : Refusing T → Refusing T'
  | ⟨act, mem, refused⟩ => ⟨act, sub mem, refused⟩

/-- What is refused inside is refused. -/
theorem Refusing.of_within {i : Nat} {T : List Act} : Refusing (within i T) → Refusing T
  | ⟨act, mem, refused⟩ => ⟨.inside i act, mem_within_iff.1 mem, refused⟩

section

variable {M : Type} [AddCommMonoid M] {b : Ledger M} {α : Type} {s : Script α} {plan : Plan}
  {p : Path} {T : List Act}

theorem told_pos_of_cut (plays : s.Plays T none) :
    0 < (spent sums T).2.1 + (spent sums T).2.2 := by
  generalize cut : (none : Option α) = x at plays
  induction plays with
  | done => cases cut
  | ask _ ih =>
    have := ih cut
    rw [spent_cons, Prod.snd_add, Prod.fst_add, Prod.snd_add]
    omega
  | @refused m next report => cases m <;> exact Nat.one_pos

/-- A script that tells nothing comes to its end. -/
theorem exists_of_free {x : Option α} (plays : s.Plays T x) (costs : s.Costs sums 0) :
    ∃ a, x = some a := by
  cases x with
  | some a => exact ⟨a, rfl⟩
  | none =>
    obtain ⟨rest, sum, -⟩ := plays.exists_spent_add costs
    have pos := told_pos_of_cut plays
    have first : (spent sums T).2.1 + rest.2.1 = 0 := congrArg (fun e : Sums => e.2.1) sum
    have second : (spent sums T).2.2 + rest.2.2 = 0 := congrArg (fun e : Sums => e.2.2) sum
    omega

theorem refusing_of_cut (plays : s.Plays T none) : Refusing T := by
  obtain ⟨m, report, mem⟩ := plays.exists_refused
  exact ⟨_, mem, m, rfl⟩

/-- A failure that is told is entered, even when the message is refused. -/
theorem spent_fail (discreet : b.Discreet) {f : Failure} {x : Option Unit}
    (plays : (fail f).Plays T x) : spent b T = failureEntry b f := by
  have silent (e : LogEvent) (other : tellsRewrite e = false) (T : List Act) :
      spent b (.asked (.note (.event e)) () :: T) = spent b T := by
    rw [spent_cons, show Act.cost b _ = b.note (.event e) from rfl, discreet e other, zero_add]
  change (Script.ask (.count ⟨0, 0, 0, 1⟩) fun _ => .ask (.note (.event _)) fun _ =>
    .ask (.note (.message (.error f.message))) .done).Plays T x at plays
  cases plays with
  | ask plays =>
    cases plays with
    | ask plays =>
      rw [spent_cons, silent _ rfl]
      refine congrArg (b.count ⟨0, 0, 0, 1⟩ + ·) ?_
      cases plays with
      | ask plays =>
        cases plays
        exact (spent_cons ..).trans (add_zero _)
      | refused => exact (spent_cons ..).trans (add_zero _)

/-- What is entered for tasks that crashed. -/
def crashEntry (b : Ledger M) (reports : List String) : M :=
  (reports.map fun report => failureEntry b (.crashed report)).sum

theorem spent_failAll (discreet : b.Discreet) {reports : List String} {x : Option Unit}
    (plays : (failAll reports).Plays T x) :
    ∃ told, spent b T = crashEntry b told ∧ (told ≠ [] → reports ≠ []) := by
  induction reports generalizing T with
  | nil =>
    cases plays
    exact ⟨[], rfl, id⟩
  | cons report reports ih =>
    have some_ := List.cons_ne_nil report reports
    rcases plays.of_bind with ⟨_, T₁, T₂, rfl, first, second⟩ | ⟨first, -⟩
    · obtain ⟨told, rest, -⟩ := ih second
      refine ⟨report :: told, ?_, fun _ => some_⟩
      rw [spent_append, spent_fail discreet first, rest]
      rfl
    · refine ⟨[report], ?_, fun _ => some_⟩
      rw [spent_fail discreet first]
      exact (List.sum_singleton).symm

theorem spent_log (discreet : b.Discreet) {text event : String} {fields : List (String × String)}
    {unshown : List String} (other : text ≠ "stripped file") {x : Option Unit}
    (plays : (log text event fields unshown).Plays T x) : x = some () ∧ spent b T = 0 := by
  have silent (b : Ledger M) (discreet : b.Discreet) : (log text event fields unshown).Costs b 0 :=
    .free (discreet _ (by simpa [tellsRewrite] using other)) fun _ => .done
  have untold : (log text event fields unshown).Costs sums 0 := .free rfl fun _ => .done
  obtain ⟨_, rfl⟩ := exists_of_free plays untold
  exact ⟨rfl, plays.spent_eq (silent b discreet)⟩

theorem spent_finishDirectory (discreet : b.Discreet) {reports : List String} {x : Option Unit}
    (plays : (finishDirectory p reports).Plays T x) :
    ∃ told, spent b T = crashEntry b told ∧ (told ≠ [] → reports ≠ []) := by
  rcases plays.of_bind with ⟨_, T₁, T₂, rfl, first, second⟩ | ⟨first, -⟩
  · obtain ⟨told, entered, some_⟩ := spent_failAll discreet first
    obtain ⟨-, free⟩ := spent_log discreet (by decide) second
    exact ⟨told, by rw [spent_append, entered, free, add_zero], some_⟩
  · exact spent_failAll discreet first

/-! ## The sweep of a file -/

theorem replace_plays (discreet : b.Discreet) {text : String} {x : Option (Except Failure Unit)}
    (plays : (replace plan p text (plan.pattern.sweep text).modified).Plays T x) :
    spent b T = diffEntry b plan p text ∧
      (x = some (.ok ()) ∨ (x = none ∧ plan.dryRun = true) ∨
        ∃ e, x = some (.error (.write p e)) ∧ plan.dryRun = false) := by
  cases dry : plan.dryRun with
  | true =>
    rw [replace_of_dry dry] at plays
    rw [diffEntry, if_pos dry]
    cases plays with
    | ask plays =>
      cases plays
      exact ⟨(spent_cons ..).trans (add_zero _), .inl rfl⟩
    | refused => exact ⟨(spent_cons ..).trans (add_zero _), .inr (.inl ⟨rfl, rfl⟩)⟩
  | false =>
    have costs {N : Type} [AddCommMonoid N] {b : Ledger N} (discreet : b.Discreet) :
        (replace plan p text (plan.pattern.sweep text).modified).Costs b 0 := by
      rw [replace_of_live dry]
      exact (writeSource_costs discreet _ plan.atomicWrite).bind_free fun _ => .done
    obtain ⟨result, rfl⟩ := exists_of_free plays (costs discreet_sums)
    refine ⟨(plays.spent_eq (costs discreet)).trans (diffEntry_of_live dry text).symm, ?_⟩
    rw [replace_of_live dry] at plays
    rcases plays.of_bind with ⟨written, T₁, T₂, rfl, -, last⟩ | ⟨-, cut⟩
    · cases last
      cases written with
      | ok _ => exact .inl rfl
      | error e => exact .inr (.inr ⟨e, rfl, rfl⟩)
    · cases cut

theorem count_pos {text : String} (differs : (plan.pattern.sweep text).isUnchanged = false) :
    0 < (plan.pattern.sweep text).count :=
  List.length_pos_iff.2 (List.isEmpty_eq_false_iff.1 differs)

/-- A text with calls in it is replaced, and the counts are made when that is done. -/
theorem rewrite_plays (discreet : b.Discreet) {text : String} {x : Fate}
    (differs : (plan.pattern.sweep text).isUnchanged = false)
    (plays : ((replace plan p text (plan.pattern.sweep text).modified).bind fun
      | .error f => .done (.error f)
      | .ok () => .ask (.count ⟨0, 1, (plan.pattern.sweep text).count, 0⟩) fun _ =>
          .ask (.note (.event (rewriteEvent plan p (plan.pattern.sweep text).count))) fun _ =>
            .done (.ok (plan.pattern.sweep text).count)).Plays T x) :
    Fits plan p (.ok text) x ∧ spent b T = diffEntry b plan p text + doneEntry b plan p x := by
  rcases plays.of_bind with ⟨replaced, T₁, T₂, rfl, first, last⟩ | ⟨first, rfl⟩
  · obtain ⟨spent_first, done | ⟨cut, -⟩ | ⟨e, failed, live⟩⟩ := replace_plays discreet first
    · cases done
      cases last with
      | ask last =>
        cases last with
        | ask last =>
          cases last
          refine ⟨.changed differs, ?_⟩
          rw [spent_append, spent_first, doneEntry, if_neg (count_pos differs).ne']
          simp only [spent_cons, spent_nil, add_zero]
          rfl
    · cases cut
    · cases failed
      cases last
      refine ⟨.unwritten differs live e, ?_⟩
      rw [spent_append, spent_first]
      rfl
  · obtain ⟨spent_first, done | ⟨-, dry⟩ | ⟨e, failed, -⟩⟩ := replace_plays discreet first
    · cases done
    · refine ⟨.cut differs dry, ?_⟩
      rw [spent_first]
      exact (add_zero _).symm
    · cases failed

/-- The sweep of a file: its fate fits what was read.  A failure is not told yet. -/
theorem sweepFile_plays (discreet : b.Discreet) {x : Fate} (plays : (sweepFile plan p).Plays T x) :
    ∃ read T₁ T₂, T = .asked (.count ⟨1, 0, 0, 0⟩) () :: (T₁ ++ T₂) ∧
      (readSource p plan.maxFileSize).Plays T₁ (some read) ∧ Fits plan p read x ∧
      spent b T = b.count ⟨1, 0, 0, 0⟩ + (changeEntry b plan p read + doneEntry b plan p x) := by
  change (Script.ask (.count ⟨1, 0, 0, 0⟩) fun _ =>
    (readSource p plan.maxFileSize).bind _).Plays T x at plays
  cases plays with
  | ask plays =>
    rcases plays.of_bind with ⟨result, T₁, T₂, rfl, read, plays⟩ | ⟨read, -⟩
    · have free : spent b T₁ = 0 := read.spent_eq (readSource_costs discreet _)
      refine ⟨result, T₁, T₂, rfl, read, ?_⟩
      rw [spent_cons, spent_append, free, zero_add]
      cases result with
      | error e =>
        cases plays
        exact ⟨.unread e, congrArg _ (add_zero 0).symm⟩
      | ok text =>
        change (if (plan.pattern.sweep text).isUnchanged then Script.done (Except.ok 0) else
          (replace plan p text (plan.pattern.sweep text).modified).bind _).Plays T₂ x at plays
        cases differs : (plan.pattern.sweep text).isUnchanged with
        | true =>
          rw [if_pos differs] at plays
          cases plays
          refine ⟨.unchanged differs, ?_⟩
          rw [changeEntry, if_pos differs]
          exact congrArg _ (add_zero 0).symm
        | false =>
          rw [if_neg (by simp [differs])] at plays
          obtain ⟨fits, spent_rest⟩ := rewrite_plays discreet differs plays
          refine ⟨fits, ?_⟩
          rw [spent_rest, changeEntry, if_neg (by simp [differs])]
          rfl
    · obtain ⟨_, cut⟩ := exists_of_free read (readSource_costs discreet_sums _)
      cases cut

/-- What was read of a file whose sweep began so. -/
theorem Handed.reading_eq {s : Handed} {read : Except SourceError String} {T₁ rest : List Act}
    (plays : (readSource s.path plan.maxFileSize).Plays T₁ (some read))
    (acts : s.acts = .asked (.count ⟨1, 0, 0, 0⟩) () :: (T₁ ++ rest)) :
    s.reading plan = some read := by
  rw [Handed.reading, acts]
  exact plays.replay?_append _

/-- The task of a file sweeps it, and then tells if that failed. -/
theorem processFile_split (discreet : b.Discreet) {y : Option (Option Nat)}
    (plays : (processFile plan p).Plays T y) :
    ∃ T₁ T₂, ∃ x : Fate, T = T₁ ++ T₂ ∧ (sweepFile plan p).Plays T₁ x ∧
      (∀ act ∈ T₂, act.Asks fun r => r.isBook = true) ∧ spent b T₂ = toldEntry b x ∧
      ∀ removed, y = some removed → x.failed = removed.isNone := by
  have none_ : ∀ act ∈ ([] : List Act), act.Asks fun r => r.isBook = true := List.forall_mem_nil _
  rcases plays.of_bind with ⟨x, T₁, T₂, rfl, first, last⟩ | ⟨first, rfl⟩
  · cases x with
    | ok n =>
      cases last
      exact ⟨T₁, [], _, rfl, first, none_, rfl, fun removed same => by cases same; rfl⟩
    | error f =>
      rcases Plays.of_bind (s := fail f) last with ⟨_, T₂, T₃, rfl, told, last⟩ | ⟨told, rfl⟩
      · cases last
        rw [List.append_nil]
        exact ⟨T₁, T₂, _, rfl, first, (fail_books f).asks told, spent_fail discreet told,
          fun removed same => by cases same; rfl⟩
      · exact ⟨T₁, T₂, _, rfl, first, (fail_books f).asks told, spent_fail discreet told,
          fun removed same => by cases same⟩
  · exact ⟨T, [], none, (List.append_nil T).symm, first, none_, rfl,
      fun removed same => by cases same⟩

/-- **Files**: the task of a file settles it, whatever comes after it. -/
theorem processFile_plays (discreet : b.Discreet) {y : Option (Option Nat)}
    (admitted : plan.extensions.admits p = true) (plays : (processFile plan p).Plays T y)
    {s : Handed} (path : s.path = p) {rest : List Act} (acts : s.acts = T ++ rest) :
    s.Settled plan ∧ spent b T = s.entry b plan ∧ (s.fate plan = none → Refusing T) ∧
      ∀ removed, y = some removed → (s.fate plan).failed = removed.isNone := by
  obtain ⟨T₁, T₂, x, rfl, swept, -, spent_rest, known⟩ := processFile_split discreet plays
  obtain ⟨read, T₃, T₄, rfl, plays_read, fits, spent_first⟩ := sweepFile_plays discreet swept
  have fate : s.fate plan = x := by
    rw [Handed.fate, path, acts, List.append_assoc]
    exact swept.replay?_append _
  have reading : s.reading plan = some read := by
    have spelled : s.acts = .asked (.count ⟨1, 0, 0, 0⟩) () :: (T₃ ++ (T₄ ++ (T₂ ++ rest))) := by
      rw [acts]
      simp
    exact Handed.reading_eq (path ▸ plays_read) spelled
  refine ⟨⟨path ▸ admitted, read, reading, ?_⟩, ?_, fun cut => ?_, fun removed same => ?_⟩
  · rwa [fate, path]
  · rw [Handed.entry, reading]
    dsimp only
    rw [fate, path, spent_append, spent_first, spent_rest]
    rfl
  · rw [fate] at cut
    exact (refusing_of_cut (cut ▸ swept)).mono (List.subset_append_left _ _)
  · rw [fate]
    exact known removed same

end

end Walk

end CallSweep
