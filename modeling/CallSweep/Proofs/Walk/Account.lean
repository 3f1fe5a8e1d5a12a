/-
  What the scripts of a walk enter in the books.

  Of what a walk tells, three sorts say what became of a file: the diff that a dry run shows, the
  event of a file that was rewritten, and the message of a write that failed.  A ledger is `Modest`
  if it takes account of no others.

  Most scripts of a walk enter nothing, whatever they are answered.  What is left is the failures
  that are told (`Walk.failureEntry`) and the diffs that are shown (`Walk.diffEntry`).

  The scripts that count and tell do nothing else: they have nothing to do with the file system.
-/
import CallSweep.Proofs.Run.Ledger
import CallSweep.Proofs.Run.Requests
import CallSweep.Walk

namespace CallSweep

open Script (Costs)

/-! ## What is taken account of -/

namespace Walk

/-- Whether a text begins with another one. -/
def begins (mark text : String) : Bool := mark.toList.isPrefixOf text.toList

/-- A text does not begin with a mark if its head parts ways with the mark. -/
theorem begins_append_of_apart {mark head : String}
    (apart : ¬ mark.toList <+: head.toList ∧ ¬ head.toList <+: mark.toList) (rest : String) :
    begins mark (head ++ rest) = false := by
  rw [begins, ← Bool.not_eq_true, List.isPrefixOf_iff_prefix, String.toList_append]
  intro both
  rcases List.prefix_or_prefix_of_prefix both (List.prefix_append _ _) with short | long
  · exact apart.1 short
  · exact apart.2 long

/-- Whether a message is the diff of a file. -/
def tellsDiff (text : String) : Bool := begins "--- a/" text

/-- Whether a message says that a file could not be written. -/
def tellsUnwritten (text : String) : Bool := begins "Failed to write file " text

/-- Whether an event is that of a file that was rewritten, or would have been. -/
def tellsRewrite (e : LogEvent) : Bool := e.text == "stripped file"

/-- The event of a file that was rewritten, or would have been. -/
def rewriteEvent (plan : Plan) (f : Path) (removed : Nat) : LogEvent :=
  ⟨.walk, .debug, "stripped file", [("event", "strip.file.rewritten"), ("path", f.display),
    ("removed", toString removed), ("dry_run", toString plan.dryRun)], []⟩

end Walk

open Walk

/-- A ledger that takes account of diffs, rewrites, failed writes and counts only. -/
structure Ledger.Modest {M : Type} [AddCommMonoid M] (b : Ledger M) : Prop where
  info : ∀ text, tellsDiff text = false → b.note (.message (.info text)) = 0
  error : ∀ text, tellsUnwritten text = false → b.note (.message (.error text)) = 0
  event : ∀ e, tellsRewrite e = false → b.note (.event e) = 0

/-- A ledger that takes account of no events but rewrites. -/
def Ledger.Discreet {M : Type} [AddCommMonoid M] (b : Ledger M) : Prop :=
  ∀ e, tellsRewrite e = false → b.note (.event e) = 0

/-- A failure to do anything but write. -/
def Failure.isWrite : Failure → Bool
  | .write _ _ => true
  | .read _ _ | .list _ _ | .inspect _ _ | .crashed _ => false

theorem tellsUnwritten_message {f : Failure} (other : f.isWrite = false) :
    tellsUnwritten f.message = false := by
  cases f with
  | write p e => cases other
  | read p e =>
    show begins _ ("Failed to clean file " ++ p.display ++ ": " ++ e.message) = false
    rw [String.append_assoc, String.append_assoc]
    exact begins_append_of_apart (by decide) _
  | list p e =>
    show begins _ ("Failed to clean directory " ++ p.display ++ ": " ++ e.message) = false
    rw [String.append_assoc, String.append_assoc]
    exact begins_append_of_apart (by decide) _
  | inspect p e =>
    show begins _ ("Failed to inspect " ++ p.display ++ ": " ++ e.message) = false
    rw [String.append_assoc, String.append_assoc]
    exact begins_append_of_apart (by decide) _
  | crashed report => exact begins_append_of_apart (by decide) _

namespace Walk

theorem tellsDiff_summary (plan : Plan) (p : Path) (t : Tally) :
    tellsDiff (summary plan p t) = false := by
  unfold tellsDiff summary verb
  simp only [String.append_assoc]
  split
  · exact begins_append_of_apart (by decide) _
  · exact begins_append_of_apart (by decide) _

section

variable {M : Type} [AddCommMonoid M] {b : Ledger M} {plan : Plan} {f p : Path}

/-! ## Costs -/

/-- What is entered for a failure. -/
def failureEntry (b : Ledger M) (failure : Failure) : M :=
  b.count ⟨0, 0, 0, 1⟩ + b.note (.message (.error failure.message))

theorem failureEntry_of_other (modest : b.Modest) {failure : Failure}
    (other : failure.isWrite = false) : failureEntry b failure = b.count ⟨0, 0, 0, 1⟩ := by
  rw [failureEntry, modest.error _ (tellsUnwritten_message other), add_zero]

/-- Whether a request is part of the work on a single file: it is about that file, or adds to the log
    what cannot be taken for a rewrite. -/
def FileWork : Request → Prop
  | .stat _ | .read _ | .resolve _ | .write _ _ | .chmod _ _ | .rename _ _ | .remove _ => True
  | .note (.event e) => tellsRewrite e = false
  | _ => False

theorem FileWork.cost_eq {r : Request} (work : FileWork r) (discreet : b.Discreet) :
    b.cost r = 0 := by
  cases r with
  | note n =>
    cases n with
    | event e => exact discreet e work
    | message m => cases work
  | stat _ | read _ | resolve _ | write _ _ | chmod _ _ | rename _ _ | remove _ => rfl
  | _ => cases work

theorem readSource_work (limit : Nat) : (readSource p limit).Only FileWork := by
  refine ⟨trivial, fun answer => ?_⟩
  cases answer with
  | error e => trivial
  | ok stat =>
    show Script.Only FileWork (if limit < stat.size then _ else _)
    split
    · trivial
    · refine ⟨trivial, fun answer => ?_⟩
      cases answer <;> trivial

theorem replaceFile_work (file copy : Path) (bytes : ByteArray) :
    (replaceFile file copy bytes).Only FileWork := by
  refine ⟨trivial, fun answer => ?_⟩
  cases answer with
  | error e => trivial
  | ok stat =>
    refine ⟨trivial, fun answer => ?_⟩
    cases answer with
    | error e => trivial
    | ok u =>
      refine ⟨trivial, fun answer => ?_⟩
      cases answer with
      | error e => trivial
      | ok u => exact ⟨trivial, fun _ => trivial⟩

theorem removeCopy_work (copy : Path) : (removeCopy copy).Only FileWork := by
  have noted : (Script.request (.note (.event (copyLeft copy)))).Only FileWork := .request rfl
  refine ⟨trivial, fun (answer : Except OsError Unit) => ?_⟩
  cases answer with
  | ok u => trivial
  | error e =>
    cases e with
    | noEntry => trivial
    | _ => exact noted

theorem writeSource_work (text : String) (atomic : Bool) :
    (writeSource p text atomic).Only FileWork := by
  cases atomic with
  | false => exact ⟨trivial, fun _ => trivial⟩
  | true =>
    have copied : (writeByCopy p text.toUTF8).Only FileWork := by
      refine ⟨trivial, fun answer => ?_⟩
      cases answer with
      | error e => trivial
      | ok place =>
        refine (replaceFile_work _ _ _).bind fun result => ?_
        cases result with
        | ok u => trivial
        | error e => exact (removeCopy_work _).bind fun _ => trivial
    exact copied.bind fun _ => trivial

theorem readSource_costs (discreet : b.Discreet) (limit : Nat) : (readSource p limit).Costs b 0 :=
  ((readSource_work limit).mono fun _ work => work.cost_eq discreet).costs

theorem writeSource_costs (discreet : b.Discreet) (text : String) (atomic : Bool) :
    (writeSource p text atomic).Costs b 0 :=
  ((writeSource_work text atomic).mono fun _ work => work.cost_eq discreet).costs

/-! ## Diffs -/

/-- What is entered when the diff of a file is shown. -/
def diffEntry (b : Ledger M) (plan : Plan) (f : Path) (text : String) : M :=
  if plan.dryRun then
    b.note (.message (.info (Diff.unified f.display text (plan.pattern.sweep text).modified)))
  else 0

theorem diffEntry_of_live (live : plan.dryRun = false) (text : String) :
    diffEntry b plan f text = 0 := by
  rw [diffEntry, if_neg (by simp [live])]

theorem replace_of_live (live : plan.dryRun = false) (text swept : String) :
    replace plan f text swept = (writeSource f swept plan.atomicWrite).bind fun result =>
      .done (result.mapError (.write f)) := by
  rw [replace, if_neg (by simp [live])]
  rfl

theorem replace_of_dry (dry : plan.dryRun = true) (text swept : String) :
    replace plan f text swept =
      .ask (.note (.message (.info (Diff.unified f.display text swept)))) fun _ =>
        .done (.ok ()) := by
  rw [replace, if_pos dry]
  rfl

end

/-! ## Other scripts -/

theorem tell_books (m : Message) : (tell m).Only fun r => r.isBook = true := .request rfl

theorem log_books (text event : String) (fields : List (String × String)) (unshown : List String) :
    (log text event fields unshown).Only fun r => r.isBook = true := .request rfl

theorem fail_books (failure : Failure) : (fail failure).Only fun r => r.isBook = true :=
  ⟨rfl, fun _ => (log_books _ _ _ _).bind fun _ => tell_books _⟩

theorem failAll_books (reports : List String) :
    (failAll reports).Only fun r => r.isBook = true := by
  induction reports with
  | nil => trivial
  | cons report reports ih => exact (fail_books _).bind fun _ => ih

theorem finishDirectory_books (p : Path) (reports : List String) :
    (finishDirectory p reports).Only fun r => r.isBook = true :=
  (failAll_books reports).bind fun _ => log_books _ _ _ _

theorem tellSummary_books (plan : Plan) (p : Path) :
    (tellSummary plan p).Only fun r => r.isBook = true := ⟨rfl, fun _ => tell_books _⟩

theorem FileWork.not_isListing {r : Request} (work : FileWork r) : r.isListing = false := by
  cases r with
  | list _ | next _ _ => cases work
  | _ => rfl

theorem not_isListing_of_book {r : Request} (book : r.isBook = true) : r.isListing = false := by
  cases r with
  | list _ | next _ _ => cases book
  | _ => rfl

theorem replace_unlisted (plan : Plan) (p : Path) (text swept : String) :
    (replace plan p text swept).Only fun r => r.isListing = false := by
  cases dry : plan.dryRun with
  | true =>
    rw [replace_of_dry dry]
    exact ⟨rfl, fun _ => trivial⟩
  | false =>
    rw [replace_of_live dry]
    exact ((writeSource_work _ _).mono fun _ => FileWork.not_isListing).bind fun _ => trivial

/-- The task of a file reads no listing. -/
theorem processFile_unlisted (plan : Plan) (p : Path) :
    (processFile plan p).Only fun r => r.isListing = false := by
  have swept : (sweepFile plan p).Only fun r => r.isListing = false := by
    refine ⟨rfl, fun _ => ?_⟩
    refine ((readSource_work _).mono fun _ => FileWork.not_isListing).bind fun result => ?_
    cases result with
    | error e => trivial
    | ok text =>
      show Script.Only _ (if (plan.pattern.sweep text).isUnchanged then _ else _)
      split
      · trivial
      · refine (replace_unlisted _ _ _ _).bind fun result => ?_
        cases result with
        | error e => trivial
        | ok u => exact ⟨rfl, fun _ => ⟨rfl, fun _ => trivial⟩⟩
  refine swept.bind fun result => ?_
  cases result with
  | ok n => trivial
  | error f => exact ((fail_books f).mono fun _ => not_isListing_of_book).bind fun _ => trivial

/-! ## Walks -/

section

variable {plan : Plan} {P : Request → Prop} (look : ∀ r, r.isLook = true → P r)
  (fails : ∀ failure, (fail failure).Only P)
  (logs : ∀ text event fields, (log text event fields).Only P)
  (files : ∀ p, (processFile plan p).Only P)

include look fails logs files

/-- The entries of a listing, given what holds of the walks of the directories among them. -/
theorem entries_only {p : Path} (sub : ∀ name, (directory plan (p.child name)).Only P)
    (l : Listing p) : (entries plan p l).Only P := by
  have failAll_only (reports : List String) : (failAll reports).Only P := by
    induction reports with
    | nil => trivial
    | cons report reports ih => exact (fails (.crashed report)).bind fun _ => ih
  have finish : (Job.join fun reports => (finishDirectory p reports).job).Only P :=
    .join fun reports => .job ((failAll_only reports).bind fun _ => logs _ _ _)
  induction size : l.entries.length using Nat.strongRecOn generalizing l with
  | ind n ih =>
  subst size
  rw [entries]
  refine .ask (look _ rfl) fun answer => ?_
  rcases answer with e | _ | ⟨⟨name, e | kind⟩, rest⟩
  · exact .andThen (fails _) fun _ => finish
  · exact finish
  · exact .andThen (fails _) fun _ => ih _ rest.2 rest.1 rfl
  · have behind := ih _ rest.2 rest.1 rfl
    cases kind with
    | directory =>
      dsimp only
      split
      · exact .andThen (logs _ _ _) fun _ => behind
      · exact .spawn (sub name) behind
    | file =>
      dsimp only
      split
      · exact .spawn (.andThen (files _) fun _ => .done) behind
      · exact behind
    | other => exact behind

/-- By induction on how much longer a path may become. -/
theorem directory_only (p : Path) : (directory plan p).Only P := by
  induction room : maxPath + 1 - p.length using Nat.strongRecOn generalizing p with
  | ind n ih =>
    rw [directory]
    refine .ask (look _ rfl) fun answer => ?_
    cases answer with
    | error e => exact .job (fails _)
    | ok l =>
      exact entries_only look fails logs files
        (fun name => ih _ (room ▸ room_child_lt l name) _ rfl) l

/-- **Requests**: what holds of those of its scripts holds of all that a walk asks for. -/
theorem walk_only (cwd p : Path) (sums : ∀ q, (tellSummary plan q).Only P)
    (file : ∀ q, (file plan q).Only P)
    (other : ∀ rest, (tell (.info ("Skipped path that is neither a file nor a directory: " ++
      rest))).Only P) : (walk plan cwd p).Only P := by
  refine .ask (look _ rfl) fun answer => ?_
  cases answer with
  | error e => exact .job (fails _)
  | ok stat =>
    dsimp only
    split
    · exact .followedBy (directory_only look fails logs files _) (.job (sums _))
    · exact .job (file _)
    · exact .job (other _)

end

end Walk

end CallSweep
