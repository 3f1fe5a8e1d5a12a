/-
  What the files of a run enter in its books, told from the disk.

  1. **Finds** (`Walk.finds`) — the files that can be read and have calls in them, each once.

  2. **Books** (`Walk.books`) — the counts of a run, the diffs that it shows, the rewrites that it
     logs and the failed writes that it tells of, in no order.

  3. **File by file** (`Walk.exists_foretold`) — a file enters the same whether the run is dry or not,
     unless it is a find.  Then the dry run enters its diff and counts it as changed; the other run
     counts it as changed as well if it was written, and else counts a failure.
-/
import CallSweep.Proofs.Call.Seams
import CallSweep.Proofs.Diff.Preview
import CallSweep.Proofs.Walk.Balance
import CallSweep.Proofs.Walk.Visits

namespace CallSweep

namespace Walk

/-! ## Finds -/

/-- A file that can be read: what it is called, where it is, and its text. -/
structure Find where
  path : Path
  place : Place
  text : String

/-- What is read of a file behind a veil, if it can be found and read. -/
def read? (ρ : Veil) (plan : Plan) (d : Disk) (cwd : Place) (f : Path) : Option Find :=
  match d.find cwd f with
  | .ok (x, .file n) => (ρ.text? plan.maxFileSize f (d.inode n).bytes).map fun text => ⟨f, x, text⟩
  | _ => none

namespace Find

/-- There are calls in the file. -/
def changed (plan : Plan) (s : Find) : Bool := !(plan.pattern.sweep s.text).isUnchanged

def diff (plan : Plan) (s : Find) : String :=
  Diff.unified s.path.display s.text (plan.pattern.sweep s.text).modified

/-- How many calls there are. -/
def count (plan : Plan) (s : Find) : Nat := (plan.pattern.sweep s.text).count

end Find

/-- The find that a visit is, if it is one. -/
def find? (ρ : Veil) (plan : Plan) (d : Disk) (cwd : Place) : Visit → Option Find
  | .file f => (read? ρ plan d cwd f).filter (Find.changed plan)
  | .trouble => none

/-- The finds of a run. -/
def finds (ρ : Veil) (plan : Plan) (d : Disk) (cwd : Place) (q : Path) : List Find :=
  (rootVisits ρ plan d cwd q).filterMap (find? ρ plan d cwd)

section

variable {ρ : Veil} {plan : Plan} {d : Disk} {cwd x : Place} {q f : Path} {n : Nat} {s : Find}

theorem read?_eq (found : d.find cwd f = .ok (x, .file n)) : read? ρ plan d cwd f =
    (ρ.text? plan.maxFileSize f (d.inode n).bytes).map fun text => ⟨f, x, text⟩ := by
  rw [read?, found]

theorem read?_eq_none (lost : ∀ y n, d.find cwd f ≠ .ok (y, .file n)) :
    read? ρ plan d cwd f = none := by
  unfold read?
  split
  · rename_i found
    exact absurd found (lost _ _)
  · rfl

theorem path_of_read? (read : read? ρ plan d cwd f = some s) : s.path = f := by
  unfold read? at read
  split at read
  · obtain ⟨text, -, rfl⟩ := Option.map_eq_some_iff.1 read
    rfl
  · cases read

theorem find?_eq_some_iff : find? ρ plan d cwd (.file f) = some s ↔
    read? ρ plan d cwd f = some s ∧ (plan.pattern.sweep s.text).isUnchanged = false := by
  rw [find?, Option.filter_eq_some_iff, Find.changed, Bool.not_eq_true']

theorem text?_eq_some_iff {limit : Nat} {bytes : ByteArray} {text : String} :
    ρ.text? limit f bytes = some text ↔
      (ρ.stat f = none ∧ ρ.read f = none) ∧ admitted limit bytes = .ok text := by
  rw [Veil.text?]
  cases ρ.stat f with
  | some e => simp
  | none =>
    cases ρ.read f with
    | some e => simp
    | none => cases admitted limit bytes <;> simp [Except.toOption]

theorem foundText?_eq_some_iff {text : String} :
    foundText? plan d x = some text ↔
      ∃ bytes permissions, d.view x = some (.file bytes permissions) ∧
        admitted plan.maxFileSize bytes = .ok text ∧
          (plan.pattern.sweep text).isUnchanged = false := by
  constructor
  · intro found
    unfold foundText? at found
    split at found
    · rename_i bytes permissions shown
      split at found
      · rename_i text' read
        split at found
        · cases found
        · rename_i changed
          cases found
          exact ⟨bytes, permissions, shown, read, Bool.eq_false_iff.2 changed⟩
      · cases found
    · cases found
  · rintro ⟨bytes, permissions, shown, read, changed⟩
    exact foundText?_eq_some shown read changed

/-- A file is a find if it has calls in it, and nothing hides it. -/
theorem find?_eq_some_iff_of_found (found : d.find cwd f = .ok (x, .file n)) :
    find? ρ plan d cwd (.file f) = some s ↔ (ρ.stat f = none ∧ ρ.read f = none) ∧
      s.path = f ∧ s.place = x ∧ foundText? plan d x = some s.text := by
  have shown := Disk.view_of_entry (Disk.find_eq_ok_iff.1 found).2.2
  rw [find?_eq_some_iff, read?_eq found, Option.map_eq_some_iff]
  constructor
  · rintro ⟨⟨text, read, rfl⟩, changed⟩
    obtain ⟨bare, admits⟩ := text?_eq_some_iff.1 read
    exact ⟨bare, rfl, rfl, foundText?_eq_some shown admits changed⟩
  · rintro ⟨bare, rfl, rfl, text⟩
    obtain ⟨bytes, permissions, shown', admits, changed⟩ := foundText?_eq_some_iff.1 text
    cases shown.symm.trans shown'
    exact ⟨⟨_, text?_eq_some_iff.2 ⟨bare, admits⟩, rfl⟩, changed⟩

/-- Where a file is that is reached and is a find. -/
theorem of_find? {plan' : Plan} (r : Reaches plan' d cwd q f x)
    (found : find? ρ plan d cwd (.file f) = some s) :
    ∃ n, d.find cwd f = .ok (x, .file n) ∧ s.path = f ∧ s.place = x ∧
      foundText? plan d x = some s.text := by
  rcases r.found_or_lost with ⟨n, found_f⟩ | lost
  · exact ⟨n, found_f, ((find?_eq_some_iff_of_found found_f).1 found).2⟩
  · obtain ⟨read, -⟩ := find?_eq_some_iff.1 found
    rw [read?_eq_none fun y n => lost d y _] at read
    cases read

/-- Where a run ends, its finds are among the files that it handed over. -/
theorem perm_finds {ss : List Handed} {fs : List Failure}
    (visited : (seen ss fs).Perm (rootVisits ρ plan d cwd q)) :
    (ss.filterMap fun s => find? ρ plan d cwd (.file s.path)).Perm (finds ρ plan d cwd q) := by
  have met := visited.filterMap (find? ρ plan d cwd)
  rw [seen, List.filterMap_append, List.filterMap_map, List.filterMap_map] at met
  have none_ : fs.filterMap (find? ρ plan d cwd ∘ fun _ => .trouble) = [] :=
    List.filterMap_eq_nil_iff.2 fun _ _ => rfl
  rwa [none_, List.append_nil] at met

end

/-- No file is found twice. -/
theorem nodup_finds (ρ : Veil) (plan : Plan) (d : Disk) (cwd : Place) (q : Path) :
    ((finds ρ plan d cwd q).map Find.path).Nodup := by
  have sub (vs : List Visit) :
      ((vs.filterMap (find? ρ plan d cwd)).map Find.path).Sublist (files vs) := by
    induction vs with
    | nil => exact .slnil
    | cons v vs ih =>
      cases v with
      | trouble => exact ih
      | file f =>
        cases found : find? ρ plan d cwd (.file f) with
        | none =>
          rw [List.filterMap_cons_none found]
          exact ih.cons f
        | some u =>
          rw [List.filterMap_cons_some found, List.map_cons,
            path_of_read? (find?_eq_some_iff.1 found).1]
          exact ih.cons_cons f
  exact (nodup_files_rootVisits ρ plan d cwd q).sublist (sub _)

/-! ## Books -/

/-- The diffs among some notes. -/
def diffs (notes : List Note) : List String := (Note.infos notes).filter tellsDiff

/-- The rewrites among some notes. -/
def rewrites (notes : List Note) : List LogEvent := (Note.events notes).filter tellsRewrite

/-- The failed writes among some notes. -/
def writeFailures (notes : List Note) : List String := (Note.errors notes).filter tellsUnwritten

/-- Counts, diffs, rewrites and failed writes. -/
abbrev Books := Tally × Multiset String × Multiset LogEvent × Multiset String

/-- What is entered of some notes. -/
def noted (notes : List Note) : Books := (0, diffs notes, rewrites notes, writeFailures notes)

def books : Ledger Books where
  count t := (t, 0)
  note n := noted [n]

/-- The books of a run. -/
def booked (w : World) : Books :=
  (w.tally, diffs w.notes, rewrites w.notes, writeFailures w.notes)

theorem booked_eq (w : World) : booked w = (w.tally, 0) + noted w.notes := by
  simp [booked, noted]

theorem noted_append (notes notes' : List Note) :
    noted (notes ++ notes') = noted notes + noted notes' := by
  simp [noted, diffs, rewrites, writeFailures, Note.infos, Note.events, Note.errors,
    ← Multiset.coe_add]

theorem modest_books : books.Modest where
  info text other := by
    simp [books, noted, diffs, rewrites, writeFailures, Note.infos, Note.events, Note.errors, other]
  error text other := by
    simp [books, noted, diffs, rewrites, writeFailures, Note.infos, Note.events, Note.errors, other]
  event e other := by
    simp [books, noted, diffs, rewrites, writeFailures, Note.infos, Note.events, Note.errors, other]

theorem cost_books (act : Act) :
    act.cost books = ((act.cost sums).1, 0) + noted act.told?.toList := by
  induction act with
  | asked r answer =>
    cases r with
    | note n => exact (zero_add (noted [n])).symm
    | _ => rfl
  | inside i act ih => exact ih
  | _ => rfl

theorem spent_books (T : List Act) : spent books T = ((spent sums T).1, 0) + noted (told T) := by
  induction T with
  | nil => exact (add_zero _).symm
  | cons act T ih =>
    rw [spent_cons, cost_books, ih, told_cons, noted_append, spent_cons, add_add_add_comm]
    rfl

/-- What is entered during a run that is refused nothing is in its books in the end. -/
theorem booked_eq_spent {S : System} (honest : S.Honest) (taken : ∀ m, S.host.refuses m = none)
    {d : Disk} {w : World} {T : List Act} (mets : World.Mets S (.start d) T w) :
    booked w = spent books T := by
  rw [booked_eq, spent_books, tally_eq_of_mets honest mets, mets.notes_eq honest taken]
  exact congrArg (fun t => (t, 0) + noted (told T)) (zero_add (spent sums T).1)

/-! ### Notes that are entered -/

theorem begins_append (mark rest : String) : begins mark (mark ++ rest) = true := by
  rw [begins, List.isPrefixOf_iff_prefix, String.toList_append]
  exact List.prefix_append _ _

/-- A diff of texts that differ begins like one. -/
theorem tellsDiff_unified {label before after : String} (differ : before ≠ after) :
    tellsDiff (Diff.unified label before after) = true := by
  have shown := mt (Diff.unified_eq_empty_iff label before after).1 differ
  unfold Diff.unified at shown ⊢
  dsimp only at shown ⊢
  split
  · rename_i nothing
    rw [nothing] at shown
    exact absurd rfl shown
  · rw [Diff.fileHeader]
    simp only [String.append_assoc]
    exact begins_append _ _

theorem tellsUnwritten_write (p : Path) (e : SourceError) :
    tellsUnwritten (Failure.write p e).message = true := by
  show begins _ ("Failed to write file " ++ p.display ++ ": " ++ e.message) = true
  rw [String.append_assoc, String.append_assoc]
  exact begins_append _ _

theorem noted_diff {text : String} (diff : tellsDiff text = true) :
    noted [.message (.info text)] = (0, {text}, 0, 0) := by
  simp [noted, diffs, rewrites, writeFailures, Note.infos, Note.events, Note.errors, diff]

theorem noted_rewrite {e : LogEvent} (rewrite : tellsRewrite e = true) :
    noted [.event e] = (0, 0, {e}, 0) := by
  simp [noted, diffs, rewrites, writeFailures, Note.infos, Note.events, Note.errors, rewrite]

theorem noted_failure {text : String} (failure : tellsUnwritten text = true) :
    noted [.message (.error text)] = (0, 0, 0, {text}) := by
  simp [noted, diffs, rewrites, writeFailures, Note.infos, Note.events, Note.errors, failure]

/-! ## File by file -/

/-- What a find enters in a dry run. -/
def Find.foreseen (plan : Plan) (s : Find) : Books :=
  (⟨1, 1, s.count plan, 0⟩, {s.diff plan},
    {rewriteEvent { plan with dryRun := true } s.path (s.count plan)}, 0)

/-- What a visit enters in a dry run. -/
def visitBooks (ρ : Veil) (plan : Plan) (d : Disk) (cwd : Place) : Visit → Books
  | .trouble => (⟨0, 0, 0, 1⟩, 0)
  | .file f =>
    match read? ρ plan d cwd f with
    | none => (⟨1, 0, 0, 1⟩, 0)
    | some s => if s.changed plan then s.foreseen plan else (⟨1, 0, 0, 0⟩, 0)

section

variable {plan : Plan} {p : Path} {text : String} {e : SourceError}

/-- A file that is not read, whether the run is dry or not. -/
theorem fateEntry_unread :
    fateEntry books plan p (.error e) (some (.error (.read p e))) = (⟨1, 0, 0, 1⟩, 0) := by
  show (⟨1, 0, 0, 0⟩, 0) + (0 + 0) + failureEntry books (.read p e) = _
  rw [failureEntry_of_other modest_books rfl]
  rfl

/-- A file without calls in it. -/
theorem fateEntry_unchanged (same : (plan.pattern.sweep text).isUnchanged = true) :
    fateEntry books plan p (.ok text) (some (.ok 0)) = (⟨1, 0, 0, 0⟩, 0) := by
  rw [fateEntry, changeEntry, if_pos same]
  rfl

/-- A file that was rewritten, or would have been. -/
theorem fateEntry_changed (differs : (plan.pattern.sweep text).isUnchanged = false) :
    fateEntry books plan p (.ok text) (some (.ok (plan.pattern.sweep text).count)) =
      (⟨1, 0, 0, 0⟩, 0) + (diffEntry books plan p text +
        (⟨0, 1, (plan.pattern.sweep text).count, 0⟩, 0, {rewriteEvent plan p
          (plan.pattern.sweep text).count}, 0)) := by
  rw [fateEntry, changeEntry, if_neg (by simp [differs]), doneEntry, if_neg (count_pos differs).ne']
  show (⟨1, 0, 0, 0⟩, 0) + (_ + ((_, 0) + noted [.event (rewriteEvent plan p _)])) + 0 = _
  rw [noted_rewrite rfl, add_zero]
  simp

/-- A file that could not be written. -/
theorem fateEntry_unwritten (live : plan.dryRun = false) :
    fateEntry books plan p (.ok text) (some (.error (.write p e))) =
      (⟨1, 0, 0, 1⟩, 0, 0, {(Failure.write p e).message}) := by
  have no_diff : changeEntry books plan p (.ok text) = 0 := by
    rw [changeEntry, diffEntry_of_live live, ite_self]
  have told : failureEntry books (.write p e) =
      (⟨0, 0, 0, 1⟩, 0) + noted [.message (.error (Failure.write p e).message)] := rfl
  show (⟨1, 0, 0, 0⟩, 0) + (changeEntry books plan p (.ok text) + 0) + failureEntry books _ = _
  rw [no_diff, told, noted_failure (tellsUnwritten_write p e)]
  simp

end

section

variable {ρ : Veil} {plan : Plan} {d : Disk} {cwd : Place} {f : Path} {u : Find} {s : Handed}

/-- What the task of a file has read is what can be told from the disk. -/
def Handed.ReadAs (ρ : Veil) (plan : Plan) (d : Disk) (cwd : Place) (s : Handed) : Prop :=
  ∃ result, s.reading plan = some result ∧
    result.toOption = (read? ρ plan d cwd s.path).map Find.text

theorem read?_of_error {e : SourceError}
    (same : (Except.error e : Except SourceError String).toOption =
      (read? ρ plan d cwd f).map Find.text) : read? ρ plan d cwd f = none :=
  Option.map_eq_none_iff.1 same.symm

theorem read?_of_ok {text : String}
    (same : (Except.ok text : Except SourceError String).toOption =
      (read? ρ plan d cwd f).map Find.text) : ∃ x, read? ρ plan d cwd f = some ⟨f, x, text⟩ := by
  obtain ⟨⟨f', x, text'⟩, read, rfl⟩ := Option.map_eq_some_iff.1 same.symm
  obtain rfl := path_of_read? read
  exact ⟨x, read⟩

/-- What a handed file enters in a dry run. -/
theorem entry_of_dry (read : s.ReadAs ρ plan d cwd) (settled : s.Settled { plan with dryRun := true })
    (uncut : s.fate { plan with dryRun := true } ≠ none) :
    s.entry books { plan with dryRun := true } = visitBooks ρ plan d cwd (.file s.path) := by
  obtain ⟨result, reading, same⟩ := read
  obtain ⟨-, result', reading', fits⟩ := settled
  cases reading.symm.trans reading'
  rw [Handed.entry, reading', visitBooks]
  dsimp only
  generalize s.fate { plan with dryRun := true } = x at fits uncut
  cases fits with
  | unread e => rw [fateEntry_unread, read?_of_error same]
  | @unchanged text unchanged =>
    obtain ⟨x, read⟩ := read?_of_ok same
    have none_ : Find.changed plan ⟨s.path, x, text⟩ = false :=
      congrArg Bool.not (show (plan.pattern.sweep text).isUnchanged = true from unchanged)
    rw [fateEntry_unchanged unchanged, read]
    exact (if_neg (by simp [none_])).symm
  | unwritten _ live _ => cases live
  | @changed text differs =>
    obtain ⟨x, read⟩ := read?_of_ok same
    have some_ : Find.changed plan ⟨s.path, x, text⟩ = true :=
      congrArg Bool.not (show (plan.pattern.sweep text).isUnchanged = false from differs)
    have differ : text ≠ (plan.pattern.sweep text).modified := fun same =>
      absurd ((plan.pattern.modified_eq_self_iff text).1 same.symm) (Bool.eq_false_iff.1 differs)
    have diff : diffEntry books { plan with dryRun := true } s.path text =
        (0, {Find.diff plan ⟨s.path, x, text⟩}, 0, 0) := noted_diff (tellsDiff_unified differ)
    rw [fateEntry_changed differs, diff, read]
    refine Eq.trans ?_ (if_pos some_).symm
    simp [Find.foreseen, Find.count]
  | cut _ _ => exact absurd rfl uncut

/-- What a handed file enters in a run that is not dry: what it enters in the dry one, unless it is a
    find. -/
inductive Comes (ρ : Veil) (plan : Plan) (d : Disk) (cwd : Place) (s : Handed) : Books → Prop
  | idle {t : Tally} (none_ : find? ρ plan d cwd (.file s.path) = none)
      (same : visitBooks ρ plan d cwd (.file s.path) = (t, 0)) : Comes ρ plan d cwd s (t, 0)
  | written {u : Find} (found : find? ρ plan d cwd (.file s.path) = some u)
      (fate : s.fate { plan with dryRun := false } = some (.ok (u.count plan))) :
      Comes ρ plan d cwd s (⟨1, 1, u.count plan, 0⟩, 0,
        {rewriteEvent { plan with dryRun := false } u.path (u.count plan)}, 0)
  | unwritten {u : Find} {e : SourceError} (found : find? ρ plan d cwd (.file s.path) = some u)
      (fate : s.fate { plan with dryRun := false } = some (.error (.write u.path e))) :
      Comes ρ plan d cwd s (⟨1, 0, 0, 1⟩, 0, 0, {(Failure.write u.path e).message})

theorem comes_of_settled (read : s.ReadAs ρ plan d cwd)
    (settled : s.Settled { plan with dryRun := false }) :
    Comes ρ plan d cwd s (s.entry books { plan with dryRun := false }) := by
  obtain ⟨result, reading, same⟩ := read
  obtain ⟨-, result', reading', fits⟩ := settled
  cases reading.symm.trans reading'
  rw [Handed.entry, reading']
  dsimp only
  generalize fate : s.fate { plan with dryRun := false } = x at fits
  cases fits with
  | unread e =>
    have none_ := read?_of_error same
    rw [fateEntry_unread]
    exact .idle (by rw [find?, none_]; rfl) (by rw [visitBooks, none_])
  | @unchanged text unchanged =>
    obtain ⟨x, read⟩ := read?_of_ok same
    have none_ : Find.changed plan ⟨s.path, x, text⟩ = false :=
      congrArg Bool.not (show (plan.pattern.sweep text).isUnchanged = true from unchanged)
    rw [fateEntry_unchanged unchanged]
    refine .idle ?_ ?_
    · rw [find?, read, Option.filter_some, if_neg (by simp [none_])]
    · rw [visitBooks, read]
      exact if_neg (by simp [none_])
  | @unwritten text differs live e =>
    obtain ⟨x, read⟩ := read?_of_ok same
    rw [fateEntry_unwritten live]
    exact .unwritten (u := ⟨s.path, x, text⟩) (find?_eq_some_iff.2 ⟨read, differs⟩) fate
  | @changed text differs =>
    obtain ⟨x, read⟩ := read?_of_ok same
    have written : Comes ρ plan d cwd s _ :=
      .written (u := ⟨s.path, x, text⟩) (find?_eq_some_iff.2 ⟨read, differs⟩) fate
    rw [fateEntry_changed differs, diffEntry_of_live rfl, zero_add]
    simpa [Find.count] using written
  | cut _ dry => cases dry

/-! ### All files -/

/-- What the books of a dry run say of those of the run itself. -/
structure Foretold (plan : Plan) (written : List Find) (unwritten : List (Find × SourceError))
    (dry real : Books) : Prop where
  scanned : dry.1.scanned = real.1.scanned
  changed : dry.1.changed = real.1.changed + unwritten.length
  removals : dry.1.removals =
    real.1.removals + (unwritten.map fun u => u.1.count plan).sum
  failures : dry.1.failures + unwritten.length = real.1.failures
  shown : dry.2.1 = (written.map (Find.diff plan) : Multiset String) +
    (unwritten.map fun u => u.1.diff plan : Multiset String)
  rewritten : real.2.2.1 = (written.map fun s =>
    rewriteEvent { plan with dryRun := false } s.path (s.count plan) : Multiset LogEvent)
  failed : real.2.2.2 =
    (unwritten.map fun u => (Failure.write u.1.path u.2).message : Multiset String)

namespace Foretold

variable {written : List Find} {unwritten : List (Find × SourceError)} {dry real : Books}

theorem nil : Foretold plan [] [] 0 0 := by
  constructor <;> rfl

/-- Both runs count the same. -/
theorem same (f : Foretold plan written unwritten dry real) (t : Tally) :
    Foretold plan written unwritten ((t, 0) + dry) ((t, 0) + real) where
  scanned := congrArg (t.scanned + ·) f.scanned
  changed := by
    have changed := f.changed
    show t.changed + _ = t.changed + _ + _
    omega
  removals := by
    have removals := f.removals
    show t.removals + _ = t.removals + _ + _
    omega
  failures := by
    have failures := f.failures
    show t.failures + _ + _ = t.failures + _
    omega
  shown := (zero_add _).trans f.shown
  rewritten := (zero_add _).trans f.rewritten
  failed := (zero_add _).trans f.failed

/-- A find that can be written. -/
theorem write (f : Foretold plan written unwritten dry real) (s : Find) (e : LogEvent) :
    Foretold plan (s :: written) unwritten
      ((⟨1, 1, s.count plan, 0⟩, {s.diff plan}, {e}, 0) + dry)
      ((⟨1, 1, s.count plan, 0⟩, 0,
        {rewriteEvent { plan with dryRun := false } s.path (s.count plan)}, 0) + real) where
  scanned := congrArg (1 + ·) f.scanned
  changed := by
    have changed := f.changed
    show 1 + _ = 1 + _ + _
    omega
  removals := by
    have removals := f.removals
    show s.count plan + _ = s.count plan + _ + _
    omega
  failures := by
    have failures := f.failures
    show 0 + _ + _ = 0 + _
    omega
  shown := by
    show {s.diff plan} + dry.2.1 = _
    rw [f.shown, ← add_assoc, Multiset.singleton_add, Multiset.cons_coe]
    rfl
  rewritten := by
    show {_} + real.2.2.1 = _
    rw [f.rewritten, Multiset.singleton_add, Multiset.cons_coe]
    rfl
  failed := (zero_add _).trans f.failed

/-- A find that cannot be written. -/
theorem fail (f : Foretold plan written unwritten dry real) (s : Find) (e : SourceError)
    (event : LogEvent) :
    Foretold plan written ((s, e) :: unwritten)
      ((⟨1, 1, s.count plan, 0⟩, {s.diff plan}, {event}, 0) + dry)
      ((⟨1, 0, 0, 1⟩, 0, 0, {(Failure.write s.path e).message}) + real) where
  scanned := congrArg (1 + ·) f.scanned
  changed := by
    have changed := f.changed
    show 1 + _ = 0 + _ + (unwritten.length + 1)
    omega
  removals := by
    have removals := f.removals
    rw [List.map_cons, List.sum_cons]
    show s.count plan + _ = 0 + _ + (s.count plan + _)
    omega
  failures := by
    have failures := f.failures
    show 0 + _ + (unwritten.length + 1) = 1 + _
    omega
  shown := by
    show {s.diff plan} + dry.2.1 = _
    rw [f.shown, add_left_comm, Multiset.singleton_add, Multiset.cons_coe]
    rfl
  rewritten := (zero_add _).trans f.rewritten
  failed := by
    show {_} + real.2.2.2 = _
    rw [f.failed, Multiset.singleton_add, Multiset.cons_coe]
    rfl

end Foretold

/-- Whatever was handed over, what the files enter in a dry run foretells what they enter in the run
    itself. -/
theorem exists_foretold {ss : List Handed}
    (each : ∀ s ∈ ss, Comes ρ plan d cwd s (s.entry books { plan with dryRun := false })) :
    ∃ written unwritten, (written ++ unwritten.map Prod.fst).Perm
        (ss.filterMap fun s => find? ρ plan d cwd (.file s.path)) ∧
      Foretold plan written unwritten
        (ss.map fun s => visitBooks ρ plan d cwd (.file s.path)).sum
        (ss.map (Handed.entry books { plan with dryRun := false })).sum ∧
      ∀ u ∈ written, ∃ s ∈ ss, find? ρ plan d cwd (.file s.path) = some u ∧
        s.fate { plan with dryRun := false } = some (.ok (u.count plan)) := by
  induction ss with
  | nil => exact ⟨[], [], .nil, .nil, List.forall_mem_nil _⟩
  | cons s ss ih =>
    obtain ⟨written, unwritten, perm, told, fates⟩ :=
      ih fun s' mem => each s' (List.mem_cons_of_mem s mem)
    have later : ∀ u ∈ written, ∃ s' ∈ s :: ss, find? ρ plan d cwd (.file s'.path) = some u ∧
        s'.fate { plan with dryRun := false } = some (.ok (u.count plan)) := fun u mem =>
      (fates u mem).imp fun _ => .imp_left (List.mem_cons_of_mem s)
    have comes := each s List.mem_cons_self
    rw [List.map_cons, List.map_cons, List.sum_cons, List.sum_cons]
    generalize s.entry books { plan with dryRun := false } = entry at comes
    have foreseen {u : Find} (found : find? ρ plan d cwd (.file s.path) = some u) :
        visitBooks ρ plan d cwd (.file s.path) = u.foreseen plan := by
      obtain ⟨read, changed⟩ := find?_eq_some_iff.1 found
      rw [visitBooks, read]
      exact if_pos (congrArg Bool.not changed)
    cases comes with
    | idle none_ same =>
      rw [List.filterMap_cons, none_, same]
      exact ⟨written, unwritten, perm, told.same _, later⟩
    | @written u found fate =>
      rw [List.filterMap_cons, found, foreseen found]
      refine ⟨u :: written, unwritten, .cons u perm, told.write u _, ?_⟩
      exact List.forall_mem_cons.2 ⟨⟨s, List.mem_cons_self, found, fate⟩, later⟩
    | @unwritten u e found fate =>
      rw [List.filterMap_cons, found, foreseen found]
      exact ⟨written, (u, e) :: unwritten, List.perm_middle.trans (.cons u perm), told.fail u e _,
        later⟩

end

end Walk

end CallSweep
