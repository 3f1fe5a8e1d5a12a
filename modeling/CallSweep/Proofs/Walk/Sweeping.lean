/-
  What a run leaves of a tree, when any request to the file system may fail.

  1. **Parts** (`Walk.partOf`, `Walk.parts_of_clear`) — the task of a file owns the file's place, and
     its copy's if the file is to be rewritten.

  2. **Files** (`Walk.Kept.left`, `Walk.outcome_of_did`) — whatever its siblings do, the task of a
     file leaves there what its fate says.

  3. **Others** (`Walk.Handles.view_eq`, `Walk.others_of_did`) — no other place is touched.

  4. **The run** (`walk_settles`) — both for a whole run.  What has calls in it is not always swept,
     and a failed write not always harmless (`not_settles_unfailing`).

  A listing is taken of the directory as it is when it is opened; of one that goes on while files
  are written, nothing is said here.
-/
import CallSweep.Proofs.Walk.Parts

namespace CallSweep

open Disk (AgreeOn Frame Rooted Names)
open Crew (Did)
open Script (Plays)

namespace Walk

/-! ## Parts -/

/-- The places that the task of a file owns, if the file can be found. -/
def partOf (plan : Plan) (d : Disk) (cwd : Place) (f : Path) (x : Place) : Set Place :=
  {y | (∃ n, d.find cwd f = .ok (x, .file n)) ∧ y ∈ part plan d x}

section

variable {S : System} {plan : Plan} {d₀ d' : Disk} {p q f : Path} {dir x y : Place} {name : Name}
  {n : Nat}

theorem partOf_eq {cwd : Place} (found : d₀.find cwd f = .ok (x, .file n)) :
    partOf plan d₀ cwd f x = part plan d₀ x := by
  ext y
  exact ⟨And.right, fun hy => ⟨⟨n, found⟩, hy⟩⟩

/-- Looking at a file changes nothing. -/
theorem readSource_still (f : Path) (limit : Nat) :
    (readSource f limit).Only fun r => r.isChange = false := by
  refine ⟨rfl, fun answer => ?_⟩
  cases answer with
  | error e => trivial
  | ok stat =>
    show Script.Only _ (if limit < stat.size then _ else _)
    split
    · trivial
    · refine ⟨rfl, fun answer => ?_⟩
      cases answer <;> trivial

/-- A dry run changes nothing. -/
theorem sweepFile_still (dry : plan.dryRun = true) (f : Path) :
    (sweepFile plan f).Only fun r => r.isChange = false := by
  refine ⟨rfl, fun _ => (readSource_still f _).bind fun result => ?_⟩
  cases result with
  | error e => trivial
  | ok text =>
    show Script.Only _ (if (plan.pattern.sweep text).isUnchanged then _ else _)
    split
    · trivial
    · rw [replace_of_dry dry]
      exact ⟨rfl, fun _ => ⟨rfl, fun _ => ⟨rfl, fun _ => trivial⟩⟩⟩

/-- A walk that is dry changes nothing. -/
theorem walk_still (dry : plan.dryRun = true) (cwd p : Path) :
    (walk plan cwd p).Only fun r => r.isChange = false := by
  have books {s : Script Unit} (only : s.Only fun r => r.isBook = true) :
      s.Only fun r => r.isChange = false := only.mono fun _ => Request.isChange_of_book
  have files (f : Path) : (processFile plan f).Only fun r => r.isChange = false := by
    refine (sweepFile_still dry f).bind fun result => ?_
    cases result with
    | ok n => trivial
    | error failure => exact (books (fail_books failure)).bind fun _ => trivial
  refine walk_only (fun r look => ?_) (fun _ => books (fail_books _))
    (fun _ _ _ => books (log_books _ _ _ _)) files cwd p (fun _ => books (tellSummary_books _ _))
    (fun q => ?_) (fun _ => books (tell_books _))
  · cases r with
    | write _ _ | chmod _ _ | rename _ _ | remove _ => cases look
    | _ => rfl
  · rw [file]
    split
    · refine (files q).bind fun removed => ?_
      cases removed with
      | some n => exact books (tell_books _)
      | none => trivial
    · exact books (tell_books _)

/-- What is reached and found, is found through directories only. -/
theorem Reaches.rooted {cwd : Place} (r : Reaches plan d₀ cwd q f x)
    (spelled : Path.absolute cwd.path p = q) (found : d₀.find cwd f = .ok (x, .file n)) :
    d₀.Rooted x := by
  have start : d₀.Rooted (Disk.origin cwd f) := by
    rw [Disk.origin, if_pos (r.isAbsolute spelled)]
    exact .nil
  exact start.of_leads ((Names.of_find_file found).leads false)

/-- A file that is reached stands at no copy's place, where the way is clear. -/
theorem Reaches.ne_copyPlace {cwd : Place} {x' : Place} (r : Reaches plan d₀ cwd q f x)
    (clear : Clear plan d₀ x') (rewrites : Rewrites plan d₀ x') : x ≠ copyPlace x' := by
  rintro rfl
  obtain ⟨n, file⟩ := r.exists_file
  rcases (clear rewrites).1 with same | same
  · cases file.symm.trans same
  · cases file.symm.trans same

variable (fair : S.Fair) (spelled : Path.absolute S.host.cwd.path p = q)
  (clear : ∀ f x, Sweeps plan d₀ S.host.cwd q f x → Clear plan d₀ x)

include fair spelled clear

/-- The tasks of a walk, when the way is clear for every file that is swept. -/
theorem parts_of_clear : Parts S (Frame {x | d₀.Alone x} d₀) plan d₀ q
    (partOf plan d₀ S.host.cwd) where
  fair := fair
  frame _ frame := frame
  start := .refl fun _ alone => alone
  beside := by
    rintro f x y r ⟨-, rfl | ⟨-, rfl⟩⟩
    · obtain ⟨dir, name, rfl⟩ := r.exists_concat
      exact ⟨dir, name, name, rfl, rfl⟩
    · obtain ⟨dir, name, rfl⟩ := r.exists_concat
      exact ⟨dir, name, name.copy, rfl, copyPlace_concat dir name⟩
  apart := by
    rintro f x f' x' r r' ne y ⟨found, hy⟩ ⟨found', hy'⟩
    have clear_x := clear f x (sweeps_iff.2 ⟨r, found⟩)
    have clear_x' := clear f' x' (sweeps_iff.2 ⟨r', found'⟩)
    rcases hy with rfl | ⟨rewrites, rfl⟩
    · rcases hy' with same | ⟨rewrites', same⟩
      · exact ne same
      · exact r.ne_copyPlace clear_x' rewrites' same
    · rcases hy' with same | ⟨-, same⟩
      · exact r'.ne_copyPlace clear_x rewrites same.symm
      · obtain ⟨dir, name, rfl⟩ := r.exists_concat
        obtain ⟨dir', name', rfl⟩ := r'.exists_concat
        rw [copyPlace_concat, copyPlace_concat] at same
        obtain ⟨rfl, last⟩ := List.append_inj' same rfl
        injection last with last
        exact ne (by rw [Name.copy_injective last])
  owns := by
    intro f x r
    cases dry : plan.dryRun with
    | true => exact ⟨_, .of_still fair.toHonest (sweepFile_still dry f)⟩
    | false =>
      rcases r.found_or_lost with ⟨n, found⟩ | lost
      · rw [partOf_eq found]
        obtain ⟨dir, name, rfl⟩ := r.exists_concat
        exact ⟨_, sweepFile_owns fair dry (.of_find_file found) (r.rooted spelled found)
          (clear f _ (sweeps_iff.2 ⟨r, n, found⟩))
          (Disk.view_of_entry (Disk.find_eq_ok_iff.1 found).2.2)⟩
      · exact ⟨_, sweepFile_owns_lost fair fun d' _ => lost d'⟩

/-! ## Files -/

/-- What the task of a file leaves that is not in a dry run. -/
theorem Kept.left (live : plan.dryRun = false) {s : Handed} {old : ByteArray} {permissions : Nat}
    (kept : Kept S (Frame {x | d₀.Alone x} d₀) plan d₀ (partOf plan d₀ S.host.cwd) d' s x)
    (r : Reaches plan d₀ S.host.cwd q s.path x) (found : d₀.find S.host.cwd s.path = .ok (x, .file n))
    (shown : d₀.view x = some (.file old permissions)) :
    ∃ result node, s.fate plan = some result ∧ Swept plan s.path s.acts old permissions result node ∧
      d'.view x = some node ∧ (Rewrites plan d₀ x →
        d'.view (copyPlace x) = d₀.view (copyPlace x) ∨ CopyStays S (copyPlace x) s.acts) := by
  obtain ⟨T, rest, y, acts, plays, still⟩ := kept.plays
  have among := kept.among
  rw [partOf_eq found] at among
  obtain ⟨dir, name, rfl⟩ := r.exists_concat
  have owns := sweepFile_owns fair live (.of_find_file found) (r.rooted spelled found)
    (clear _ _ (sweeps_iff.2 ⟨r, n, found⟩)) shown
  obtain ⟨result, T₁, d'', fate, sub, ⟨node, swept, shown', copy⟩, agree⟩ :=
    exists_result fair live plays acts still owns among
  refine ⟨result, node, fate, swept.mono sub, (agree _ (mem_part ..)).trans shown', fun rewrites => ?_⟩
  rw [copyPlace_concat, agree _ (.inr ⟨rewrites, (copyPlace_concat dir name).symm⟩)]
  exact (copy rewrites).imp_right (CopyStays.mono sub)

omit clear spelled in
/-- What the task of a file comes to that cannot be found. -/
theorem Kept.lost (live : plan.dryRun = false) {s : Handed}
    (kept : Kept S (Frame {x | d₀.Alone x} d₀) plan d₀ (partOf plan d₀ S.host.cwd) d' s x)
    (lost : ∀ d' : Disk, ∀ y e, d'.find S.host.cwd s.path ≠ .ok (y, e)) :
    ∃ e, s.fate plan = some (.error (.read s.path e)) ∧ Denied s.path s.acts := by
  obtain ⟨T, rest, y, acts, plays, still⟩ := kept.plays
  have owns : (sweepFile plan s.path).Owns S (Frame {x | d₀.Alone x} d₀)
      (partOf plan d₀ S.host.cwd s.path x)
      (fun T result d' => AgreeOn (partOf plan d₀ S.host.cwd s.path x) d₀ d' ∧
        (∃ e, result = .error (.read s.path e)) ∧ Denied s.path T) [] d₀ :=
    sweepFile_owns_lost fair fun d' _ => lost d'
  obtain ⟨result, T₁, d'', fate, sub, ⟨-, ⟨e, rfl⟩, denied⟩, -⟩ :=
    exists_result fair live plays acts still owns kept.among
  exact ⟨e, fate, Denied.mono sub denied⟩

variable {ss : List Handed} {fs : List Failure}
  (handles : Handles S (Frame {x | d₀.Alone x} d₀) plan d₀ (partOf plan d₀ S.host.cwd)
    (Reaches plan d₀ S.host.cwd q) Set.univ ss fs d')

include handles

omit fair spelled clear in
/-- A place that belongs to no part stays as it is. -/
theorem Handles.view_eq {y : Place} (none_ : ∀ s ∈ ss, ∀ x, Reaches plan d₀ S.host.cwd q s.path x →
      Kept S (Frame {x | d₀.Alone x} d₀) plan d₀ (partOf plan d₀ S.host.cwd) d' s x →
      ∀ n, d₀.find S.host.cwd s.path = .ok (x, .file n) → y ∉ part plan d₀ x) :
    d'.view y = d₀.view y := by
  refine handles.others y trivial fun s mem x r ⟨⟨n, found⟩, hy⟩ => ?_
  obtain ⟨x', r', kept⟩ := handles.each s mem
  rcases r'.found_or_lost with ⟨m, found'⟩ | lost
  · cases found.symm.trans found'
    exact none_ s mem x r kept n found hy
  · exact lost d₀ x _ found

end

/-! ## The run -/

/-- What a walk makes of a file of these bytes and permissions. -/
inductive Outcome (plan : Plan) (q : Path) (T : List Act) (f : Path) (old : ByteArray)
    (permissions : Nat) : Node → Prop
  /-- The file was handed to the sweep. -/
  | swept {s : Handed} {result : Except Failure Nat} {node : Node} (handed : s ∈ handedFrom plan q T)
      (path : s.path = f) (fate : s.fate plan = some result)
      (swept : Swept plan f s.acts old permissions result node) :
      Outcome plan q T f old permissions node
  /-- A directory on the way was not listed, not to its end, or not known for one. -/
  | barred {g : Failure} (trouble : g ∈ troublesFrom q T) (bars : Bars f g) :
      Outcome plan q T f old permissions (.file old permissions)

section

variable {S : System} {plan : Plan} {w w' : World} {p q f : Path} {x : Place} {crew : Crew}
  {T : List Act} (fair : S.Fair) (spelled : Path.absolute S.host.cwd.path p = q)
  (clear : ∀ f x, Sweeps plan w.disk S.host.cwd q f x → Clear plan w.disk x)
  (did : Did (.start (walk plan S.host.cwd.path p)) T crew) (ended : crew.Ended)
  (whole : ¬ Snapped T) (mets : World.Mets S w T w')

include fair spelled clear did ended whole mets

/-- The walk of a root of which nothing was broken off. -/
theorem handles_of_did : Handles S (Frame {x | w.disk.Alone x} w.disk) plan w.disk
    (partOf plan w.disk S.host.cwd) (Reaches plan w.disk S.host.cwd q) Set.univ
    (handedFrom plan q T) (troublesFrom q T) w'.disk := by
  rw [walk, spelled] at did
  exact (parts_of_clear fair spelled clear).walk_handles did ended whole mets rfl

/-- A file that is reached and handed over by no path by which it can be found stays as it is. -/
theorem view_eq_of_unfound (r : Reaches plan w.disk S.host.cwd q f x)
    (none_ : ∀ s ∈ handedFrom plan q T,
      Kept S (Frame {x | w.disk.Alone x} w.disk) plan w.disk (partOf plan w.disk S.host.cwd) w'.disk
        s x → ∀ n, w.disk.find S.host.cwd s.path ≠ .ok (x, .file n)) :
    w'.disk.view x = w.disk.view x := by
  refine (handles_of_did fair spelled clear did ended whole mets).view_eq ?_
  rintro s mem x' r' kept n found (rfl | ⟨rewrites, rfl⟩)
  · exact none_ s mem kept n found
  · exact r.ne_copyPlace (clear _ _ (sweeps_iff.2 ⟨r', n, found⟩)) rewrites rfl

/-- A file that is too far away to be found stays as it is. -/
theorem view_eq_of_lost (r : Reaches plan w.disk S.host.cwd q f x)
    (lost : ∀ d' : Disk, ∀ y e, d'.find S.host.cwd f ≠ .ok (y, e)) :
    w'.disk.view x = w.disk.view x := by
  refine view_eq_of_unfound fair spelled clear did ended whole mets r fun s mem _ n found => ?_
  obtain ⟨x', r', kept⟩ := (handles_of_did fair spelled clear did ended whole mets).each s mem
  rcases r'.found_or_lost with ⟨m, found'⟩ | lost'
  · cases found.symm.trans found'
    exact lost _ _ _ (r'.path_eq r ▸ found)
  · exact lost' _ _ _ found

variable (live : plan.dryRun = false)

include live

/-- **Files**: what is left of each file that is reached. -/
theorem outcome_of_did (r : Reaches plan w.disk S.host.cwd q f x) : ∃ old permissions node,
    w.disk.view x = some (.file old permissions) ∧ w'.disk.view x = some node ∧
      Outcome plan q T f old permissions node := by
  have handles := handles_of_did fair spelled clear did ended whole mets
  obtain ⟨n, file⟩ := r.exists_file
  have shown := Disk.view_of_entry file
  rcases handles.all f x r with ⟨s, mem, rfl, kept⟩ | ⟨g, mem, bars⟩
  · rcases r.found_or_lost with ⟨m, found⟩ | lost
    · obtain ⟨result, node, fate, swept, shown', -⟩ :=
        kept.left fair spelled clear live r found shown
      exact ⟨_, _, node, shown, shown', .swept mem rfl fate swept⟩
    · obtain ⟨e, fate, denied⟩ := kept.lost fair live lost
      have same := view_eq_of_lost fair spelled clear did ended whole mets r lost
      exact ⟨_, _, _, shown, same.trans shown, .swept mem rfl fate (.unread (.inr denied))⟩
  · by_cases handed : ∃ s ∈ handedFrom plan q T, Kept S (Frame {x | w.disk.Alone x} w.disk) plan
        w.disk (partOf plan w.disk S.host.cwd) w'.disk s x ∧
        ∃ n, w.disk.find S.host.cwd s.path = .ok (x, .file n)
    · -- the file has been handed over all the same
      obtain ⟨s, mem_s, kept, m, found⟩ := handed
      obtain ⟨x', r', -⟩ := handles.each s mem_s
      obtain rfl : x' = x := by
        rcases r'.found_or_lost with ⟨k, found'⟩ | lost
        · cases found.symm.trans found'
          rfl
        · exact absurd found (lost _ _ _)
      obtain rfl := r'.path_eq r
      obtain ⟨result, node, fate, swept, shown', -⟩ :=
        kept.left fair spelled clear live r found shown
      exact ⟨_, _, node, shown, shown', .swept mem_s rfl fate swept⟩
    · refine ⟨_, _, _, shown, Eq.trans ?_ shown, .barred mem bars⟩
      exact view_eq_of_unfound fair spelled clear did ended whole mets r fun s mem kept n found =>
        handed ⟨s, mem, kept, n, found⟩

/-- **Others**: all else stays as it is, but for a copy that the system failed to take away. -/
theorem others_of_did {x : Place} (none_ : ∀ f, ¬ Reaches plan w.disk S.host.cwd q f x) :
    w'.disk.view x = w.disk.view x ∨ ∃ s ∈ handedFrom plan q T, ∃ y,
      Reaches plan w.disk S.host.cwd q s.path y ∧ x = copyPlace y ∧ CopyStays S x s.acts := by
  have handles := handles_of_did fair spelled clear did ended whole mets
  by_cases copy : ∃ s ∈ handedFrom plan q T, ∃ y n, Reaches plan w.disk S.host.cwd q s.path y ∧
      Kept S (Frame {x | w.disk.Alone x} w.disk) plan w.disk (partOf plan w.disk S.host.cwd)
        w'.disk s y ∧ w.disk.find S.host.cwd s.path = .ok (y, .file n) ∧
        Rewrites plan w.disk y ∧ x = copyPlace y
  · obtain ⟨s, mem, y, n, r, kept, found, rewrites, rfl⟩ := copy
    obtain ⟨m, file⟩ := r.exists_file
    obtain ⟨-, -, -, -, -, left⟩ :=
      kept.left fair spelled clear live r found (Disk.view_of_entry file)
    exact (left rewrites).imp_right fun stays => ⟨s, mem, y, r, rfl, stays⟩
  · refine .inl (handles.view_eq ?_)
    rintro s mem y r kept n found (rfl | ⟨rewrites, rfl⟩)
    · exact none_ _ r
    · exact copy ⟨s, mem, y, n, r, kept, found, rewrites, rfl⟩

end

/-- Where no name is a copy's and no file has a second name, the way is clear. -/
theorem clear_of_single {plan : Plan} {d : Disk} {cwd : Place} {q : Path}
    (single : ∀ x n, d.entry? x = some (.file n) → d.linkCount n = 1)
    (no_copy : ∀ (dir : Place) (name : Name), d.entry? (dir ++ [name.copy]) = none) (f : Path)
    (x : Place) (s : Sweeps plan d cwd q f x) : Clear plan d x := by
  obtain ⟨dir, name, rfl⟩ := (sweeps_iff.1 s).1.exists_concat
  rw [Clear, copyPlace_concat]
  exact fun _ => ⟨.inl (no_copy dir name), fun _ => (Disk.unshared_of_linkCount single).alone _⟩

end Walk

open Walk (Meets Reaches Sweeps Outcome handedFrom)

/-- **What a run leaves.**  Let no file have a second name, and no entry a copy's.  Then a run over a
    directory comes to an end, whatever the order of turns, and whichever of its requests to the file
    system fail.  Of each file that it can meet it leaves what the sweep of that file came to, which
    is also told: the swept text, if the file was read and written; the old one, if a look at the file
    or at a directory on the way failed, or if the copy could not be put in place; and if a write in
    place failed, the old text or a beginning of the swept one.  All else stays as it is, but for a
    copy that could not be taken away.

    Tasks may be broken off only where the walk of a directory is refused a message, be it about its
    listing or about a task that crashed. -/
theorem walk_settles (plan : Plan) (h : Host) (w : World) (p : Path) (dir : Place)
    (live : plan.dryRun = false)
    (single : ∀ x n, w.disk.entry? x = some (.file n) → w.disk.linkCount n = 1)
    (no_copy : ∀ (dir : Place) (name : Name), w.disk.entry? (dir ++ [name.copy]) = none)
    (root : w.disk.find h.cwd (Path.absolute h.cwd.path p) = .ok (dir, .dir)) :
    (walk plan h.cwd.path p).Ends h.faulty (fun T _ w' =>
      let q := Path.absolute h.cwd.path p
      Walk.DirectoryRefused T ∨
      (∀ f x, Meets plan w.disk q dir f x → ∃ old permissions node,
        w.disk.view x = some (.file old permissions) ∧ w'.disk.view x = some node ∧
          Outcome plan q T f old permissions node) ∧
      ∀ x, (∀ f, ¬ Meets plan w.disk q dir f x) → w'.disk.view x = w.disk.view x ∨
        ∃ s ∈ handedFrom plan q T, ∃ y, Meets plan w.disk q dir s.path y ∧ x = copyPlace y ∧
          CopyStays h.faulty x s.acts) w := by
  refine Job.ends_of_traces fun T crew w' did ended mets => ?_
  have reaches_iff (f : Path) (x : Place) :
      Reaches plan w.disk h.cwd (Path.absolute h.cwd.path p) f x ↔
        Meets plan w.disk (Path.absolute h.cwd.path p) dir f x := Walk.reaches_iff_of_dir root
  have clear (f : Path) (x : Place)
      (s : Sweeps plan w.disk h.cwd (Path.absolute h.cwd.path p) f x) :
      Walk.Clear plan w.disk x := Walk.clear_of_single single no_copy f x s
  by_cases whole : Walk.Snapped T
  · exact .inl whole.directoryRefused
  · refine .inr ⟨fun f x meets => ?_, fun x none_ => ?_⟩
    · exact Walk.outcome_of_did h.faulty_fair rfl clear did ended whole mets live
        ((reaches_iff f x).2 meets)
    · have others := Walk.others_of_did h.faulty_fair rfl clear did ended whole mets live
        fun f r => none_ f ((reaches_iff f x).1 r)
      refine others.imp_right fun ⟨s, mem, y, r, copy, stays⟩ => ?_
      exact ⟨s, mem, y, (reaches_iff _ y).1 r, copy, stays⟩

namespace OneFile

theorem entry?_eq_some {x : Place} {e : Entry} (entry : disk.entry? x = some e) :
    x = [] ∧ e = .dir ∨ x = [src] ∧ e = .dir ∨ x = [src, aJs] ∧ e = .file 0 := by
  by_cases root : x = []
  · subst root
    cases entry
    exact .inl ⟨rfl, rfl⟩
  · rw [Disk.entry?_eq_some_iff _ root] at entry
    simpa [disk] using Or.inr entry

theorem single (x : Place) (n : Nat) (file : disk.entry? x = some (.file n)) :
    disk.linkCount n = 1 := by
  rcases entry?_eq_some file with ⟨-, same⟩ | ⟨-, same⟩ | ⟨-, same⟩ <;> cases same
  decide

theorem no_copy (dir : Place) (name : Name) : disk.entry? (dir ++ [name.copy]) = none := by
  cases entry : disk.entry? (dir ++ [name.copy]) with
  | none => rfl
  | some e =>
    -- a copy's name begins with a dot, the names here with letters
    rcases entry?_eq_some entry with ⟨same, -⟩ | ⟨same, -⟩ | ⟨same, -⟩
    · exact absurd same (concat_ne_nil dir name.copy)
    · have last := congrArg List.getLast? same
      rw [List.getLast?_concat] at last
      cases last
    · have last := congrArg List.getLast? same
      rw [List.getLast?_concat] at last
      cases last

/-- Whatever fails in a run over the tree of one file, `/src/a.js` ends as `x` or stays as it is, and
    a copy of it is left only where it could not be taken away. -/
theorem walk_settles_one_file :
    (walk plan (Place.path []) (Path.ofString "src")).Ends (Host.quiet []).faulty (fun T _ w' =>
      Walk.DirectoryRefused T ∨
      (w'.disk.view [src, aJs] = some (.file "x".toUTF8 0o640) ∨
        w'.disk.view [src, aJs] = disk.view [src, aJs]) ∧
      (w'.disk.view [src, aJs.copy] = none ∨ ∃ s ∈ handedFrom plan (Place.path [src]) T,
        CopyStays (Host.quiet []).faulty [src, aJs.copy] s.acts)) (.start disk) := by
  have modified : (plan.pattern.sweep source).modified = "x" := by decide +kernel
  have read : admitted plan.maxFileSize source.toUTF8 = .ok source := by decide +kernel
  have root : disk.find [] (Path.absolute (Place.path []) (Path.ofString "src")) =
      .ok ([src], .dir) := absolute_src ▸ find_src
  have settles := walk_settles plan (.quiet []) (.start disk) (Path.ofString "src") [src] rfl single
    no_copy root
  refine settles.mono fun T _ w' result => result.imp_right fun ⟨files, others⟩ => ⟨?_, ?_⟩
  · have meets : Meets plan disk (Path.absolute (Place.path []) (Path.ofString "src")) [src] _
        ([src] ++ [aJs]) := .file rfl (by rw [absolute_src]; decide +kernel)
    obtain ⟨old, permissions, node, before, after, outcome⟩ := files _ _ meets
    cases before
    refine after ▸ ?_
    cases outcome with
    | barred _ _ => exact .inr rfl
    | swept _ _ _ swept =>
      cases swept with
      | unread _ | unchanged _ _ => exact .inr rfl
      | rewritten read' _ kept =>
        cases read.symm.trans read'
        rcases kept with rfl | ⟨inPlace, -⟩
        · exact .inl (by rw [modified]; rfl)
        · cases inPlace
      | unwritten _ _ left =>
        cases left with
        | same _ => exact .inr rfl
        | cut _ inPlace _ _ => cases inPlace
  · refine (others [src, aJs.copy] fun f meets => ?_).imp (fun same => same.trans rfl) ?_
    · obtain ⟨n, copy⟩ := meets.exists_file
      cases (no_copy [src] aJs).symm.trans copy
    · rintro ⟨s, mem, y, -, -, stays⟩
      exact ⟨s, absolute_src ▸ mem, stays⟩

/-! A write in place that is cut short. -/

def inPlace : Plan := { plan with atomicWrite := false }

def full : OsError := .other "No space left on device (os error 28)"

def unwritten : Failure := .write (Place.path [src, aJs]) (.system full)

/-- What the sweep of `/src/a.js` does when there is no room for a single byte. -/
def cutActs : List Act :=
  .asked (.count ⟨1, 0, 0, 0⟩) () :: (looks ++
    [.asked (.write (Place.path [src, aJs]) "x".toUTF8) (.error full)])

theorem plays_cutActs :
    (Walk.sweepFile inPlace (Place.path [src, aJs])).Plays cutActs (some (.error unwritten)) := by
  have differs : ¬ (inPlace.pattern.sweep source).isUnchanged = true := by decide +kernel
  have modified : (inPlace.pattern.sweep source).modified = "x" := by decide +kernel
  refine .ask ?_
  change Plays ((readSource (Place.path [src, aJs]) inPlace.maxFileSize).bind _) _ _
  refine Plays.bind plays_looks ?_
  change Plays (if (inPlace.pattern.sweep source).isUnchanged then _ else _) _ _
  rw [if_neg differs, modified]
  exact .ask .done

/-- What its task does. -/
def cutTask : List Act :=
  cutActs ++ [.asked (.count ⟨0, 0, 0, 1⟩) (),
    .asked (.note (.event ⟨.walk, .debug, "traversal failure", [("event", "strip.failure")],
      ["error"]⟩)) (),
    .asked (.note (.message (.error unwritten.message))) ()]

theorem plays_cutTask :
    (Walk.processFile inPlace (Place.path [src, aJs])).Plays cutTask (some none) :=
  Plays.bind plays_cutActs (.ask (.ask (.ask .done)))

/-- What a run over `/src` does then. -/
def cutTrace : List Act :=
  opening inPlace ++ (cutTask.map (.inside 0) ++ closing inPlace ⟨1, 0, 0, 1⟩)

theorem did_cutTrace : Did (.start (walk inPlace (Place.path []) (Path.ofString "src"))) cutTrace
    ⟨.done, [.start .done]⟩ :=
  (did_opening (by decide +kernel)).trans ((did_task plays_cutTask).trans (did_closing inPlace _))

/-- The disk after that: the file is empty. -/
def cutDisk : Disk := disk.setInode 0 ⟨"".toUTF8, 0o640⟩

theorem mets_cutTrace : World.Mets (Host.quiet []).faulty (.start disk) cutTrace
    ⟨cutDisk, ⟨1, 0, 0, 1⟩, told cutTrace, [], 0⟩ := by
  have asked {r : Request} {a : r.Answer} {w w' : World} (free : World.refusal (.quiet []) r = none)
      (answered : w.answer (.quiet []) r = (a, w')) :
      (Act.asked r a).Met (Host.quiet []).faulty w w' := ⟨free, .met free answered⟩
  have begun : ("".toUTF8).data.toList <+: ("x".toUTF8).data.toList := List.nil_prefix
  have written : disk.write [] (Place.path [src, aJs]) "".toUTF8 = .ok cutDisk :=
    names_aJs.write_file rfl _
  refine (mets_opening rfl inPlace World.MayAnswer.met _ rfl).append ?_
  refine .cons (asked rfl rfl) (.cons (asked rfl (congrArg (·, _) stat_aJs)) ?_)
  refine .cons (asked rfl (congrArg (·, _) read_aJs)) ?_
  refine .cons ⟨rfl, .cutShort full begun (.whole written)⟩ ?_
  refine .cons (asked rfl rfl) (.cons (asked rfl rfl) (.cons (asked rfl rfl) ?_))
  refine .cons (asked rfl rfl) (.cons rfl (.cons (asked rfl rfl) (.cons (asked rfl rfl) ?_)))
  exact .cons (asked rfl rfl) .nil

theorem fate_cutTask :
    Walk.Handed.fate inPlace ⟨Place.path [src, aJs], cutTask⟩ = some (.error unwritten) :=
  plays_cutActs.replay?_append _

theorem handed_cutTrace :
    handedFrom inPlace (Place.path [src]) cutTrace = [⟨Place.path [src, aJs], cutTask⟩] := by
  have listed : handedFrom inPlace (Place.path [src]) cutTrace =
      Walk.handedIn inPlace (Place.path [src]) (cutTrace.drop 1) := rfl
  have called : Walk.callers inPlace (Place.path [src]) (cutTrace.drop 2) = [(aJs, .file)] := by
    decide +kernel
  rw [listed, show cutTrace.drop 1 = _ :: cutTrace.drop 2 from rfl, Walk.handedIn_listed, called,
    ← child_src]
  rfl

end OneFile

/-! ### A file far below -/

namespace FarBelow

open OneFile (aJs plan source)

/-- A name as long as names can be. -/
def d : Name := ⟨List.replicate 255 0x64, by decide +kernel⟩

/-- A place so many directories below the root. -/
def below (k : Nat) : Place := List.replicate k d

theorem below_succ (k : Nat) : below (k + 1) = below k ++ [d] := List.replicate_succ'

/-- Seventeen directories, each in the one before, and a file in the last one. -/
def disk : Disk where
  entries := (below 17 ++ [aJs], .file 0) :: (List.range 17).map fun k => (below (k + 1), .dir)
  inode _ := ⟨"console.log(1);x".toUTF8, 0o644⟩
  nodup := .of_map List.length (by decide +kernel)

/-- The path by which a walk comes to such a place. -/
def path (k : Nat) : Path := (below k).foldl Path.child (Path.ofString "/")

theorem path_succ (k : Nat) : path (k + 1) = (path k).child d := by
  rw [path, below_succ, List.foldl_append]
  rfl

/-- The path of the file. -/
def far : Path := (path 17).child aJs

theorem isDir {k : Nat} (le : k ≤ 17) : disk.entry? (below k) = some .dir := by
  cases k with
  | zero => rfl
  | succ k =>
    have ne : below (k + 1) ≠ [] := nofun
    refine (disk.entry?_eq_some_iff ne _).2 (List.mem_cons_of_mem _ ?_)
    exact List.mem_map.2 ⟨k, List.mem_range.2 (by omega), rfl⟩

theorem file : disk.entry? (below 17 ++ [aJs]) = some (.file 0) :=
  (disk.entry?_eq_some_iff (concat_ne_nil _ _) _).2 List.mem_cons_self

theorem names_root : disk.Names [] (path 1) (below 1) := by
  have spelled : path 1 = Place.path [d] := by decide +kernel
  have rooted : disk.Rooted ([] ++ [d]) := Disk.Rooted.nil.concat rfl (by decide +kernel)
  rw [spelled]
  refine .of_rooted rooted (List.cons_ne_nil _ _) (fun target link => ?_) ?_
  · cases (isDir (k := 1) (by omega)).symm.trans link
  · exact Disk.checkPath_eq_ok_iff.2 (by decide +kernel)

/-- The file is met from each directory above it. -/
theorem meets {k : Nat} (le : k ≤ 17) : Meets plan disk (path k) (below k) far (below 17 ++ [aJs]) := by
  induction above : 17 - k generalizing k with
  | zero =>
    obtain rfl : k = 17 := by omega
    exact .file file (by decide +kernel)
  | succ n ih =>
    have deeper := ih (k := k + 1) (by omega) (by omega)
    rw [path_succ, below_succ] at deeper
    exact .enter (below_succ k ▸ isDir (by omega)) (by decide +kernel) deeper

theorem lost (d' : Disk) (y : Place) (e : Entry) : d'.find [] far ≠ .ok (y, e) := by
  intro found
  have short := (Disk.checkPath_eq_ok_iff.1 (Disk.find_eq_ok_iff.1 found).1).2.2
  exact absurd short (by decide +kernel)

theorem shown : disk.view (below 17 ++ [aJs]) = some (.file source.toUTF8 0o644) :=
  Disk.view_of_entry file

theorem foundText : Walk.foundText? plan disk (below 17 ++ [aJs]) = some source :=
  Walk.foundText?_eq_some shown (by decide +kernel) (by decide +kernel)

theorem reaches : Reaches plan disk [] (path 1) far (below 17 ++ [aJs]) :=
  .below (names_root.find (isDir (by omega))) (meets (by omega))

/-- No other file is reached, and this one is not found. -/
theorem not_sweeps (f : Path) (x : Place) : ¬ Sweeps plan disk [] (path 1) f x := by
  intro s
  obtain ⟨r, n, found⟩ := Walk.sweeps_iff.1 s
  obtain ⟨m, file⟩ := r.exists_file
  have ne : x ≠ [] := by
    rintro rfl
    cases file
  have mem := (disk.entry?_eq_some_iff ne _).1 file
  rcases List.mem_cons.1 mem with same | mem
  · cases same
    exact lost _ _ _ (r.path_eq reaches ▸ found)
  · obtain ⟨k, -, same⟩ := List.mem_map.1 mem
    cases same

section

variable {T : List Act} {crew : Crew} {w' : World}
  (did : Did (.start (walk plan (Place.path []) (path 1))) T crew) (ended : crew.Ended)
  (mets : World.Mets (Host.quiet []).system (.start disk) T w')

/-- Nothing is refused, so nothing is broken off. -/
theorem whole (mets : World.Mets (Host.quiet []).system (.start disk) T w') : ¬ Walk.Snapped T := by
  intro snapped
  obtain ⟨f, -, act, mem, refused⟩ := snapped.directoryRefused
  exact mets.refuses mem refused rfl

theorem spelled : Path.absolute (Place.path []) (path 1) = path 1 := by decide +kernel

include did ended mets

/-- The file stays as it is. -/
theorem view_eq : w'.disk.view (below 17 ++ [aJs]) = disk.view (below 17 ++ [aJs]) :=
  Walk.view_eq_of_lost (w := .start disk) (Host.quiet []).system_fair spelled
    (fun f x s => absurd s (not_sweeps f x)) did ended (whole mets) mets reaches lost

/-- Its sweep fails, but not for want of writing. -/
theorem fate_ne {s : Walk.Handed} (mem : s ∈ handedFrom plan (path 1) T) (path : s.path = far)
    (e : SourceError) : s.fate plan ≠ some (.error (.write far e)) := by
  have handles := Walk.handles_of_did (w := .start disk) (Host.quiet []).system_fair spelled
    (fun f x s => absurd s (not_sweeps f x)) did ended (whole mets) mets
  obtain ⟨x, -, kept⟩ := handles.each s mem
  obtain ⟨e', fate, -⟩ := kept.lost (Host.quiet []).system_fair rfl (path ▸ lost)
  rw [fate]
  intro same
  cases same

end

end FarBelow

open FarBelow (path below) in
/-- Not every file with calls in it is swept, even if no write fails: one may be too far below the
    root to be read by its path.  And a file whose write fails need not stay as it is: a write in
    place empties it first. -/
theorem not_settles_unfailing :
    ¬ (walk OneFile.plan (Place.path []) (path 1)).Ends (Host.quiet []).system (fun T _ w' =>
        ∀ f x text, Meets OneFile.plan FarBelow.disk (path 1) (below 1) f x →
          Walk.foundText? OneFile.plan FarBelow.disk x = some text →
          (∀ s ∈ handedFrom OneFile.plan (path 1) T, s.path = f →
            ∀ e, s.fate OneFile.plan ≠ some (.error (.write f e))) →
          ∃ permissions, w'.disk.view x =
            some (.file (OneFile.plan.pattern.sweep text).modified.toUTF8 permissions))
        (.start FarBelow.disk) ∧
      ¬ (walk OneFile.inPlace (Place.path []) (Path.ofString "src")).Ends (Host.quiet []).faulty
        (fun T _ w' => ∀ f x,
          Meets OneFile.inPlace OneFile.disk (Place.path [OneFile.src]) [OneFile.src] f x →
          (∃ s ∈ handedFrom OneFile.inPlace (Place.path [OneFile.src]) T, s.path = f ∧
            ∃ e, s.fate OneFile.inPlace = some (.error (.write f e))) →
          w'.disk.view x = OneFile.disk.view x) (.start OneFile.disk) := by
  constructor
  · intro swept
    obtain ⟨T, crew, w', did, ended, mets⟩ := Crew.exists_ended (S := (Host.quiet []).system)
      (.start (walk OneFile.plan (Place.path []) (path 1))) (.start FarBelow.disk)
    obtain ⟨permissions, shown⟩ := swept.of_did did ended mets _ _ OneFile.source
      (FarBelow.meets (by omega)) FarBelow.foundText fun s mem path e =>
        FarBelow.fate_ne did ended mets mem path e
    rw [FarBelow.view_eq did ended mets, FarBelow.shown] at shown
    have bytes : OneFile.source.toUTF8 = (OneFile.plan.pattern.sweep OneFile.source).modified.toUTF8 :=
      (Node.file.inj (Option.some.inj shown)).1
    exact absurd bytes (by decide +kernel)
  · intro kept
    have left := kept.of_did OneFile.did_cutTrace trivial OneFile.mets_cutTrace
      (Place.path [OneFile.src, OneFile.aJs]) [OneFile.src, OneFile.aJs]
      (OneFile.child_src ▸ .file rfl (by decide +kernel))
      ⟨_, OneFile.handed_cutTrace ▸ List.mem_singleton_self _, rfl, _, OneFile.fate_cutTask⟩
    have bytes : "".toUTF8 = OneFile.source.toUTF8 := (Node.file.inj (Option.some.inj left)).1
    exact absurd bytes (by decide +kernel)

end CallSweep
