/-
  What a dry run says of the run itself.

  Both runs begin with the same disk, and the same veil hides things from them.  Their tasks may
  take turns in different ways, and writes may fail as they like.

  1. **Runs** (`Walk.visits_of_did`, `Walk.booked_of_did`) — what a run comes across does not depend
     on the order of turns, and its books are those of the files that it hands over.

  2. **The forecast** (`walk_forecast`) — hence the books of the two runs agree but for the finds
     that were not written.

  3. **What it rests on** (`not_forecast_unconditional`) — a diff that is refused is not made up
     for; and a listing that goes on while files are written may come to the copies of a run that
     writes.
-/
import CallSweep.Proofs.Walk.Finds
import CallSweep.Proofs.Walk.Sweeping

namespace CallSweep

open Disk (AgreeOn Frame Names)
open Crew (Did)
open Script (Plays)

namespace Walk

/-! ## Runs -/

theorem sum_troubles {α : Type} (fs : List α) :
    (fs.map fun _ => ((⟨0, 0, 0, 1⟩, 0) : Books)).sum = (⟨0, 0, 0, fs.length⟩, 0) := by
  induction fs with
  | nil => rfl
  | cons f fs ih =>
    rw [List.map_cons, List.sum_cons, ih, List.length_cons, Nat.add_comm fs.length]
    rfl

theorem sum_visitBooks_seen (ρ : Veil) (plan : Plan) (d : Disk) (cwd : Place) (ss : List Handed)
    (fs : List Failure) : ((seen ss fs).map (visitBooks ρ plan d cwd)).sum =
      (ss.map fun s => visitBooks ρ plan d cwd (.file s.path)).sum + (⟨0, 0, 0, fs.length⟩, 0) := by
  rw [seen, List.map_append, List.sum_append, List.map_map, List.map_map, ← sum_troubles fs]
  rfl

/-- A trouble is told, but not as a write that failed. -/
theorem failureEntry_trouble {T : List Act} {q : Path} {f : Failure} (mem : f ∈ troublesFrom q T) :
    failureEntry books f = (⟨0, 0, 0, 1⟩, 0) := by
  have listed {T : List Act} (mem : f ∈ troubles T) : f.isWrite = false := by
    obtain ⟨act, -, trouble⟩ := List.mem_filterMap.1 mem
    induction act with
    | asked r a =>
      cases r with
      | list _ =>
        cases a with
        | error e =>
          cases trouble
          rfl
        | ok l => cases trouble
      | next p l =>
        rcases a with e | _ | ⟨⟨name, e | kind⟩, rest⟩
        · cases trouble
          rfl
        · cases trouble
        · cases trouble
          rfl
        · cases trouble
      | _ => cases trouble
    | inside i act ih => exact ih trouble
    | _ => cases trouble
  refine failureEntry_of_other modest_books ?_
  unfold troublesFrom at mem
  split at mem
  · rw [List.mem_singleton.1 mem]
    rfl
  · exact listed mem

section

variable {h : Host} {ρ : Veil} {plan : Plan} {d : Disk} {p q : Path} {T : List Act} {crew : Crew}
  {w : World} (taken : ∀ m, h.refuses m = none)
  (mets : World.Mets (h.veiled ρ) (.start d) T w)

include taken mets

/-- Where every message is taken, none is refused. -/
theorem not_refusing : ¬ Refusing T :=
  fun ⟨_, mem, m, refused⟩ => mets.refuses mem refused (taken m)

theorem not_snapped : ¬ Snapped T :=
  fun ⟨_, _, _, mem, refused⟩ => mets.refuses mem refused (taken _)

variable (did : Did (.start (walk plan h.cwd.path p)) T crew) (ended : crew.Ended)
  (spelled : Path.absolute h.cwd.path p = q)

include did ended spelled

/-- A run that is refused nothing comes to its end, and closes its books. -/
theorem closed_of_taken : Closed books plan q (handedFrom plan q T) T := by
  rw [walk, spelled] at did
  have walked := walked_of_did did ended
  have discreet : books.Discreet := modest_books.event
  rcases walked.down ended with done | ⟨m, report, mem, -⟩
  · exact walked.closed discreet done (walked.finished ended (not_snapped taken mets))
  · exact absurd ⟨_, mem, m, rfl⟩ (not_refusing taken mets)

/-- The books of a run are those of its files and its troubles. -/
theorem booked_of_did : booked w = ((handedFrom plan q T).map (Handed.entry books plan)).sum +
    (⟨0, 0, 0, (troublesFrom q T).length⟩, 0) := by
  obtain ⟨told, closing, entered, crashed, -, other⟩ :=
    (closed_of_taken taken mets did ended spelled).entered
  obtain rfl : told = [] := by
    by_contra some_
    exact not_refusing taken mets (crashed some_)
  have closes : closingEntry books closing = 0 := by
    cases closing with
    | none => rfl
    | some text => exact modest_books.info text (other text rfl)
  have troubles_eq : troubleEntry books (troublesFrom q T) =
      (⟨0, 0, 0, (troublesFrom q T).length⟩, 0) := by
    rw [← sum_troubles, troubleEntry]
    exact congrArg List.sum (List.map_congr_left fun f mem => failureEntry_trouble mem)
  rw [booked_eq_spent (h.veiled_fair ρ).toHonest taken mets, entered, closes, troubles_eq]
  exact (add_zero _).trans (congrArg _ (add_zero _))

variable (single : ∀ x n, d.entry? x = some (.file n) → d.linkCount n = 1)
  (no_copy : ∀ (dir : Place) (name : Name), d.entry? (dir ++ [name.copy]) = none)

include single no_copy

theorem veiled_handles : Handles (h.veiled ρ) (Frame {x | d.Alone x} d) plan d
    (partOf plan d h.cwd) (Reaches plan d h.cwd q) Set.univ (handedFrom plan q T) (troublesFrom q T)
    w.disk :=
  handles_of_did (h.veiled_fair ρ) spelled (clear_of_single single no_copy) did ended
    (not_snapped taken mets) mets

/-- What a run comes across does not depend on the order of turns. -/
theorem visits_of_did :
    (seen (handedFrom plan q T) (troublesFrom q T)).Perm (rootVisits ρ plan d h.cwd q) := by
  have parts : Parts (h.veiled ρ) (Frame {x | d.Alone x} d) plan d q (partOf plan d h.cwd) :=
    parts_of_clear (h.veiled_fair ρ) spelled (clear_of_single single no_copy)
  rw [walk, spelled] at did
  exact parts.walk_visits did ended (not_snapped taken mets) mets rfl

/-- What a file is read as does not depend on the order of turns either. -/
theorem readAs_of_handed {s : Handed} (mem : s ∈ handedFrom plan q T) :
    s.ReadAs ρ plan d h.cwd := by
  have fair := h.veiled_fair ρ
  obtain ⟨x, r, kept⟩ :=
    (veiled_handles taken mets did ended spelled single no_copy).each s mem
  rcases r.found_or_lost with ⟨n, found⟩ | lost
  · have shown := Disk.view_of_entry (Disk.find_eq_ok_iff.1 found).2.2
    have mine : x ∈ partOf plan d h.cwd s.path x := partOf_eq found ▸ mem_part plan d x
    obtain ⟨result, reading, same⟩ := kept.exists_reading fair.toHonest
      fun d' _ agree => readSource_owns_veiled (fun _ => id) (.of_find_file found) mine
        ((agree x mine).trans shown) _
    refine ⟨result, reading, same.trans ?_⟩
    rw [read?_eq found, Option.map_map]
    exact Option.map_id'.symm
  · obtain ⟨result, reading, e, rfl⟩ := kept.exists_reading fair.toHonest
      (R := fun result => ∃ e, result = .error e) fun d' _ _ =>
        (readSource_owns_lost fair (fun d' _ => lost d') _).mono fun _ _ _ failed => failed.2.1
    refine ⟨_, reading, ?_⟩
    rw [read?_eq_none fun y n found => lost d y _ found]
    rfl

/-- Each file that was handed over was read as the disk has it, and came to something. -/
theorem settled_of_handed {s : Handed} (mem : s ∈ handedFrom plan q T) :
    s.ReadAs ρ plan d h.cwd ∧ s.Settled plan ∧ s.fate plan ≠ none := by
  have closed := closed_of_taken taken mets did ended spelled
  refine ⟨readAs_of_handed taken mets did ended spelled single no_copy mem, closed.settled s mem, ?_⟩
  exact fun cut => not_refusing taken mets (closed.cut s mem cut)

end

/-! ### The plan that is not dry -/

theorem Meets.with_dryRun {plan : Plan} {d : Disk} {p f : Path} {dir x : Place} (dry : Bool)
    (m : Meets plan d p dir f x) : Meets { plan with dryRun := dry } d p dir f x := by
  induction m with
  | file file admitted => exact .file file admitted
  | enter isDir entered _ ih => exact .enter isDir entered ih

theorem Reaches.with_dryRun {plan : Plan} {d : Disk} {cwd x : Place} {q f : Path} (dry : Bool)
    (r : Reaches plan d cwd q f x) : Reaches { plan with dryRun := dry } d cwd q f x := by
  cases r with
  | root found admitted => exact .root found admitted
  | below root meets => exact .below root (meets.with_dryRun dry)

/-! ## The forecast -/

/-- What a dry run says of the run itself: which files are written, which fail to be, and what the
    counts are. -/
structure Forecast (plan : Plan) (d : Disk) (cwd : Place) (q : Path) (written : List Find)
    (unwritten : List (Find × SourceError)) (dry real : World) : Prop where
  still : dry.disk = d
  scanned : dry.tally.scanned = real.tally.scanned
  changed : dry.tally.changed = real.tally.changed + unwritten.length
  removals : dry.tally.removals =
    real.tally.removals + (unwritten.map fun u => u.1.count plan).sum
  failures : dry.tally.failures + unwritten.length = real.tally.failures
  /-- A diff is shown of each file that is written or fails to be, and of no others. -/
  shown : (diffs dry.notes).Perm ((written ++ unwritten.map Prod.fst).map (Find.diff plan))
  rewritten : (rewrites real.notes).Perm (written.map fun s =>
    rewriteEvent { plan with dryRun := false } s.path (s.count plan))
  failed : (writeFailures real.notes).Perm
    (unwritten.map fun u => (Failure.write u.1.path u.2).message)
  put : ∀ s ∈ written, ∃ bytes permissions mode,
    d.view s.place = some (.file bytes permissions) ∧
      KeptMode plan.atomicWrite permissions mode ∧
      real.disk.view s.place = some (.file (plan.pattern.sweep s.text).modified.toUTF8 mode)
  /-- The other files stay as they are. -/
  others : ∀ f x, Reaches plan d cwd q f x →
    (∀ s ∈ written ++ unwritten.map Prod.fst, s.place ≠ x) → real.disk.view x = d.view x

section

variable {h : Host} {ρ : Veil} {plan : Plan} {d : Disk} {p q : Path} {T : List Act} {crew : Crew}
  {w : World} (taken : ∀ m, h.refuses m = none)
  (single : ∀ x n, d.entry? x = some (.file n) → d.linkCount n = 1)
  (no_copy : ∀ (dir : Place) (name : Name), d.entry? (dir ++ [name.copy]) = none)
  (spelled : Path.absolute h.cwd.path p = q)

/-- A file that was written, or failed to be, is a find. -/
theorem exists_find_of_fate {plan : Plan} {cwd : Place} {s : Handed} (read : s.ReadAs ρ plan d cwd)
    (settled : s.Settled { plan with dryRun := false }) {result : Except Failure Nat}
    (fate : s.fate { plan with dryRun := false } = some result)
    (wrote : (∃ n, result = .ok n ∧ 0 < n) ∨ ∃ e, result = .error (.write s.path e)) :
    ∃ u, find? ρ plan d cwd (.file s.path) = some u := by
  obtain ⟨read, reading, same⟩ := read
  obtain ⟨-, read', reading', fits⟩ := settled
  cases reading.symm.trans reading'
  rw [fate] at fits
  have found {text : String} (read : read = .ok text)
      (differs : (plan.pattern.sweep text).isUnchanged = false) :
      ∃ u, find? ρ plan d cwd (.file s.path) = some u := by
    subst read
    obtain ⟨x, read⟩ := read?_of_ok same
    exact ⟨_, find?_eq_some_iff.2 ⟨read, differs⟩⟩
  cases fits with
  | unread e =>
    rcases wrote with ⟨n, ok, -⟩ | ⟨e', same⟩
    · cases ok
    · cases same
  | unchanged _ =>
    rcases wrote with ⟨n, ok, pos⟩ | ⟨e', same⟩
    · cases ok
      cases pos
    · cases same
  | unwritten differs _ _ => exact found rfl differs
  | changed differs => exact found rfl differs

include taken single no_copy spelled

section

variable (did : Did (.start (walk { plan with dryRun := true } h.cwd.path p)) T crew)
  (ended : crew.Ended) (mets : World.Mets (h.veiled ρ) (.start d) T w)

include did ended mets

/-- The books of a dry run are foreseen by what it visits. -/
theorem booked_of_dry :
    booked w = ((rootVisits ρ plan d h.cwd q).map (visitBooks ρ plan d h.cwd)).sum := by
  have visited := visits_of_did taken mets did ended spelled single no_copy
  rw [rootVisits_dryRun] at visited
  rw [booked_of_did taken mets did ended spelled, ← (visited.map _).sum_eq, sum_visitBooks_seen]
  refine congrArg (List.sum · + _) (List.map_congr_left fun s mem => ?_)
  obtain ⟨read, settled, uncut⟩ :=
    settled_of_handed taken mets did ended spelled single no_copy mem
  exact entry_of_dry read settled uncut

/-- Each find is a file that is swept and has calls in it. -/
theorem sweeps_of_mem_finds {u : Find} (mem : u ∈ finds ρ plan d h.cwd q) :
    Sweeps plan d h.cwd q u.path u.place ∧ foundText? plan d u.place = some u.text := by
  have visited := visits_of_did taken mets did ended spelled single no_copy
  rw [rootVisits_dryRun] at visited
  obtain ⟨s, mem_s, found⟩ := List.mem_filterMap.1 ((perm_finds visited).mem_iff.2 mem)
  obtain ⟨x, r, -⟩ := (veiled_handles taken mets did ended spelled single no_copy).each s mem_s
  obtain ⟨n, found_s, path, place, text⟩ := of_find? r found
  rw [path, place]
  exact ⟨sweeps_iff.2 ⟨r.with_dryRun plan.dryRun, n, found_s⟩, text⟩

/-- Each file that is swept and has calls in it is a find, unless something hides it. -/
theorem mem_finds_of_sweeps {f : Path} {x : Place} {text : String}
    (sweeps : Sweeps plan d h.cwd q f x) (found : foundText? plan d x = some text) :
    ⟨f, x, text⟩ ∈ finds ρ plan d h.cwd q ∨ (ρ.stat f ≠ none ∨ ρ.read f ≠ none) ∨
      ∃ g ∈ troublesFrom q T, Bars f g := by
  obtain ⟨r, n, found_f⟩ := sweeps_iff.1 sweeps
  by_cases bare : ρ.stat f = none ∧ ρ.read f = none
  · refine ((veiled_handles taken mets did ended spelled single no_copy).all f x
      (r.with_dryRun true)).imp ?_ .inr
    rintro ⟨s, mem, rfl, -⟩
    have visited := visits_of_did taken mets did ended spelled single no_copy
    rw [rootVisits_dryRun] at visited
    exact (perm_finds visited).mem_iff.1 (List.mem_filterMap.2
      ⟨s, mem, (find?_eq_some_iff_of_found found_f).2 ⟨bare, rfl, rfl, found⟩⟩)
  · exact .inr (.inl (by tauto))

end

section

variable (did : Did (.start (walk { plan with dryRun := false } h.cwd.path p)) T crew)
  (ended : crew.Ended) (mets : World.Mets (h.veiled ρ) (.start d) T w)

include did ended mets

/-- A find that the run wrote holds the swept text. -/
theorem put_of_fate {s : Handed} {u : Find}
    (mem : s ∈ handedFrom { plan with dryRun := false } q T)
    (found : find? ρ plan d h.cwd (.file s.path) = some u)
    (fate : s.fate { plan with dryRun := false } = some (.ok (u.count plan))) :
    ∃ bytes permissions mode, d.view u.place = some (.file bytes permissions) ∧
      KeptMode plan.atomicWrite permissions mode ∧
      w.disk.view u.place = some (.file (plan.pattern.sweep u.text).modified.toUTF8 mode) := by
  obtain ⟨x, r, kept⟩ := (veiled_handles taken mets did ended spelled single no_copy).each s mem
  obtain ⟨n, found_s, -, place, text⟩ := of_find? r found
  obtain ⟨old, permissions, shown, admits, differs⟩ := foundText?_eq_some_iff.1 text
  obtain ⟨result, node, fate', swept, left, -⟩ :=
    kept.left (h.veiled_fair ρ) spelled (clear_of_single single no_copy) rfl r found_s shown
  have pos : 0 < u.count plan := count_pos differs
  generalize u.count plan = n at fate pos
  cases fate.symm.trans fate'
  rw [place]
  cases swept with
  | unchanged _ _ => exact absurd pos (lt_irrefl 0)
  | rewritten read _ kept =>
    cases admits.symm.trans read
    exact ⟨_, _, _, shown, kept, left⟩

/-- A file that is no find stays as it is. -/
theorem view_eq_of_not_find {f : Path} {x : Place} (r : Reaches plan d h.cwd q f x)
    (none_ : ∀ s ∈ handedFrom { plan with dryRun := false } q T, s.path = f →
      ∀ u, find? ρ plan d h.cwd (.file s.path) ≠ some u) : w.disk.view x = d.view x := by
  obtain ⟨old, permissions, node, shown, left, outcome⟩ := outcome_of_did (h.veiled_fair ρ) spelled
    (clear_of_single single no_copy) did ended (not_snapped taken mets) mets rfl
    (r.with_dryRun false)
  cases outcome with
  | barred _ _ => exact left.trans shown.symm
  | swept mem path fate swept =>
    subst path
    obtain ⟨read, settled, -⟩ := settled_of_handed taken mets did ended spelled single no_copy mem
    cases swept with
    | unread _ | unchanged _ _ => exact left.trans shown.symm
    | rewritten _ differs _ =>
      obtain ⟨u, found⟩ := exists_find_of_fate read settled fate (.inl ⟨_, rfl, count_pos differs⟩)
      exact absurd found (none_ _ mem rfl u)
    | unwritten _ _ _ =>
      obtain ⟨u, found⟩ := exists_find_of_fate read settled fate (.inr ⟨_, rfl⟩)
      exact absurd found (none_ _ mem rfl u)

end

/-- Two runs that end so bear the forecast out. -/
theorem forecast_of_runs {T' : List Act} {crew' : Crew} {dry real : World}
    (did : Did (.start (walk { plan with dryRun := true } h.cwd.path p)) T crew)
    (ended : crew.Ended) (mets : World.Mets (h.veiled ρ) (.start d) T dry)
    (did' : Did (.start (walk { plan with dryRun := false } h.cwd.path p)) T' crew')
    (ended' : crew'.Ended) (mets' : World.Mets (h.veiled ρ) (.start d) T' real) :
    ∃ written unwritten, (written ++ unwritten.map Prod.fst).Perm (finds ρ plan d h.cwd q) ∧
      Forecast plan d h.cwd q written unwritten dry real := by
  have fair := h.veiled_fair ρ
  have visited := visits_of_did taken mets' did' ended' spelled single no_copy
  rw [rootVisits_dryRun] at visited
  have comes (s : Handed) (mem : s ∈ handedFrom { plan with dryRun := false } q T') :
      Comes ρ plan d h.cwd s (s.entry books { plan with dryRun := false }) := by
    obtain ⟨read, settled, -⟩ :=
      settled_of_handed taken mets' did' ended' spelled single no_copy mem
    exact comes_of_settled read settled
  obtain ⟨written, unwritten, perm, told, fates⟩ := exists_foretold comes
  -- both runs have the same troubles
  have told := told.same ⟨0, 0, 0, (troublesFrom q T').length⟩
  rw [add_comm, add_comm _ (List.sum _), ← sum_visitBooks_seen, (visited.map _).sum_eq,
    ← booked_of_dry taken single no_copy spelled did ended mets,
    ← booked_of_did taken mets' did' ended' spelled] at told
  refine ⟨written, unwritten, perm.trans (perm_finds visited), ?_⟩
  constructor
  · exact mets.disk_eq fair.toHonest ((walk_still rfl _ _).asks did)
  · exact told.scanned
  · exact told.changed
  · exact told.removals
  · exact told.failures
  · have shown := told.shown
    rw [Multiset.coe_add] at shown
    rw [List.map_append, List.map_map]
    exact Multiset.coe_eq_coe.1 shown
  · exact Multiset.coe_eq_coe.1 told.rewritten
  · exact Multiset.coe_eq_coe.1 told.failed
  · intro u mem
    obtain ⟨s, mem_s, found, fate⟩ := fates u mem
    exact put_of_fate taken single no_copy spelled did' ended' mets' mem_s found fate
  · intro f x r none_
    refine view_eq_of_not_find taken single no_copy spelled did' ended' mets' r
      fun s mem path u found => ?_
    -- a find at this place is among those that were written or failed to be
    subst path
    obtain ⟨-, -, -, place, -⟩ := of_find? r found
    exact none_ u (perm.mem_iff.2 (List.mem_filterMap.2 ⟨s, mem, found⟩)) place

end

end Walk

open Walk (Sweeps Find Forecast foundText? troublesFrom)

/-- **The forecast.**  Let no file have more than one name, no entry the name of a copy, and no
    message bring a task down.  Then a dry run foretells the run itself, whatever the order of turns
    in either, and whichever writes fail, if the same looks at the disk are denied in both.  The files
    with calls in them that can be read, each once, are those that are written and those that fail to
    be: the dry run shows the diff of each, and the counts of the two runs differ by the latter alone.
    -/
theorem walk_forecast (plan : Plan) (h : Host) (ρ : Veil) (d : Disk) (p : Path)
    (taken : ∀ m, h.refuses m = none)
    (single : ∀ x n, d.entry? x = some (.file n) → d.linkCount n = 1)
    (no_copy : ∀ (dir : Place) (name : Name), d.entry? (dir ++ [name.copy]) = none) :
    let q := Path.absolute h.cwd.path p
    ∃ found : List Find, (found.map Find.path).Nodup ∧
      (walk { plan with dryRun := true } h.cwd.path p).Ends (h.veiled ρ) (fun T _ dry =>
        (∀ s ∈ found, Sweeps plan d h.cwd q s.path s.place ∧ foundText? plan d s.place = some s.text) ∧
        (∀ f x text, Sweeps plan d h.cwd q f x → foundText? plan d x = some text →
          ⟨f, x, text⟩ ∈ found ∨ (ρ.stat f ≠ none ∨ ρ.read f ≠ none) ∨
            ∃ g ∈ troublesFrom q T, Walk.Bars f g) ∧
        (walk { plan with dryRun := false } h.cwd.path p).Ends (h.veiled ρ) (fun _ _ real =>
          ∃ written unwritten, (written ++ unwritten.map Prod.fst).Perm found ∧
            Forecast plan d h.cwd q written unwritten dry real) (.start d)) (.start d) := by
  intro q
  refine ⟨Walk.finds ρ plan d h.cwd q, Walk.nodup_finds ρ plan d h.cwd q, ?_⟩
  refine Job.ends_of_traces fun T crew dry did ended mets => ⟨fun s mem => ?_, fun f x text => ?_, ?_⟩
  · exact Walk.sweeps_of_mem_finds taken single no_copy rfl did ended mets mem
  · exact Walk.mem_finds_of_sweeps taken single no_copy rfl did ended mets
  · exact Job.ends_of_traces fun T' crew' real did' ended' mets' =>
      Walk.forecast_of_runs taken single no_copy rfl did ended mets did' ended' mets'

namespace OneFile

/-- What a run over `/src` comes across if nothing is hidden. -/
theorem rootVisits_src : Walk.rootVisits .clear plan disk [] (Place.path [src]) =
    [.file (Place.path [src, aJs])] := by
  have opened : Veil.hide (Veil.clear.list (Place.path [src])) (disk.list [] (Place.path [src])) =
      .ok listing := list_src
  have looked : Veil.hide (Veil.clear.stat (Place.path [src])) (disk.stat [] (Place.path [src])) =
      .ok ⟨.directory, 4096, 0o755⟩ := stat_src
  have admitted : plan.extensions.admits (Place.path [src, aJs]) = true := by decide +kernel
  rw [Walk.rootVisits, looked]
  show Walk.visits .clear plan disk [] (Place.path [src]) = _
  rw [Walk.visits_of_listed opened]
  show (if plan.extensions.admits ((Place.path [src]).child aJs) then
    [Walk.Visit.file ((Place.path [src]).child aJs)] else []) ++ [] = _
  rw [child_src, if_pos admitted]
  rfl

/-- In the tree of one file the dry run shows the diff of `/src/a.js`, and the counts agree up to the
    failed writes. -/
theorem walk_forecast_one_file :
    (walk dry (Place.path []) (Path.ofString "src")).Ends ((Host.quiet []).veiled .clear)
      (fun _ _ dryRun => Diff.unified (Place.path [src, aJs]).display source "x" ∈
          Walk.diffs dryRun.notes ∧
        (walk plan (Place.path []) (Path.ofString "src")).Ends ((Host.quiet []).veiled .clear)
          (fun _ _ real => dryRun.disk = disk ∧ dryRun.tally.scanned = real.tally.scanned ∧
            dryRun.tally.changed = real.tally.changed + (Walk.writeFailures real.notes).length)
          (.start disk)) (.start disk) := by
  have modified : (plan.pattern.sweep source).modified = "x" := by decide +kernel
  have taken (m : Message) : (Host.quiet []).refuses m = none := rfl
  obtain ⟨found, -, runs⟩ :=
    walk_forecast plan (.quiet []) .clear disk (Path.ofString "src") taken single no_copy
  refine Job.ends_of_traces fun T crew dryRun did ended mets => ?_
  obtain ⟨-, complete, reals⟩ := runs.of_did did ended mets
  have visited := Walk.visits_of_did taken mets did ended absolute_src single no_copy
  have same : Walk.rootVisits .clear dry disk (Host.quiet []).cwd (Place.path [src]) =
      [.file (Place.path [src, aJs])] := (Walk.rootVisits_dryRun true).trans rootVisits_src
  rw [same] at visited
  have mem : ⟨Place.path [src, aJs], [src, aJs], source⟩ ∈ found := by
    have sweeps : Sweeps plan disk [] (Place.path [src]) (Place.path [src, aJs]) [src, aJs] :=
      .below find_src (child_src ▸ .file rfl (by decide +kernel)) find_aJs
    have text : foundText? plan disk [src, aJs] = some source :=
      Walk.foundText?_eq_some_iff.2 ⟨_, _, rfl, by decide +kernel, by decide +kernel⟩
    rcases complete _ _ _ (absolute_src ▸ sweeps) text with mem | (hidden | hidden) | ⟨g, mem, -⟩
    · exact mem
    · exact absurd rfl hidden
    · exact absurd rfl hidden
    · -- nothing is in the way
      have trouble : Walk.Visit.trouble ∈ [Walk.Visit.file (Place.path [src, aJs])] :=
        visited.mem_iff.1 (List.mem_append_right _ (List.mem_map_of_mem (absolute_src ▸ mem)))
      cases List.mem_singleton.1 trouble
  constructor
  · obtain ⟨T', crew', real, did', ended', mets'⟩ := Crew.exists_ended
      (S := (Host.quiet []).veiled .clear) (.start (walk plan (Place.path []) (Path.ofString "src")))
      (.start disk)
    obtain ⟨written, unwritten, perm, forecast⟩ := reals.of_did did' ended' mets'
    have shown := forecast.shown.mem_iff.2 (List.mem_map_of_mem (perm.mem_iff.2 mem))
    rwa [Find.diff, modified] at shown
  · refine reals.mono fun _ _ real ⟨written, unwritten, _, forecast⟩ => ?_
    refine ⟨forecast.still, forecast.scanned, ?_⟩
    rw [forecast.changed, forecast.failed.length_eq, List.length_map]

end OneFile

/-! ## What it rests on -/

/-! ### A diff that is refused -/

/-- A host that is brought down by diffs. -/
def Host.touchy : Host where
  cwd := []
  prints _ := []
  refuses
    | .info text => if Walk.tellsDiff text then some "reporter refused" else none
    | .error _ => none

namespace OneFile

theorem touchy_taken {text : String} (other : Walk.tellsDiff text = false) :
    Host.touchy.refuses (.info text) = none := if_neg (by simp [other])

def refusing : Plan := { inPlace with dryRun := true }

/-- What the task of `/src/a.js` does when its diff is refused. -/
def refusedActs : List Act :=
  .asked (.count ⟨1, 0, 0, 0⟩) () :: (looks ++ [.refused diff "reporter refused"])

theorem plays_refusedActs :
    (Walk.processFile refusing (Place.path [src, aJs])).Plays refusedActs none := by
  have differs : ¬ (refusing.pattern.sweep source).isUnchanged = true := by decide +kernel
  refine Plays.bind_none (s := Walk.sweepFile refusing (Place.path [src, aJs])) ?_ _
  refine .ask ?_
  change Plays ((readSource (Place.path [src, aJs]) refusing.maxFileSize).bind _) _ _
  refine Plays.bind plays_looks ?_
  change Plays (if (refusing.pattern.sweep source).isUnchanged then _ else _) _ _
  rw [if_neg differs]
  exact .refused

/-- What is told of a task that crashed. -/
def crashActs (report : String) : List Act :=
  [.asked (.count ⟨0, 0, 0, 1⟩) (),
    .asked (.note (.event ⟨.walk, .debug, "traversal failure", [("event", "strip.failure")],
      ["error"]⟩)) (),
    .asked (.note (.message (.error (Failure.crashed report).message))) ()]

/-- A dry run that is refused its diff counts no change. -/
theorem exists_dry_refused : ∃ T crew w,
    Did (.start (walk refusing (Place.path []) (Path.ofString "src"))) T crew ∧ crew.Ended ∧
      World.Mets Host.touchy.system (.start disk) T w ∧ w.tally.changed = 0 := by
  obtain ⟨report, cut⟩ : ∃ report,
      Did (.start (task refusing)) refusedActs ⟨.crashed report, []⟩ :=
    Did.andThen_none plays_refusedActs fun _ => .done
  have going : ¬ (rest refusing).Ended := by
    rw [rest, Walk.entries]
    exact id
  have ended : ∀ c ∈ [(⟨.crashed report, []⟩ : Crew)], c.Ended :=
    List.forall_mem_singleton.2 trivial
  have closes : Did ⟨rest refusing, [⟨.crashed report, []⟩]⟩
      (.asked (.next (Place.path [src]) behind.1) (.ok none) :: .joined [report] ::
        (crashActs report ++ (closing refusing ⟨1, 0, 0, 1⟩).drop 2))
      ⟨.done, [⟨.crashed report, []⟩]⟩ := by
    rw [rest, Walk.entries]
    exact .head (.ask _) (.head (.join ended (.refl _)) (.head (.ask _) (.head (.ask _)
      (.head (.ask _) (.head (.ask _) (.head (.ask _) (.head (.ask _) .refl)))))))
  have asked {r : Request} {a : r.Answer} {w w' : World} (free : World.refusal .touchy r = none)
      (answered : w.answer .touchy r = (a, w')) : (Act.asked r a).Met Host.touchy.system w w' :=
    ⟨free, answered⟩
  have differ : source ≠ (dry.pattern.sweep source).modified := by decide +kernel
  have refused : Host.touchy.refuses diff = some "reporter refused" :=
    if_pos (Walk.tellsDiff_unified differ)
  have summed := touchy_taken (Walk.tellsDiff_summary refusing (Place.path [src]) ⟨1, 0, 0, 1⟩)
  have inside : Did ⟨rest refusing, [.start (task refusing)]⟩ (refusedActs.map (.inside 0))
      ⟨rest refusing, [⟨.crashed report, []⟩]⟩ := Did.inside going rfl cut
  refine ⟨_, _, ⟨disk, ⟨1, 0, 0, 1⟩, told (crashActs report ++
    (closing refusing ⟨1, 0, 0, 1⟩).drop 2), [], 0⟩, (did_opening (by decide +kernel)).trans
      (inside.trans closes), trivial, (mets_opening rfl refusing (fun _ => id) _ rfl).append ?_, rfl⟩
  refine .cons (asked rfl rfl) (.cons (asked rfl (congrArg (·, _) stat_aJs)) ?_)
  refine .cons (asked rfl (congrArg (·, _) read_aJs)) (.cons ⟨refused, rfl⟩ ?_)
  refine .cons (asked rfl rfl) (.cons rfl (.cons (asked rfl rfl) (.cons (asked rfl rfl) ?_)))
  exact .cons (asked rfl rfl) (.cons (asked rfl rfl) (.cons (asked rfl rfl)
    (.cons (asked summed rfl) .nil)))

/-- What the task of `/src/a.js` does when it is written in place. -/
def inPlaceActs : List Act :=
  .asked (.count ⟨1, 0, 0, 0⟩) () :: (looks ++
    [.asked (.write (Place.path [src, aJs]) "x".toUTF8) (.ok ()), .asked (.count ⟨0, 1, 1, 0⟩) (),
      .asked (.note (.event (Walk.rewriteEvent inPlace (Place.path [src, aJs]) 1))) ()])

theorem plays_inPlaceActs :
    (Walk.processFile inPlace (Place.path [src, aJs])).Plays inPlaceActs (some (some 1)) := by
  have differs : ¬ (inPlace.pattern.sweep source).isUnchanged = true := by decide +kernel
  have modified : (inPlace.pattern.sweep source).modified = "x" := by decide +kernel
  have one : (inPlace.pattern.sweep source).count = 1 := by decide +kernel
  have swept : (Walk.sweepFile inPlace (Place.path [src, aJs])).Plays inPlaceActs
      (some (.ok 1)) := by
    refine .ask ?_
    change Plays ((readSource (Place.path [src, aJs]) inPlace.maxFileSize).bind _) _ _
    refine Plays.bind plays_looks ?_
    change Plays (if (inPlace.pattern.sweep source).isUnchanged then _ else _) _ _
    rw [if_neg differs, modified, one]
    exact .ask (.ask (.ask .done))
  have whole : (Walk.processFile inPlace (Place.path [src, aJs])).Plays (inPlaceActs ++ [])
      (some (some 1)) := Plays.bind swept .done
  exact whole

/-- The world when that is done. -/
def written : World :=
  ⟨disk.setInode 0 ⟨"x".toUTF8, 0o640⟩, ⟨1, 1, 1, 0⟩, told inPlaceActs, [], 0⟩

/-- The run itself counts one. -/
theorem exists_real_changed : ∃ T crew w,
    Did (.start (walk inPlace (Place.path []) (Path.ofString "src"))) T crew ∧ crew.Ended ∧
      World.Mets Host.touchy.system (.start disk) T w ∧ w.tally.changed = 1 := by
  have asked {r : Request} {a : r.Answer} {w w' : World} (free : World.refusal .touchy r = none)
      (answered : w.answer .touchy r = (a, w')) : (Act.asked r a).Met Host.touchy.system w w' :=
    ⟨free, answered⟩
  have put : disk.write [] (Place.path [src, aJs]) "x".toUTF8 = .ok written.disk :=
    names_aJs.write_file rfl _
  have task : World.Mets Host.touchy.system (.start disk) inPlaceActs written := by
    refine .cons (asked rfl rfl) (.cons (asked rfl (congrArg (·, _) stat_aJs)) ?_)
    refine .cons (asked rfl (congrArg (·, _) read_aJs)) ?_
    refine .cons (asked rfl (congrArg (World.commit _) put)) ?_
    exact .cons (asked rfl rfl) (.cons (asked rfl rfl) .nil)
  obtain ⟨w, closes, same⟩ := exists_mets_closing (S := Host.touchy.system) inPlace (fun _ => id)
    written (touchy_taken (Walk.tellsDiff_summary inPlace (Place.path [src]) written.tally))
  refine ⟨_, _, w, (did_opening (by decide +kernel)).trans
    ((did_task plays_inPlaceActs).trans (did_closing inPlace written.tally)), trivial, ?_, ?_⟩
  · exact (mets_opening rfl inPlace (fun _ => id) _ rfl).append ((task.inside 0).append closes)
  · rw [same]
    rfl

end OneFile

/-! ### A listing that goes on meanwhile -/

/-- An entry stands in a directory. -/
def World.Stands (h : Host) (w : World) (p : Path) (e : Name × FileKind) : Prop :=
  ∃ dir, w.disk.find h.cwd p = .ok (dir, .dir) ∧ e ∈ w.disk.children dir

/-- How requests are met where a listing goes on while files are made and taken away.  It holds what
    stood in the directory when it was opened, and perhaps more; of all that, what comes up is what
    stands there by then. -/
inductive World.LiveAnswer (h : Host) (w : World) : (r : Request) → r.Answer → World → Prop
  | other {r : Request} {a : r.Answer} {w' : World} (unlisted : r.isListing = false)
      (answered : w.answer h r = (a, w')) : LiveAnswer h w r a w'
  | unopened {p : Path} {e : OsError} (failed : w.disk.list h.cwd p = .error e) :
      LiveAnswer h w (.list p) (.error e) w
  | opened {p : Path} {l l' : Listing p} (listed : w.disk.list h.cwd p = .ok l)
      (holds : l.entries <+: l'.entries) : LiveAnswer h w (.list p) (.ok l') w
  | entry {p : Path} {l : Listing p} {gone : List (Name × FileKind)} {name : Name} {kind : FileKind}
      {rest : l.Shorter} (comes : l.entries = gone ++ (name, kind) :: rest.1.entries)
      (passed : ∀ e ∈ gone, ¬ w.Stands h p e) (stands : w.Stands h p (name, kind)) :
      LiveAnswer h w (.next p l) (.ok (some ((name, .ok kind), rest))) w
  | ended {p : Path} {l : Listing p} (passed : ∀ e ∈ l.entries, ¬ w.Stands h p e) :
      LiveAnswer h w (.next p l) (.ok none) w

open Classical in
theorem World.exists_liveAnswer (h : Host) (w : World) {p : Path} (l : Listing p) :
    ∃ a, LiveAnswer h w (.next p l) a w := by
  cases first : l.entries.find? fun e => decide (w.Stands h p e) with
  | none =>
    exact ⟨_, .ended fun e mem => by simpa using List.find?_eq_none.1 first e mem⟩
  | some e =>
    obtain ⟨stands, gone, rest, comes, passed⟩ := List.find?_eq_some_iff_append.1 first
    have shorter : rest.length < l.entries.length := by
      rw [comes, List.length_append, List.length_cons]
      omega
    let left : l.Shorter := ⟨⟨rest, l.length_le⟩, shorter⟩
    have comes : l.entries = gone ++ (e.1, e.2) :: left.1.entries := comes
    exact ⟨_, .entry comes (fun e mem => by simpa using passed e mem) (by simpa using stands)⟩

/-- The system of a host of which the listings go on meanwhile. -/
def Host.live (h : Host) : System where
  host := h
  answers := World.LiveAnswer h
  total w r free := by
    cases r with
    | list p =>
      cases listed : w.disk.list h.cwd p with
      | ok l => exact ⟨_, _, .opened listed (List.prefix_refl _)⟩
      | error e => exact ⟨_, _, .unopened listed⟩
    | next p l =>
      obtain ⟨a, answered⟩ := World.exists_liveAnswer h w l
      exact ⟨a, w, answered⟩
    | _ => exact ⟨_, _, .other rfl rfl⟩

theorem Host.live_honest (h : Host) : h.live.Honest where
  look {w r a w'} look answered := by
    cases answered with
    | other _ answered => exact h.system_honest.look look answered
    | unopened _ | opened _ _ | entry _ _ _ | ended _ => rfl
  change {w r a w'} change answered := by
    cases answered with
    | other _ answered => exact h.system_honest.change change answered
    | unopened _ | opened _ _ | entry _ _ _ | ended _ => cases change
  book {w r a w'} book answered := by
    cases answered with
    | other _ answered => exact answered
    | unopened _ | opened _ _ | entry _ _ _ | ended _ => cases book

namespace OneFile

/-- A plan that takes copies for sources. -/
def copies : Plan := { plan with extensions := ⟨[".js", ".tmp"]⟩ }

/-- `/src` when it is opened, with room for the copy of its file. -/
def wide : Listing (Place.path [src]) := ⟨[(aJs, .file), (aJs.copy, .file)], length_src_le⟩

def left : wide.Shorter := ⟨⟨[(aJs.copy, .file)], length_src_le⟩, Nat.lt_succ_self 1⟩

def nothing : left.1.Shorter := ⟨⟨[], length_src_le⟩, Nat.zero_lt_one⟩

section

variable (plan : Plan)

/-- What a run over `/src` does first. -/
def wideOpening : List Act :=
  [.asked (.stat (Place.path [src])) (.ok ⟨.directory, 4096, 0o755⟩),
    .asked (.list (Place.path [src])) (.ok wide),
    .asked (.next (Place.path [src]) wide) (.ok (some ((aJs, .ok .file), left))),
    .spawned (task plan)]

/-- What is left then for the lead to do. -/
def wideRest : Job :=
  (Walk.entries plan (Place.path [src]) left.1).followedBy
    (Walk.tellSummary plan (Place.path [src])).job

variable {plan}

theorem did_wideOpening (admits : plan.extensions.admits (Place.path [src, aJs]) = true) :
    Did (.start (walk plan (Place.path []) (Path.ofString "src"))) (wideOpening plan)
      ⟨wideRest plan, [.start (task plan)]⟩ := by
  rw [walk, absolute_src]
  refine .head (.ask _) ?_
  change Did ⟨(Walk.directory plan (Place.path [src])).followedBy _, []⟩ _ _
  rw [Walk.directory]
  refine .head (.ask _) ?_
  change Did ⟨(Walk.entries plan (Place.path [src]) wide).followedBy _, []⟩ _ _
  rw [Walk.entries]
  refine .head (.ask _) ?_
  change Did ⟨(if plan.extensions.admits ((Place.path [src]).child aJs) then _ else _ :
    Job).followedBy _, []⟩ _ _
  rw [child_src, if_pos admits]
  exact .head .spawn .refl

theorem wideRest_going : ¬ (wideRest plan).Ended := by
  rw [wideRest, Walk.entries]
  exact id

end

theorem asked_live {r : Request} {a : r.Answer} {w w' : World} (unlisted : r.isListing = false)
    (answered : w.answer (.quiet []) r = (a, w')) :
    (Act.asked r a).Met (Host.quiet []).live w w' := by
  refine ⟨?_, .other unlisted answered⟩
  cases r with
  | note n => cases n <;> rfl
  | _ => rfl

theorem mets_wideOpening (plan : Plan) :
    World.Mets (Host.quiet []).live (.start disk) (wideOpening plan) (.start disk) := by
  have stands : World.Stands (.quiet []) (.start disk) (Place.path [src]) (aJs, .file) :=
    ⟨[src], find_src, List.mem_singleton_self _⟩
  refine .cons (asked_live rfl (congrArg (·, _) stat_src)) ?_
  refine .cons ⟨rfl, .opened list_src ⟨[(aJs.copy, .file)], rfl⟩⟩ ?_
  have comes : wide.entries = [] ++ (aJs, .file) :: left.1.entries := rfl
  exact .cons ⟨rfl, .entry comes (List.forall_mem_nil _) stands⟩ (.cons rfl .nil)

/-- A dry run, in which no copy comes up, counts one file. -/
theorem exists_dry_scanned : ∃ T crew w,
    Did (.start (walk { copies with dryRun := true } (Place.path []) (Path.ofString "src"))) T
      crew ∧ crew.Ended ∧ World.Mets (Host.quiet []).live (.start disk) T w ∧ w.tally.scanned = 1 := by
  have plays : (Walk.processFile { copies with dryRun := true } (Place.path [src, aJs])).Plays
      fileActs (some (some 1)) := plays_fileActs
  have task : Did (.start (task { copies with dryRun := true })) (fileActs ++ []) (.start .done) :=
    Did.andThen plays .refl
  rw [List.append_nil] at task
  have ended : ∀ c ∈ [Crew.start .done], c.Ended := List.forall_mem_singleton.2 trivial
  have inside : Did ⟨wideRest { copies with dryRun := true }, [.start (OneFile.task _)]⟩
      (fileActs.map (.inside 0)) ⟨wideRest { copies with dryRun := true }, [.start .done]⟩ :=
    Did.inside wideRest_going rfl task
  have closes : Did ⟨wideRest { copies with dryRun := true }, [.start .done]⟩
      (.asked (.next (Place.path [src]) left.1) (.ok none) ::
        (closing { copies with dryRun := true } ⟨1, 1, 1, 0⟩).drop 1) ⟨.done, [.start .done]⟩ := by
    rw [wideRest, Walk.entries]
    exact .head (.ask _) (.head (.join ended (.refl _))
      (.head (.ask _) (.head (.ask _) (.head (.ask _) .refl))))
  have passed : ∀ e ∈ left.1.entries, ¬ World.Stands (.quiet [])
      ⟨disk, ⟨1, 1, 1, 0⟩, told fileActs, [], 0⟩ (Place.path [src]) e := by
    rintro e mem ⟨dir, found, stands⟩
    cases find_src.symm.trans found
    cases List.mem_singleton.1 mem
    cases List.mem_singleton.1 stands
  refine ⟨_, _, ⟨disk, ⟨1, 1, 1, 0⟩, told (fileActs ++
    (closing { copies with dryRun := true } ⟨1, 1, 1, 0⟩).drop 1), [], 0⟩,
    (did_wideOpening (by decide +kernel)).trans (inside.trans closes), trivial,
    (mets_wideOpening _).append ?_, rfl⟩
  refine .cons (asked_live rfl rfl) (.cons (asked_live rfl (congrArg (·, _) stat_aJs)) ?_)
  refine .cons (asked_live rfl (congrArg (·, _) read_aJs)) (.cons (asked_live rfl rfl) ?_)
  refine .cons (asked_live rfl rfl) (.cons (asked_live rfl rfl) (.cons ⟨rfl, .ended passed⟩ ?_))
  refine .cons rfl (.cons (asked_live rfl rfl) (.cons (asked_live rfl rfl) ?_))
  exact .cons (asked_live rfl rfl) .nil

def copyPath : Path := Place.path [src, aJs.copy]

/-- What the task of `/src/a.js` does until it has made the copy. -/
def copyActs : List Act :=
  .asked (.count ⟨1, 0, 0, 0⟩) () :: (looks ++
    [.asked (.resolve (Place.path [src, aJs])) (.ok [src, aJs]),
      .asked (.stat (Place.path [src, aJs])) (.ok ⟨.file, source.toUTF8.size, 0o640⟩),
      .asked (.write copyPath "x".toUTF8) (.ok ())])

/-- And what behind that. -/
def moveActs : List Act :=
  [.asked (.chmod copyPath 0o640) (.ok ()), .asked (.rename copyPath (Place.path [src, aJs])) (.ok ()),
    .asked (.count ⟨0, 1, 1, 0⟩) (),
    .asked (.note (.event (Walk.rewriteEvent copies (Place.path [src, aJs]) 1))) ()]

theorem plays_copyActs :
    (Walk.processFile copies (Place.path [src, aJs])).Plays (copyActs ++ moveActs) (some (some 1)) := by
  have differs : ¬ (copies.pattern.sweep source).isUnchanged = true := by decide +kernel
  have modified : (copies.pattern.sweep source).modified = "x" := by decide +kernel
  have one : (copies.pattern.sweep source).count = 1 := by decide +kernel
  have swept : (Walk.sweepFile copies (Place.path [src, aJs])).Plays (copyActs ++ moveActs)
      (some (.ok 1)) := by
    refine .ask ?_
    change Plays ((readSource (Place.path [src, aJs]) copies.maxFileSize).bind _)
      (looks ++ ([_, _, _] ++ moveActs)) _
    refine Plays.bind plays_looks ?_
    change Plays (if (copies.pattern.sweep source).isUnchanged then _ else _) _ _
    rw [if_neg differs, modified, one]
    exact .ask (.ask (.ask (.ask (.ask (.ask (.ask .done))))))
  have whole : (Walk.processFile copies (Place.path [src, aJs])).Plays
      (copyActs ++ moveActs ++ []) (some (some 1)) := Plays.bind swept .done
  rwa [List.append_nil] at whole

/-- The world when the copy has been made. -/
def copied : World :=
  ⟨disk.withFile [src, aJs.copy] ⟨"x".toUTF8, Disk.newFileMode⟩, ⟨1, 0, 0, 0⟩, [], [], 0⟩

theorem write_copy : disk.write [] copyPath "x".toUTF8 = .ok copied.disk := by
  have names : disk.Names [] (Place.path [src, aJs.copy]) ([src] ++ [aJs.copy]) :=
    .of_rooted (rooted.of_append.concat rfl (by decide +kernel)) (List.cons_ne_nil _ _)
      (fun _ link => by cases (no_copy [src] aJs).symm.trans link)
      (Disk.checkPath_eq_ok_iff.2 (by decide +kernel))
  exact names.write_new (no_copy [src] aJs) _

/-- By then the copy stands beside its file. -/
theorem stands_copy : copied.Stands (.quiet []) (Place.path [src]) (aJs.copy, .file) := by
  have frame : Frame ∅ disk copied.disk :=
    Disk.frame_withFile (List.cons_ne_nil _ _) (no_copy [src] aJs)
  have made : copied.disk.entry? ([src] ++ [aJs.copy]) = some (.file disk.freshInode) := by
    show Disk.entry? (disk.withFile ([src] ++ [aJs.copy]) _) _ = _
    rw [Disk.entry?_withFile (concat_ne_nil _ _), Function.update_self]
  exact ⟨[src], (names_src.of_frame frame).find (e := .dir) ((frame.dir_iff [src]).2 rfl),
    (Disk.mem_children_iff _ _ _ _).2 ⟨_, made, rfl⟩⟩

/-- The task of the copy. -/
def copyTask : Job :=
  (Walk.processFile copies ((Place.path [src]).child aJs.copy)).andThen fun _ => .done

/-- The copy comes up, and its task counts it. -/
def comingActs : List Act :=
  [.asked (.next (Place.path [src]) left.1) (.ok (some ((aJs.copy, .ok .file), nothing))),
    .spawned copyTask, .inside 1 (.asked (.count ⟨1, 0, 0, 0⟩) ())]

/-- A run in which the copy comes up counts two files. -/
theorem exists_real_scanned : ∃ T crew w,
    Did (.start (walk copies (Place.path []) (Path.ofString "src"))) T crew ∧ crew.Ended ∧
      World.Mets (Host.quiet []).live (.start disk) T w ∧ 2 ≤ w.tally.scanned := by
  have task : Did (.start (task copies)) (copyActs ++ moveActs ++ []) (.start .done) :=
    Did.andThen plays_copyActs .refl
  rw [List.append_assoc] at task
  obtain ⟨c, did, -⟩ := task.of_append
  have inside : Did ⟨wideRest copies, [.start (OneFile.task copies)]⟩ (copyActs.map (.inside 0))
      ⟨wideRest copies, [c]⟩ := Did.inside wideRest_going rfl did
  -- the copy comes up and gets a task, which counts it
  obtain ⟨c', counts⟩ : ∃ c', Crew.Does (.start copyTask) (.asked (.count ⟨1, 0, 0, 0⟩) ()) c' :=
    ⟨_, .ask _⟩
  have comes : Did ⟨wideRest copies, [c]⟩ comingActs
      ⟨(Walk.entries copies (Place.path [src]) nothing.1).followedBy
        (Walk.tellSummary copies (Place.path [src])).job, [c, c']⟩ := by
    have admits : copies.extensions.admits ((Place.path [src]).child aJs.copy) = true := by
      decide +kernel
    have going : ¬ ((Walk.entries copies (Place.path [src]) nothing.1).followedBy
        (Walk.tellSummary copies (Place.path [src])).job).Ended := by
      rw [Walk.entries]
      exact id
    rw [wideRest, Walk.entries]
    refine .head (.ask _) ?_
    change Did ⟨(if copies.extensions.admits ((Place.path [src]).child aJs.copy) then _ else _ :
      Job).followedBy _, [c]⟩ _ _
    rw [if_pos admits]
    exact .head .spawn (.head (.inside going rfl counts) .refl)
  have mets : World.Mets (Host.quiet []).live (.start disk) copyActs copied := by
    refine .cons (asked_live rfl rfl) (.cons (asked_live rfl (congrArg (·, _) stat_aJs)) ?_)
    refine .cons (asked_live rfl (congrArg (·, _) read_aJs)) ?_
    refine .cons (asked_live rfl (congrArg (·, _) (names_aJs.resolve_eq (e := .file 0) rfl))) ?_
    refine .cons (asked_live rfl (congrArg (·, _) stat_aJs)) ?_
    exact .cons (asked_live rfl (congrArg (World.commit _) write_copy)) .nil
  have next : left.1.entries = [] ++ (aJs.copy, .file) :: nothing.1.entries := rfl
  have counted : World.Mets (Host.quiet []).live copied comingActs
      { copied with tally := ⟨2, 0, 0, 0⟩ } :=
    .cons ⟨rfl, .entry next (List.forall_mem_nil _) stands_copy⟩ (.cons rfl
      (.cons (asked_live rfl rfl) .nil))
  -- whatever is done afterwards, no count gets less
  obtain ⟨T, crew', w, later, ended, mets'⟩ := Crew.exists_ended (S := (Host.quiet []).live) _
    { copied with tally := ⟨2, 0, 0, 0⟩ }
  refine ⟨_, crew', w, (did_wideOpening (by decide +kernel)).trans (inside.trans
    (comes.trans later)), ended, (mets_wideOpening copies).append ((mets.inside 0).append
      (counted.append mets')), ?_⟩
  rw [Walk.tally_eq_of_mets (Host.quiet []).live_honest mets']
  exact Nat.le_add_right 2 _

end OneFile

open OneFile (refusing inPlace copies) in
/-- A dry run whose diff is refused does not foretell that the file is changed.  And where a listing
    goes on while files are written, a run that takes copies for sources may come to a copy that it
    has made itself, and counts one more file. -/
theorem not_forecast_unconditional :
    ¬ (walk refusing (Place.path []) (Path.ofString "src")).Ends Host.touchy.system
        (fun _ _ dry => (walk inPlace (Place.path []) (Path.ofString "src")).Ends Host.touchy.system
          (fun _ _ real => dry.tally.changed =
            real.tally.changed + (Walk.writeFailures real.notes).length)
          (.start OneFile.disk)) (.start OneFile.disk) ∧
      ¬ (walk { copies with dryRun := true } (Place.path []) (Path.ofString "src")).Ends
        (Host.quiet []).live (fun _ _ dry =>
          (walk copies (Place.path []) (Path.ofString "src")).Ends (Host.quiet []).live
            (fun _ _ real => dry.tally.scanned = real.tally.scanned) (.start OneFile.disk))
        (.start OneFile.disk) := by
  constructor
  · intro foretells
    obtain ⟨T, crew, dry, did, ended, mets, none_⟩ := OneFile.exists_dry_refused
    obtain ⟨T', crew', real, did', ended', mets', one⟩ := OneFile.exists_real_changed
    have same := (foretells.of_did did ended mets).of_did did' ended' mets'
    omega
  · intro foretells
    obtain ⟨T, crew, dry, did, ended, mets, one⟩ := OneFile.exists_dry_scanned
    obtain ⟨T', crew', real, did', ended', mets', two⟩ := OneFile.exists_real_scanned
    have same := (foretells.of_did did ended mets).of_did did' ended' mets'
    omega

end CallSweep
