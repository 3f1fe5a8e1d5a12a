/-
  What a walk comes across behind a veil.

  Two runs over the same disk take turns in different ways, and the one may write where the other
  does not.  Each is held against what can be told from the disk beforehand.

  1. **Visits** (`Walk.visits`, `Walk.rootVisits`) — the files that a walk hands over and the
     troubles that it has, found by the same recursion as the walk.  No file is visited twice
     (`Walk.nodup_files_rootVisits`).

  2. **Directories** (`Walk.Parts.directory_visits`) — by induction on the trace: whatever the order
     of turns, the walk of a directory comes across these, in some order.

  3. **Roots** (`Walk.Parts.walk_visits`) — the same from any root.

  4. **Texts** (`Walk.Kept.exists_reading`) — what is read of a file that was handed over.
-/
import CallSweep.Proofs.Run.Veil
import CallSweep.Proofs.Walk.Parts

namespace CallSweep

open Disk (AgreeOn Frame)
open Crew (Did)
open Script (Plays)

namespace Walk

open Place (under)

/-! ## Visits -/

/-- What a walk comes across: a file that it hands over, or a directory or an entry with which it can
    do nothing. -/
inductive Visit where
  | file (f : Path)
  | trouble

/-- What the walk of a directory comes across. -/
def visits (ρ : Veil) (plan : Plan) (d : Disk) (cwd : Place) (p : Path) : List Visit :=
  match Veil.hide (ρ.list p) (d.list cwd p) with
  | .error _ => [.trouble]
  | .ok ⟨entries, _⟩ =>
    entries.flatMap fun (name, kind) =>
      if (ρ.kind (p.child name)).isSome then [.trouble]
      else match kind with
        | .directory => if plan.skips name then [] else visits ρ plan d cwd (p.child name)
        | .file => if plan.extensions.admits (p.child name) then [.file (p.child name)] else []
        | .other => []
  termination_by maxPath + 1 - p.length
  decreasing_by
    have := Path.length_lt_length_child p name
    omega

/-- What the task of an entry comes across. -/
def taskVisits (ρ : Veil) (plan : Plan) (d : Disk) (cwd : Place) (p : Path) :
    Name × FileKind → List Visit
  | (name, .directory) => if plan.skips name then [] else visits ρ plan d cwd (p.child name)
  | (name, .file) => if plan.extensions.admits (p.child name) then [.file (p.child name)] else []
  | (_, .other) => []

/-- What the walk of a directory comes across by one of its entries. -/
def entryVisits (ρ : Veil) (plan : Plan) (d : Disk) (cwd : Place) (p : Path)
    (e : Name × FileKind) : List Visit :=
  if (ρ.kind (p.child e.1)).isSome then [.trouble] else taskVisits ρ plan d cwd p e

/-- What a run comes across. -/
def rootVisits (ρ : Veil) (plan : Plan) (d : Disk) (cwd : Place) (q : Path) : List Visit :=
  match Veil.hide (ρ.stat q) (d.stat cwd q) with
  | .error _ => [.trouble]
  | .ok stat =>
    match stat.kind with
    | .directory => visits ρ plan d cwd q
    | .file => if plan.extensions.admits q then [.file q] else []
    | .other => []

/-- What a run came across: the files that it handed over, and its troubles. -/
def seen (ss : List Handed) (fs : List Failure) : List Visit :=
  ss.map (fun s => .file s.path) ++ fs.map fun _ => .trouble

section

variable {ρ : Veil} {plan : Plan} {d : Disk} {cwd : Place} {p : Path} {l : Listing p}
  {name : Name} {kind : FileKind}

theorem visits_of_error {e : OsError} (denied : Veil.hide (ρ.list p) (d.list cwd p) = .error e) :
    visits ρ plan d cwd p = [.trouble] := by
  rw [visits, denied]

theorem visits_of_listed (listed : Veil.hide (ρ.list p) (d.list cwd p) = .ok l) :
    visits ρ plan d cwd p = l.entries.flatMap (entryVisits ρ plan d cwd p) := by
  rw [visits, listed]
  refine congrArg (l.entries.flatMap ·) (funext fun (name, kind) => ?_)
  cases kind <;> rfl

/-- An entry that gets no task. -/
theorem taskVisits_of_idle (idle : task plan p (name, kind) = none) :
    taskVisits ρ plan d cwd p (name, kind) = [] := by
  cases kind with
  | directory => exact if_pos (by simpa [task] using idle)
  | file => exact if_neg (by simpa [task] using idle)
  | other => rfl

/-- Whether the run is dry makes no difference. -/
theorem visits_dryRun (dry : Bool) :
    visits ρ { plan with dryRun := dry } d cwd p = visits ρ plan d cwd p := by
  induction room : maxPath + 1 - p.length using Nat.strongRecOn generalizing p with
  | ind n ih =>
  subst room
  cases listed : Veil.hide (ρ.list p) (d.list cwd p) with
  | error e => rw [visits_of_error listed, visits_of_error listed]
  | ok l =>
    rw [visits_of_listed listed, visits_of_listed listed]
    refine congrArg (l.entries.flatMap ·) (funext fun (name, kind) => ?_)
    have same := ih _ (room_child_lt l name) rfl
    rw [entryVisits, entryVisits]
    refine congrArg (ite _ _ ·) ?_
    cases kind with
    | directory => exact congrArg (ite _ [] ·) same
    | file | other => rfl

theorem rootVisits_dryRun (dry : Bool) :
    rootVisits ρ { plan with dryRun := dry } d cwd p = rootVisits ρ plan d cwd p := by
  rw [rootVisits, rootVisits, visits_dryRun]

/-! ### No file is visited twice -/

/-- The files among some visits. -/
def files (vs : List Visit) : List Path :=
  vs.filterMap fun
    | .file f => some f
    | .trouble => none

theorem base_foldl_child (p : Path) (names : List Name) :
    (names.foldl Path.child p).base = p.base ++ names.map .down := by
  induction names generalizing p with
  | nil => exact (List.append_nil _).symm
  | cons name names ih =>
    rw [List.foldl_cons, ih, Path.base_child, List.append_assoc]
    rfl

/-- The files of an entry that are visited, given those of the directory that it may be. -/
theorem files_entryVisits {e : Name × FileKind}
    (sub : (files (visits ρ plan d cwd (p.child e.1))).Nodup ∧
      ∀ f ∈ files (visits ρ plan d cwd (p.child e.1)),
        ∃ names : List Name, f = names.foldl Path.child (p.child e.1)) :
    (files (entryVisits ρ plan d cwd p e)).Nodup ∧
      ∀ f ∈ files (entryVisits ρ plan d cwd p e),
        ∃ names : List Name, f = names.foldl Path.child (p.child e.1) := by
  have nothing : (files []).Nodup ∧
      ∀ f ∈ files [], ∃ names : List Name, f = names.foldl Path.child (p.child e.1) :=
    ⟨List.nodup_nil, List.forall_mem_nil _⟩
  obtain ⟨name, kind⟩ := e
  rw [entryVisits]
  split
  · exact nothing
  · cases kind with
    | directory =>
      rw [taskVisits]
      split
      · exact nothing
      · exact sub
    | file =>
      rw [taskVisits]
      split
      · exact ⟨List.nodup_singleton _, List.forall_mem_singleton.2 ⟨[], rfl⟩⟩
      · exact nothing
    | other => exact nothing

/-- The walk of a directory visits no file twice, and only files below the directory. -/
theorem files_visits (ρ : Veil) (plan : Plan) (d : Disk) (cwd : Place) (p : Path) :
    (files (visits ρ plan d cwd p)).Nodup ∧
      ∀ f ∈ files (visits ρ plan d cwd p), ∃ names : List Name, f = names.foldl Path.child p := by
  induction room : maxPath + 1 - p.length using Nat.strongRecOn generalizing p with
  | ind n ih =>
  subst room
  cases listed : Veil.hide (ρ.list p) (d.list cwd p) with
  | error e =>
    rw [visits_of_error listed]
    exact ⟨List.nodup_nil, List.forall_mem_nil _⟩
  | ok l =>
    rw [visits_of_listed listed]
    have each (e : Name × FileKind) := files_entryVisits (e := e) (ih _ (room_child_lt l e.1) _ rfl)
    have flat : files (l.entries.flatMap (entryVisits ρ plan d cwd p)) =
        l.entries.flatMap fun e => files (entryVisits ρ plan d cwd p e) := List.filterMap_flatMap
    rw [flat]
    refine ⟨List.nodup_flatMap.2 ⟨fun e _ => (each e).1, ?_⟩, fun f mem => ?_⟩
    · -- no two entries have one name, which the path of a file shows
      obtain ⟨dir, -, same⟩ := Disk.find_of_list (Veil.hide_eq_ok_iff.1 listed).2
      refine (List.pairwise_map.1 (same ▸ d.nodup_children dir)).imp fun {e e'} ne f mem mem' => ne ?_
      obtain ⟨names, rfl⟩ := (each e).2 f mem
      obtain ⟨names', spelled⟩ := (each e').2 _ mem'
      have bases := congrArg Path.base spelled
      rw [base_foldl_child, base_foldl_child, Path.base_child, Path.base_child, List.append_assoc,
        List.append_assoc] at bases
      have same := (List.cons.inj (List.append_cancel_left bases)).1
      injection same
    · obtain ⟨e, -, mem⟩ := List.mem_flatMap.1 mem
      obtain ⟨names, rfl⟩ := (each e).2 f mem
      exact ⟨e.1 :: names, rfl⟩

/-- A run visits no file twice. -/
theorem nodup_files_rootVisits (ρ : Veil) (plan : Plan) (d : Disk) (cwd : Place) (q : Path) :
    (files (rootVisits ρ plan d cwd q)).Nodup := by
  unfold rootVisits
  split
  · exact List.nodup_nil
  · split
    · exact (files_visits ρ plan d cwd q).1
    · split
      · exact List.nodup_singleton _
      · exact List.nodup_nil
    · exact List.nodup_nil

/-! ## Listings -/

variable {O : List Act} {job' : Job}

/-- What comes up behind a veil is the first entry that is left, of the kind that the veil lets
    through. -/
theorem entries_of_veiled {told : Except OsError FileKind} {rest : l.Shorter}
    (next : .ok (some ((name, told), rest)) = ρ.next l) :
    ∃ kind, l.entries = (name, kind) :: rest.1.entries ∧
      told = Veil.hide (ρ.kind (p.child name)) (.ok kind) := by
  rw [Veil.next] at next
  cases left : l.next? with
  | none =>
    rw [left] at next
    cases next
  | some e =>
    rw [left] at next
    cases next
    exact ⟨_, eq_cons_of_next? left, rfl⟩

theorem entries_of_veiled_end (next : .ok none = ρ.next l) : l.entries = [] := by
  rw [Veil.next] at next
  cases left : l.next? with
  | none => exact eq_nil_of_next? left
  | some e =>
    rw [left] at next
    cases next

/-- An entry that the veil hides is a trouble. -/
theorem entryVisits_of_hidden {e : OsError}
    (told : .error e = Veil.hide (ρ.kind (p.child name)) (.ok kind)) :
    entryVisits ρ plan d cwd p (name, kind) = [.trouble] := by
  cases veil : ρ.kind (p.child name) with
  | some e => exact if_pos (by rw [veil]; rfl)
  | none =>
    rw [veil] at told
    cases told

theorem entryVisits_of_shown (veil : ρ.kind (p.child name) = none) :
    entryVisits ρ plan d cwd p (name, kind) = taskVisits ρ plan d cwd p (name, kind) :=
  if_neg (by simp [veil])

/-- What comes up behind a veil: each entry is a trouble, or gets a task, or is passed over. -/
theorem Reading.visits_perm (reading : Reading plan p job' l O) (ended : job'.Ended)
    (veiled : ∀ (l : Listing p) a, .asked (.next p l) a ∈ O → a = ρ.next l) (whole : ¬ Snapped O) :
    (seen [] (troubles O) ++ (callers plan p O).flatMap (taskVisits ρ plan d cwd p)).Perm
      (l.entries.flatMap (entryVisits ρ plan d cwd p)) := by
  induction reading with
  | broken _ _ => cases veiled _ _ List.mem_cons_self
  | @ended l T rest =>
    have quiet := quiet_of_closing rest ended
    rw [entries_of_veiled_end (veiled _ _ List.mem_cons_self)]
    show (seen [] (troubles T) ++ (callers plan p T).flatMap _).Perm _
    rw [quiet.troubles_eq, quiet.callers_eq]
    exact .refl _
  | @untold l name e rest T₁ T₂ plays _ ih =>
    obtain ⟨kind, entries, told⟩ := entries_of_veiled (veiled _ _ List.mem_cons_self)
    have perm := ih (fun l a mem => veiled l a
      (List.mem_cons_of_mem _ (List.mem_append_right _ mem))) (mt (Snapped.of_rest _) whole)
    rw [callers_trouble rfl plays, troubles_trouble rfl plays, entries, List.flatMap_cons,
      entryVisits_of_hidden told]
    exact .cons _ perm
  | @down l a g T report trouble _ refused _ =>
    exact absurd (snapped_of_trouble trouble refused) whole
  | @passed l name kind rest T₁ T₂ idle logs _ ih =>
    obtain ⟨kind', entries, told⟩ := entries_of_veiled (veiled _ _ List.mem_cons_self)
    obtain ⟨veil, same⟩ := Veil.hide_eq_ok_iff.1 told.symm
    cases same
    have perm := ih (fun l a mem => veiled l a
      (List.mem_cons_of_mem _ (List.mem_append_right _ mem))) (mt (Snapped.of_rest _) whole)
    rw [callers_passed idle logs, troubles_passed logs, entries, List.flatMap_cons,
      entryVisits_of_shown veil, taskVisits_of_idle idle]
    exact perm
  | @started l name kind rest job T made _ ih =>
    obtain ⟨kind', entries, told⟩ := entries_of_veiled (veiled _ _ List.mem_cons_self)
    obtain ⟨veil, same⟩ := Veil.hide_eq_ok_iff.1 told.symm
    cases same
    have whole' : ¬ Snapped T := mt (Snapped.of_rest [.spawned job]) whole
    have perm := ih (fun l a mem => veiled l a
      (List.mem_cons_of_mem _ (List.mem_cons_of_mem _ mem))) whole'
    rw [entries, List.flatMap_cons, entryVisits_of_shown veil, callers_started made,
      List.flatMap_cons]
    show (seen [] (troubles T) ++ (_ ++ (callers plan p T).flatMap _)).Perm _
    exact (List.perm_append_comm_assoc ..).trans (perm.append_left _)

end

/-! ## Directories -/

section

variable {h : Host} {ρ : Veil} {I : Disk → Prop} {plan : Plan} {d₀ d' : Disk} {q p : Path}
  {part : Path → Place → Set Place} {dir : Place} {T : List Act} {crew : Crew}

/-- What is told of a listing behind a veil is told from the disk. -/
theorem veiled_of_possible (possible : ∀ act ∈ T, act.Possible (h.veiled ρ)) :
    ∀ (l : Listing p) a, .asked (.next p l) a ∈ own T → a = ρ.next l := by
  intro l a mem
  obtain ⟨w, w', -, answered⟩ := possible _ (mem_of_mem_own mem)
  exact answered.1

/-- What the lead of a directory came across, and its tasks. -/
theorem perm_seen_tasks {es : List (Name × FileKind)}
    (marked : ∀ i act, .inside i act ∈ T → i < es.length) :
    (seen (es.zipIdx.flatMap fun (e, i) => handedBy plan p e (within i T)) (troubles T)).Perm
      (seen [] (troubles (own T)) ++ es.zipIdx.flatMap fun (e, i) =>
        seen (handedBy plan p e (within i T)) (troubles (within i T))) := by
  have parts : (troubles T).Perm (troubles (own T) ++ es.zipIdx.flatMap fun x =>
      troubles (within x.2 T)) := by
    rw [List.flatMap_def, map_zipIdx es fun i => troubles (within i T), ← List.flatMap_def]
    exact perm_own_append_within (fun _ _ => rfl) marked
  have told := parts.map fun _ => Visit.trouble
  rw [List.map_append, List.map_flatMap] at told
  rw [seen, List.map_flatMap]
  refine (told.append_left _).trans ((List.perm_append_comm_assoc ..).trans (.append_left _ ?_))
  exact List.flatMap_append_perm ..

/-- What the task of an entry came across, given what the walks of directories do. -/
theorem task_visits {cwd : Place} {e : Name × FileKind} {job : Job} {c : Crew}
    (called : Called plan d₀ p dir e job) (did : Did (.start job) T c) (ended : c.Ended)
    {S : System} (among : Among S I (held part p dir e) d₀ T d')
    (sub : d₀.entry? (dir ++ [e.1]) = some .dir → plan.skips e.1 = false →
      Did (.start (directory plan (p.child e.1))) T c →
      Among S I (under (dir ++ [e.1])) d₀ T d' →
      (seen (handedIn plan (p.child e.1) T) (troubles T)).Perm
        (visits ρ plan d₀ cwd (p.child e.1))) :
    (seen (handedBy plan p e T) (troubles T)).Perm (taskVisits ρ plan d₀ cwd p e) := by
  cases called with
  | directory isDir entered =>
    rw [taskVisits, if_neg (by simp [entered])]
    exact sub isDir entered did among
  | file _ admitted =>
    obtain ⟨y, plays⟩ := exists_plays did ended
    rw [(quiet_of_plays (processFile_unlisted _ _) plays).troubles_eq, taskVisits, if_pos admitted]
    exact .refl _

/-- Where a directory is not listed, it cannot be told either what is in it. -/
theorem hide_list_error (frame : ∀ d, I d → Frame {x | d₀.Alone x} d₀ d) {e : OsError}
    (among : Among (h.veiled ρ) I (under dir) d₀ (.asked (.list p) (.error e) :: T) d') :
    ∃ e, Veil.hide (ρ.list p) (d₀.list h.cwd p) = .error e := by
  cases among with
  | @head _ _ w _ _ _ kept _ met _ =>
    have denied : .error e = Veil.hide (ρ.list p) (w.disk.list h.cwd p) := met.2.1
    cases veil : ρ.list p with
    | some e' => exact ⟨e', rfl⟩
    | none =>
      rw [veil] at denied
      cases listed : d₀.list h.cwd p with
      | error e' => exact ⟨e', rfl⟩
      | ok l =>
        obtain ⟨y, found, -⟩ := Disk.find_of_list listed
        have isDir := (Disk.find_eq_ok_iff.1 found).2.2
        have f := frame _ kept
        obtain ⟨short, listed'⟩ := Disk.list_of_find (Disk.find_of_frame f found ((f.dir_iff y).2 isDir))
        cases denied.trans listed'

/-- **Directories**: the walk of a directory comes across what can be told from the disk. -/
theorem Parts.directory_visits (parts : Parts (h.veiled ρ) I plan d₀ q part)
    (below : ∀ f x, Meets plan d₀ p dir f x → Reaches plan d₀ h.cwd q f x) (ne : p.bytes ≠ [])
    (lead : ∀ y, d₀.find h.cwd p = .ok (y, .dir) → y = dir)
    (did : Did (.start (directory plan p)) T crew) (ended : crew.Ended) (whole : ¬ Snapped T)
    (among : Among (h.veiled ρ) I (under dir) d₀ T d') :
    (seen (handedIn plan p T) (troubles T)).Perm (visits ρ plan d₀ h.cwd p) := by
  induction size : T.length using Nat.strongRecOn generalizing p dir T crew with
  | ind n ih =>
  subst size
  rcases directory_leads did ended with ⟨e, T, x, rfl, -, -, plays⟩ | ⟨l, T, rfl, begun, reading⟩
  · obtain ⟨e', denied⟩ := hide_list_error parts.frame among
    have quiet := quiet_of_books (fail_books _) plays
    rw [visits_of_error denied, handedIn_unlisted]
    show (seen [] (.list p e :: troubles T)).Perm _
    rw [quiet.troubles_eq]
    exact .refl _
  · obtain ⟨found, perm⟩ := parts.entries_perm lead among
    obtain ⟨tasks, -⟩ := parts.directory_tasks below ne lead did ended whole reading begun among
    have whole' : ¬ Snapped T := fun snapped => whole (snapped.mono (List.subset_cons_self _ _))
    have possible := (List.forall_mem_cons.1 among.possible).2
    have marked (i : Nat) (act : Act) (mem : .inside i act ∈ T) : i < (callers plan p T).length :=
      length_tasks_eq begun (reading.led discreet_sums ended) ▸ begun.lt_of_mem mem
    have each : ∀ x ∈ (callers plan p T).zipIdx,
        (seen (handedBy plan p x.1 (within x.2 T)) (troubles (within x.2 T))).Perm
          (taskVisits ρ plan d₀ h.cwd p x.1) := by
      rintro ⟨e, i⟩ mem
      obtain ⟨job, c, called, did', ended', among'⟩ :=
        tasks i e (List.mem_zipIdx_iff_getElem?.1 mem)
      refine task_visits called did' ended' among' fun isDir entered did'' among'' => ?_
      have shorter : (within i T).length < (.asked (.list p) (.ok l) :: T : List Act).length :=
        Nat.lt_succ_of_le (length_within_le i T)
      exact ih _ shorter (fun f x meets => below f x (.enter isDir entered meets))
        (Path.child_ne_nil p e.1) (fun y found' => eq_concat_of_find_child ne found isDir found') did''
        ended' (fun snapped => whole' snapped.of_within) among'' rfl
    have found : d₀.find h.cwd p = .ok (dir, .dir) := found
    obtain ⟨short, listed⟩ := Disk.list_of_find found
    have opened : Veil.hide (ρ.list p) (d₀.list h.cwd p) = .ok ⟨d₀.children dir, short⟩ := by
      obtain ⟨w, w', -, answered⟩ := among.possible _ List.mem_cons_self
      rw [(Veil.hide_eq_ok_iff.1 answered.1.symm).1, listed]
      rfl
    have met : (seen [] (troubles (own T)) ++
          (callers plan p (own T)).flatMap (taskVisits ρ plan d₀ h.cwd p)).Perm
        (l.entries.flatMap (entryVisits ρ plan d₀ h.cwd p)) :=
      reading.visits_perm ended (veiled_of_possible possible) fun snapped =>
        whole' (snapped.mono fun _ => mem_of_mem_own)
    rw [callers_own] at met
    rw [visits_of_listed opened, handedIn_listed]
    refine (perm_seen_tasks marked).trans ?_
    refine ((List.Perm.flatMap_left _ each).append_left _).trans ?_
    have numbered : ((callers plan p T).zipIdx.flatMap fun x => taskVisits ρ plan d₀ h.cwd p x.1) =
        (callers plan p T).flatMap (taskVisits ρ plan d₀ h.cwd p) := by
      rw [← List.flatMap_map, List.zipIdx_map_fst]
    rw [numbered]
    exact met.trans (perm.flatMap_right _)

/-! ## Roots -/

/-- What is done about a root that is no directory reads no listing. -/
theorem aside_unlisted (plan : Plan) (q : Path) (answer : Except OsError Stat) :
    (aside plan q answer).Only fun r => r.isListing = false := by
  have books {s : Script Unit} (only : s.Only fun r => r.isBook = true) :
      s.Only fun r => r.isListing = false := only.mono fun _ => not_isListing_of_book
  rcases answer with e | ⟨kind, size, mode⟩
  · exact books (fail_books _)
  · cases kind with
    | directory => exact books (tell_books _)
    | other => exact books (tell_books _)
    | file =>
      show (file plan q).Only _
      rw [file]
      split
      · refine (processFile_unlisted plan q).bind fun removed => ?_
        cases removed with
        | some n => exact books (tell_books _)
        | none => trivial
      · exact books (tell_books _)

/-- A root that is a directory. -/
theorem Parts.root_visits (parts : Parts (h.veiled ρ) I plan d₀ q part) {w w' : World}
    (found : d₀.find h.cwd q = .ok (dir, .dir)) (did : Did (.start (directory plan q)) T crew)
    (ended : crew.Ended) (whole : ¬ Snapped T) (mets : World.Mets (h.veiled ρ) w T w')
    (same : w.disk = d₀) :
    (seen (handedIn plan q T) (troubles T)).Perm (visits ρ plan d₀ h.cwd q) := by
  have ne := (Disk.checkPath_eq_ok_iff.1 (Disk.find_eq_ok_iff.1 found).1).2.1
  have lead (y : Place) (found' : d₀.find h.cwd q = .ok (y, .dir)) : y = dir := by
    cases found.symm.trans found'
    rfl
  have below (f : Path) (x : Place) (meets : Meets plan d₀ q dir f x) :
      Reaches plan d₀ h.cwd q f x := (reaches_iff_of_dir found).2 meets
  obtain ⟨among, -⟩ := Among.of_mets (parts.directory_keepsTo below ne lead) did mets
    (same ▸ parts.start) (same ▸ .refl)
  exact parts.directory_visits below ne lead did ended whole among

/-- **Roots**: a walk comes across what can be told from the disk. -/
theorem Parts.walk_visits (parts : Parts (h.veiled ρ) I plan d₀ q part) {w w' : World}
    (did : Did (.start (absolute plan q)) T crew) (ended : crew.Ended) (whole : ¬ Snapped T)
    (mets : World.Mets (h.veiled ρ) w T w') (same : w.disk = d₀) :
    (seen (handedFrom plan q T) (troublesFrom q T)).Perm (rootVisits ρ plan d₀ h.cwd q) := by
  have looks {answer : Except OsError Stat} {w₁ : World}
      (met : Act.Met (h.veiled ρ) w (.asked (.stat q) answer) w₁) :
      w₁ = w ∧ Veil.hide (ρ.stat q) (d₀.stat h.cwd q) = answer :=
    ⟨met.2.2, same ▸ met.2.1.symm⟩
  have same_visits {stat : Stat} (isDir : stat.kind = .directory)
      (looked : Veil.hide (ρ.stat q) (d₀.stat h.cwd q) = .ok stat) :
      rootVisits ρ plan d₀ h.cwd q = visits ρ plan d₀ h.cwd q := by
    rw [rootVisits, looked]
    simp only [isDir]
  cases walked_of_did did ended with
  | @aside answer T _ other did =>
    cases mets with
    | cons met mets =>
    obtain ⟨-, looked⟩ := looks met
    obtain ⟨-, -, x, plays, -⟩ := job_did did (List.forall_mem_nil _) ended
    have quiet := quiet_of_plays (aside_unlisted plan q answer) plays
    rw [rootVisits, looked]
    rcases answer with e | ⟨kind, size, mode⟩
    · exact .refl _
    · have none_ : troublesFrom q (.asked (.stat q) (.ok ⟨kind, size, mode⟩) :: T) = [] :=
        quiet.troubles_eq
      rw [none_]
      cases kind with
      | directory => exact absurd rfl (other _ rfl)
      | file =>
        show (seen (if plan.extensions.admits q then [⟨q, T⟩] else []) []).Perm
          (if plan.extensions.admits q then [.file q] else [])
        split <;> exact .refl _
      | other => exact .refl _
  | broken isDir did crashed =>
    cases mets with
    | cons met mets =>
    obtain ⟨rfl, looked⟩ := looks met
    obtain ⟨dir, found⟩ := exists_dir_of_stat (Veil.hide_eq_ok_iff.1 looked).2 isDir
    rw [same_visits isDir looked, handedFrom_directory isDir]
    exact parts.root_visits found did ended
      (fun snapped => whole (snapped.mono (List.subset_cons_self _ _))) mets same
  | summed isDir did _ x plays _ =>
    cases mets with
    | cons met mets =>
    obtain ⟨rfl, looked⟩ := looks met
    obtain ⟨dir, found⟩ := exists_dir_of_stat (Veil.hide_eq_ok_iff.1 looked).2 isDir
    obtain ⟨w₂, mets, -⟩ := mets.of_append
    obtain ⟨handed, troubles⟩ := from_summed isDir did trivial plays
    rw [same_visits isDir looked, handed, troubles]
    exact parts.root_visits found did trivial
      (fun snapped => whole ((snapped.mono (List.subset_append_left _ _)).mono
        (List.subset_cons_self _ _))) mets same

/-! ## Texts -/

/-- What is read of a file that was handed over, whatever its siblings do. -/
theorem Kept.exists_reading {S : System} {s : Handed} {x : Place} (honest : S.Honest)
    {R : Except SourceError String → Prop} (kept : Kept S I plan d₀ part d' s x)
    (owns : ∀ d, I d → AgreeOn (part s.path x) d₀ d →
      (readSource s.path plan.maxFileSize).Owns S I (part s.path x) (fun _ result _ => R result)
        [] d) :
    ∃ result, s.reading plan = some result ∧ R result := by
  obtain ⟨T, rest, y, acts, plays, -⟩ := kept.plays
  obtain ⟨T₁, T₂, z, rfl, swept, -⟩ := processFile_split discreet_sums plays
  obtain ⟨read, T₃, T₄, rfl, reads, -⟩ := sweepFile_plays discreet_sums swept
  have spelled : s.acts = .asked (.count ⟨1, 0, 0, 0⟩) () :: (T₃ ++ (T₄ ++ (T₂ ++ rest))) := by
    simp [acts]
  have among := kept.among
  rw [spelled] at among
  cases among with
  | head here agree met later =>
    -- the file is counted before it is read
    have still : Act.Asks (fun r => r.isChange = false) (.asked (.count ⟨1, 0, 0, 0⟩) ()) := rfl
    rw [met.disk_eq honest still] at later
    obtain ⟨-, holds, -⟩ := (owns _ here agree).result reads rfl later
    exact ⟨read, Handed.reading_eq reads spelled, holds⟩

end

end Walk

end CallSweep
