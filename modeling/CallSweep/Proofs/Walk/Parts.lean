/-
  The tasks of a walk keep out of each other's way.

  1. **Parts** (`Walk.Parts`) — the task of each file that is reached owns a part of the disk.  The
     parts of two files do not meet, and a part reaches no further than the file's directory.

  2. **Directories** (`Walk.Parts.directory_keepsTo`) — by induction on how much longer paths can get,
     the walk of a directory keeps to the places below it: its lead leaves the disk alone, and the
     tasks that it starts keep to places that do not meet (`Walk.Parts.directory_apart`).

  3. **Files** (`Walk.Handles`, `Walk.Parts.directory_handles`) — so the task of each file acts among
     others on its part, and what belongs to no part stays as it is.  A file that is met is handed to
     the sweep, unless there was trouble on the way to it.

  4. **Roots** (`Walk.Parts.walk_handles`) — the same from any root.
-/
import CallSweep.Proofs.Walk.Tree

namespace CallSweep

open Disk (AgreeOn Frame)
open Crew (Did)
open Script (Plays)

namespace Walk

open Place (under)

/-- The task of each file that is reached from `q` owns a part of the disk, to which its sweep
    keeps. -/
structure Parts (S : System) (I : Disk → Prop) (plan : Plan) (d₀ : Disk) (q : Path)
    (part : Path → Place → Set Place) : Prop where
  fair : S.Fair
  frame : ∀ d, I d → Frame {x | d₀.Alone x} d₀ d
  beside : ∀ {f x y}, Reaches plan d₀ S.host.cwd q f x → y ∈ part f x →
    ∃ dir name other, x = dir ++ [name] ∧ y = dir ++ [other]
  apart : ∀ {f x f' x'}, Reaches plan d₀ S.host.cwd q f x → Reaches plan d₀ S.host.cwd q f' x' →
    x ≠ x' → ∀ y ∈ part f x, y ∉ part f' x'
  owns : ∀ {f x}, Reaches plan d₀ S.host.cwd q f x →
    ∃ Q, (sweepFile plan f).Owns S I (part f x) Q [] d₀
  start : I d₀

/-- The places that the task of an entry owns. -/
def held (part : Path → Place → Set Place) (p : Path) (dir : Place) (e : Name × FileKind) :
    Set Place :=
  match e.2 with
  | .directory => under (dir ++ [e.1])
  | .file => part (p.child e.1) (dir ++ [e.1])
  | .other => ∅

/-- The places that the task of a number owns. -/
def heldAt (part : Path → Place → Set Place) (p : Path) (dir : Place)
    (es : List (Name × FileKind)) (i : Nat) : Set Place :=
  match es[i]? with
  | some e => held part p dir e
  | none => ∅

theorem heldAt_eq {part : Path → Place → Set Place} {p : Path} {dir : Place}
    {es : List (Name × FileKind)} {i : Nat} {e : Name × FileKind} (at_i : es[i]? = some e) :
    heldAt part p dir es i = held part p dir e := by
  rw [heldAt, at_i]

namespace Parts

variable {S : System} {I : Disk → Prop} {plan : Plan} {d₀ d d' : Disk} {q p : Path}
  {part : Path → Place → Set Place} {dir : Place} {T : List Act} {l : Listing p} {job job' : Job}

/-! ## Parts -/

variable (parts : Parts S I plan d₀ q part)
  (below : ∀ f x, Meets plan d₀ p dir f x → Reaches plan d₀ S.host.cwd q f x)

include parts

theorem file_keepsTo {f : Path} {x : Place} (r : Reaches plan d₀ S.host.cwd q f x) :
    Job.KeepsTo S I (part f x) ((processFile plan f).andThen fun _ => .done) d₀ := by
  obtain ⟨Q, owns⟩ := parts.owns r
  exact (processFile_owns parts.fair owns parts.start).keepsTo

include below in
theorem held_subset {e : Name × FileKind} (called : Called plan d₀ p dir e job) :
    held part p dir e ⊆ under dir := by
  cases called with
  | @directory name _ _ => exact Place.under_concat_subset dir name
  | file file admitted =>
    intro y hy
    obtain ⟨above, name, other, spelled, rfl⟩ := parts.beside (below _ _ (.file file admitted)) hy
    obtain ⟨rfl, -⟩ := List.append_inj' spelled rfl
    exact Place.concat_mem_under dir other

include below in
/-- Tasks of entries with different names own nothing in common. -/
theorem held_apart {e e' : Name × FileKind} {job' : Job} (called : Called plan d₀ p dir e job)
    (called' : Called plan d₀ p dir e' job') (ne : e.1 ≠ e'.1) :
    ∀ x ∈ held part p dir e, x ∉ held part p dir e' := by
  have file_dir {name name' : Name} {x : Place}
      (r : Reaches plan d₀ S.host.cwd q (p.child name) (dir ++ [name]))
      (hx : x ∈ part (p.child name) (dir ++ [name])) : x ∉ under (dir ++ [name']) := by
    obtain ⟨above, name₁, other, spelled, rfl⟩ := parts.beside r hx
    obtain ⟨rfl, -⟩ := List.append_inj' spelled rfl
    exact Place.concat_not_mem_under _ _ _
  intro x hx hx'
  cases called with
  | directory _ _ =>
    cases called' with
    | directory _ _ => exact ne (Place.name_eq_of_mem_under hx hx')
    | file file admitted => exact file_dir (below _ _ (.file file admitted)) hx' hx
  | file file admitted =>
    have r := below _ _ (.file file admitted)
    cases called' with
    | directory _ _ => exact file_dir r hx hx'
    | file file' admitted' =>
      exact parts.apart r (below _ _ (.file file' admitted')) (by simpa using ne) x hx hx'

/-! ## Directories -/

omit parts in
/-- What comes up of a listing that is possible. -/
theorem goes_of_possible (fair : S.Fair) (possible : ∀ act ∈ T, act.Possible S) :
    ∀ (l : Listing p) a, .asked (.next p l) a ∈ own T → l.Goes a := by
  intro l a mem
  obtain ⟨w, w', -, answered⟩ := possible _ (mem_of_mem_own mem)
  exact fair.nexts answered

/-- What is listed stood there before the walk. -/
theorem entries_perm (lead : ∀ y, d₀.find S.host.cwd p = .ok (y, .dir) → y = dir)
    (among : Among S I (under dir) d₀ (.asked (.list p) (.ok l) :: T) d') :
    d₀.find S.host.cwd p = .ok (dir, .dir) ∧ l.entries.Perm (d₀.children dir) := by
  cases among with
  | @head _ _ w _ _ _ kept agree met _ =>
    obtain ⟨y, found, same⟩ := parts.fair.lists met.2
    have frame := parts.frame _ kept
    have found₀ : d₀.find S.host.cwd p = .ok (y, .dir) :=
      Disk.find_of_frame (frame.symm fun _ alone => alone) found
        ((frame.dir_iff y).1 (Disk.find_eq_ok_iff.1 found).2.2)
    obtain rfl := lead y found₀
    exact ⟨found₀, same ▸ children_perm agree⟩

section

variable (perm : l.entries.Perm (d₀.children dir)) (possible : ∀ act ∈ T, act.Possible S)
  (reading : Reading plan p job' l (own T)) (ended : job'.Ended)

include perm possible reading ended

/-- The tasks of a directory are those of its entries. -/
theorem exists_called {i : Nat} (at_i : (starts T)[i]? = some job) :
    ∃ e, (callers plan p T)[i]? = some e ∧ task plan p e = some job ∧ Called plan d₀ p dir e job := by
  have starts_eq := (reading.led discreet_sums ended).starts
  rw [starts_own, callers_own] at starts_eq
  have started := congrArg (fun jobs => jobs[i]?) starts_eq
  rw [List.getElem?_map, List.getElem?_map, at_i] at started
  obtain ⟨e, at_e, made⟩ := Option.map_eq_some_iff.1 started.symm
  have sub := reading.callers_sublist ended (goes_of_possible parts.fair possible)
  rw [callers_own] at sub
  have mem := perm.mem_iff.1 (sub.subset (List.mem_of_getElem? at_e))
  exact ⟨e, at_e, made, called_of_task mem made⟩

include below in
/-- The tasks that the walk of a directory starts keep to parts of the places below, given that the
    walks of its directories do. -/
theorem directory_apart
    (sub : ∀ name, d₀.entry? (dir ++ [name]) = some .dir → plan.skips name = false →
      Job.KeepsTo S I (under (dir ++ [name])) (directory plan (p.child name)) d₀) :
    Apart S I (under dir) d₀ (.asked (.list p) (.ok l) :: T)
      (heldAt part p dir (callers plan p T)) := by
  have called {i : Nat} (hi : i < (starts T).length) : ∃ e job,
      (callers plan p T)[i]? = some e ∧ Called plan d₀ p dir e job := by
    obtain ⟨e, at_e, -, called⟩ :=
      parts.exists_called perm possible reading ended (List.getElem?_eq_getElem hi)
    exact ⟨e, _, at_e, called⟩
  have nodup : ((callers plan p T).map Prod.fst).Nodup := by
    have sub := reading.callers_sublist ended (goes_of_possible parts.fair possible)
    rw [callers_own] at sub
    exact (((perm.map Prod.fst).nodup_iff).2 (d₀.nodup_children dir)).sublist (sub.map Prod.fst)
  constructor
  · exact List.forall_mem_cons.2 ⟨rfl, reading.still ended⟩
  · intro i hi
    obtain ⟨e, job, at_e, called⟩ := called hi
    rw [heldAt_eq at_e]
    exact parts.held_subset below called
  · intro i job at_i
    obtain ⟨e, at_e, -, called⟩ := parts.exists_called perm possible reading ended at_i
    rw [heldAt_eq at_e]
    cases called with
    | directory isDir entered => exact sub _ isDir entered
    | file file admitted => exact parts.file_keepsTo (below _ _ (.file file admitted))
  · intro i hi j hj ne
    obtain ⟨e, job, at_e, called_e⟩ := called hi
    obtain ⟨e', job', at_e', called_e'⟩ := called hj
    rw [heldAt_eq at_e, heldAt_eq at_e']
    refine parts.held_apart below called_e called_e' fun same => ne ?_
    -- no name comes up twice
    obtain ⟨hi', rfl⟩ := List.getElem?_eq_some_iff.1 at_e
    obtain ⟨hj', rfl⟩ := List.getElem?_eq_some_iff.1 at_e'
    have numbers : (⟨i, by simpa using hi'⟩ : Fin ((callers plan p T).map Prod.fst).length) =
        ⟨j, by simpa using hj'⟩ := List.nodup_iff_injective_get.1 nodup (by simpa using same)
    exact congrArg Fin.val numbers

end

include below in
/-- **The walk of a directory** keeps to the places below it. -/
theorem directory_keepsTo (ne : p.bytes ≠ [])
    (lead : ∀ y, d₀.find S.host.cwd p = .ok (y, .dir) → y = dir) :
    Job.KeepsTo S I (under dir) (directory plan p) d₀ := by
  -- no measure of the disk goes down here, for it may change meanwhile; but paths only get longer,
  -- and one that is too long is not listed
  induction room : maxPath + 1 - p.length using Nat.strongRecOn generalizing p dir with
  | ind n ih =>
  subst room
  refine Job.keepsTo_of_apart parts.fair.toHonest fun T act crew d' did among possible => ?_
  -- the walk is followed to some end, which tells what the lead is about
  obtain ⟨T', crew', w', rest, ended, mets⟩ := crew.exists_ended (S := S) (.start d')
  have possible_all : ∀ act' ∈ T ++ [act] ++ T', act'.Possible S :=
    List.forall_mem_append.2 ⟨List.forall_mem_append.2 ⟨among.possible,
      List.forall_mem_singleton.2 possible⟩, mets.possible⟩
  have whole := did.trans rest
  have unlisted {T : List Act} {e : OsError} {x : Option Unit} (plays : (fail (.list p e)).Plays T x) :
      Apart S I (under dir) d₀ (.asked (.list p) (.error e) :: T) fun _ => ∅ := by
    have still := ((fail_books (.list p e)).mono fun _ => Request.isChange_of_book).asks plays
    exact .of_idle (List.forall_mem_cons.2 ⟨rfl, fun act mem => still act (mem_of_mem_own mem)⟩)
      plays.starts_eq_nil
  rcases directory_leads whole ended with ⟨e, T₁, x, split, -, -, plays⟩ | ⟨l, T₁, split, -, reading⟩
  · exact ⟨_, (split ▸ unlisted plays : Apart S I (under dir) d₀ (T ++ [act] ++ T') _).of_append⟩
  · cases T with
    | nil =>
      -- so far the directory has been opened only
      obtain ⟨rfl, -⟩ := List.cons.inj split
      exact ⟨fun _ => ∅, .of_idle (List.forall_mem_singleton.2 rfl) rfl⟩
    | cons first T =>
      obtain ⟨rfl, rfl⟩ := List.cons.inj split
      obtain ⟨found, perm⟩ := parts.entries_perm lead among
      have possible_rest := (List.forall_mem_cons.1 possible_all).2
      have sub (name : Name) (isDir : d₀.entry? (dir ++ [name]) = some .dir)
          (entered : plan.skips name = false) :
          Job.KeepsTo S I (under (dir ++ [name])) (directory plan (p.child name)) d₀ := by
        refine ih _ (room_child_lt l name) ?_ (Path.child_ne_nil p name) ?_ rfl
        · exact fun f x meets => below f x (.enter isDir entered meets)
        · exact fun y found' => eq_concat_of_find_child ne found isDir found'
      have apart : Apart S I (under dir) d₀ (.asked (.list p) (.ok l) :: T ++ [act] ++ T') _ :=
        parts.directory_apart below perm possible_rest reading ended sub
      exact ⟨_, apart.of_append⟩

end Parts

/-! ## Files -/

/-- A file that was handed to the sweep.  Its task acted among others on its part. -/
structure Kept (S : System) (I : Disk → Prop) (plan : Plan) (d₀ : Disk)
    (part : Path → Place → Set Place) (d' : Disk) (s : Handed) (x : Place) : Prop where
  plays : ∃ T rest y, s.acts = T ++ rest ∧ (processFile plan s.path).Plays T y ∧
    ∀ act ∈ rest, act.Asks fun r => r.isChange = false
  among : Among S I (part s.path x) d₀ s.acts d'

/-- The files of `E` are handed over, but for those that were barred, and each is kept.  Of the places
    in `region`, what belongs to none of their parts stays as it is. -/
structure Handles (S : System) (I : Disk → Prop) (plan : Plan) (d₀ : Disk)
    (part : Path → Place → Set Place) (E : Path → Place → Prop) (region : Set Place)
    (ss : List Handed) (fs : List Failure) (d' : Disk) : Prop where
  each : ∀ s ∈ ss, ∃ x, E s.path x ∧ Kept S I plan d₀ part d' s x
  all : ∀ f x, E f x →
    (∃ s ∈ ss, s.path = f ∧ Kept S I plan d₀ part d' s x) ∨ ∃ g ∈ fs, Bars f g
  others : ∀ y ∈ region, (∀ s ∈ ss, ∀ x, E s.path x → y ∉ part s.path x) → d'.view y = d₀.view y

section

variable {S : System} {I : Disk → Prop} {plan : Plan} {d₀ d d' : Disk} {q p : Path}
  {part : Path → Place → Set Place} {dir : Place} {T : List Act} {crew : Crew}

/-- The task of an entry, given that the walks of the directories do as they should. -/
theorem task_handles {e : Name × FileKind} {job : Job} {c : Crew}
    (called : Called plan d₀ p dir e job) (did : Did (.start job) T c) (ended : c.Ended)
    (among : Among S I (held part p dir e) d₀ T d')
    (sub : d₀.entry? (dir ++ [e.1]) = some .dir → plan.skips e.1 = false →
      Did (.start (directory plan (p.child e.1))) T c →
      Among S I (under (dir ++ [e.1])) d₀ T d' →
      Handles S I plan d₀ part (Meets plan d₀ (p.child e.1) (dir ++ [e.1])) (under (dir ++ [e.1]))
        (handedIn plan (p.child e.1) T) (troubles T) d') :
    Handles S I plan d₀ part
      (fun f x => Meets plan d₀ p dir f x ∧ ∃ rest, x = dir ++ e.1 :: rest)
      (held part p dir e) (handedBy plan p e T) (troubles T) d' := by
  cases called with
  | @directory name isDir entered =>
    obtain ⟨each, all, others⟩ := sub isDir entered did among
    have meets_iff (f : Path) (x : Place) :
        (Meets plan d₀ p dir f x ∧ ∃ rest, x = dir ++ name :: rest) ↔
          Meets plan d₀ (p.child name) (dir ++ [name]) f x := by
      constructor
      · rintro ⟨meets, rest, rfl⟩
        rcases meets.of_cons with ⟨-, -, -, n, file⟩ | ⟨-, -, meets⟩
        · cases isDir.symm.trans file
        · exact meets
      · intro meets
        obtain ⟨next, rest, rfl⟩ := meets.mem_under
        exact ⟨.enter isDir entered meets, next :: rest, by simp⟩
    exact ⟨fun s mem => (each s mem).imp fun x => .imp_left (meets_iff _ _).2,
      fun f x m => all f x ((meets_iff f x).1 m),
      fun y hy none_ => others y hy fun s mem x m => none_ s mem x ((meets_iff _ _).2 m)⟩
  | @file name n file admitted =>
    obtain ⟨y, plays⟩ := exists_plays did ended
    have meets : Meets plan d₀ p dir (p.child name) (dir ++ [name]) := .file file admitted
    have kept : Kept S I plan d₀ part d' ⟨p.child name, T⟩ (dir ++ [name]) :=
      ⟨⟨T, [], y, (List.append_nil T).symm, plays, List.forall_mem_nil _⟩, among⟩
    constructor
    · exact List.forall_mem_singleton.2 ⟨_, ⟨meets, [], rfl⟩, kept⟩
    · rintro f x ⟨m, rest, rfl⟩
      rcases m.of_cons with ⟨rfl, rfl, -⟩ | ⟨isDir, -⟩
      · exact .inl ⟨_, List.mem_singleton_self _, rfl, kept⟩
      · cases file.symm.trans isDir
    · intro y hy none_
      exact absurd hy (none_ _ (List.mem_singleton_self _) _ ⟨meets, [], rfl⟩)

theorem mem_troubles_of_within {i : Nat} {g : Failure} (mem : g ∈ troubles (within i T)) :
    g ∈ troubles T := by
  obtain ⟨act, mem, trouble⟩ := List.mem_filterMap.1 mem
  exact List.mem_filterMap.2 ⟨_, mem_within_iff.1 mem, trouble⟩

theorem mem_troubles_of_own {g : Failure} (mem : g ∈ troubles (own T)) : g ∈ troubles T := by
  obtain ⟨act, mem, trouble⟩ := List.mem_filterMap.1 mem
  exact List.mem_filterMap.2 ⟨act, mem_of_mem_own mem, trouble⟩

/-- What the walk of a directory that was opened does: the task of each entry acts among others on
    what that holds, and what belongs to no entry stays as it is. -/
theorem Parts.directory_tasks (parts : Parts S I plan d₀ q part)
    (below : ∀ f x, Meets plan d₀ p dir f x → Reaches plan d₀ S.host.cwd q f x) (ne : p.bytes ≠ [])
    (lead : ∀ y, d₀.find S.host.cwd p = .ok (y, .dir) → y = dir) {l : Listing p}
    (did : Did (.start (directory plan p)) (.asked (.list p) (.ok l) :: T) crew)
    (ended : crew.Ended) (whole : ¬ Snapped (.asked (.list p) (.ok l) :: T))
    (reading : Reading plan p crew.lead l (own T)) (begun : Did ⟨entries plan p l, []⟩ T crew)
    (among : Among S I (under dir) d₀ (.asked (.list p) (.ok l) :: T) d') :
    (∀ i e, (callers plan p T)[i]? = some e → ∃ job c, Called plan d₀ p dir e job ∧
      Did (.start job) (within i T) c ∧ c.Ended ∧ Among S I (held part p dir e) d₀ (within i T) d') ∧
    ∀ y ∈ under dir, (∀ e ∈ callers plan p T, y ∉ held part p dir e) → d'.view y = d₀.view y := by
  obtain ⟨found, perm⟩ := parts.entries_perm lead among
  have possible := (List.forall_mem_cons.1 among.possible).2
  have led := reading.led discreet_sums ended
  have apart := parts.directory_apart below perm possible reading ended fun name isDir entered =>
    parts.directory_keepsTo (fun f x meets => below f x (.enter isDir entered meets))
      (Path.child_ne_nil p name) fun y found' => eq_concat_of_find_child ne found isDir found'
  obtain ⟨each_among, unowned⟩ := did.among_task parts.fair.toHonest apart among
  have count : (callers plan p T).length = (starts T).length := by
    have starts_eq := congrArg List.length led.starts
    rwa [List.length_map, List.length_map, starts_own, callers_own, eq_comm] at starts_eq
  constructor
  · intro i e at_i
    obtain ⟨job, c, made, at_c, did'⟩ := exists_task begun led at_i
    have hi : i < (starts T).length := count ▸ (List.getElem?_eq_some_iff.1 at_i).1
    have mem := reading.callers_sublist ended (goes_of_possible parts.fair possible)
    rw [callers_own] at mem
    have called := called_of_task (perm.mem_iff.1 (mem.subset (List.mem_of_getElem? at_i))) made
    have among' := each_among i hi
    rw [heldAt_eq at_i] at among'
    cases directory_finished did ended whole with
    | mk _ each =>
      exact ⟨job, c, called, did', (each c (List.mem_of_getElem? at_c)).ended, among'⟩
  · intro y hy none_
    refine unowned y hy fun i hi => ?_
    have at_i := List.getElem?_eq_getElem (count ▸ hi : i < (callers plan p T).length)
    rw [heldAt_eq at_i]
    exact none_ _ (List.mem_of_getElem? at_i)

/-- **Directories**: the walk of a directory handles the files that it meets. -/
theorem Parts.directory_handles (parts : Parts S I plan d₀ q part)
    (below : ∀ f x, Meets plan d₀ p dir f x → Reaches plan d₀ S.host.cwd q f x) (ne : p.bytes ≠ [])
    (lead : ∀ y, d₀.find S.host.cwd p = .ok (y, .dir) → y = dir)
    (did : Did (.start (directory plan p)) T crew) (ended : crew.Ended) (whole : ¬ Snapped T)
    (among : Among S I (under dir) d₀ T d') :
    Handles S I plan d₀ part (Meets plan d₀ p dir) (under dir) (handedIn plan p T) (troubles T)
      d' := by
  induction size : T.length using Nat.strongRecOn generalizing p dir T crew with
  | ind n ih =>
  subst size
  rcases directory_leads did ended with ⟨e, T, x, rfl, -, -, plays⟩ | ⟨l, T, rfl, begun, reading⟩
  · -- the directory could not be opened, and that bars the files below it
    rw [handedIn_unlisted]
    refine ⟨List.forall_mem_nil _, fun f x m => .inr ⟨_, List.mem_cons_self, m.exists_names⟩, ?_⟩
    have still : ∀ act ∈ .asked (.list p) (.error e) :: T, act.Asks fun r => r.isChange = false :=
      List.forall_mem_cons.2 ⟨rfl,
        ((fail_books (.list p e)).mono fun _ => Request.isChange_of_book).asks plays⟩
    exact fun y hy _ => among.agree parts.fair.toHonest still y hy
  · obtain ⟨found, perm⟩ := parts.entries_perm lead among
    obtain ⟨tasks, unowned⟩ :=
      parts.directory_tasks below ne lead did ended whole reading begun among
    have goes := goes_of_possible (p := p) parts.fair (List.forall_mem_cons.1 among.possible).2
    have whole' : ¬ Snapped T := fun snapped => whole (snapped.mono (List.subset_cons_self _ _))
    -- what each task does, by number
    have handles {e : Name × FileKind} {i : Nat} (at_i : (callers plan p T)[i]? = some e) :
        Handles S I plan d₀ part
          (fun f x => Meets plan d₀ p dir f x ∧ ∃ rest, x = dir ++ e.1 :: rest)
          (held part p dir e) (handedBy plan p e (within i T)) (troubles (within i T)) d' := by
      obtain ⟨job, c, called, did', ended', among'⟩ := tasks i e at_i
      refine task_handles called did' ended' among' fun isDir entered did'' among'' => ?_
      refine ih _ (Nat.lt_succ_of_le (length_within_le i T)) ?_ (Path.child_ne_nil p e.1) ?_ did''
        ended' (fun snapped => whole' snapped.of_within) among'' rfl
      · exact fun f x meets => below f x (.enter isDir entered meets)
      · exact fun y found' => eq_concat_of_find_child ne found isDir found'
    have mem_handed {e : Name × FileKind} {i : Nat} (at_i : (callers plan p T)[i]? = some e)
        {s : Handed} (mem : s ∈ handedBy plan p e (within i T)) :
        s ∈ handedIn plan p (.asked (.list p) (.ok l) :: T) := by
      rw [handedIn_listed, List.mem_flatMap]
      exact ⟨(e, i), List.mem_zipIdx_iff_getElem?.2 at_i, mem⟩
    constructor
    · intro s mem
      rw [handedIn_listed, List.mem_flatMap] at mem
      obtain ⟨⟨e, i⟩, at_i, mem⟩ := mem
      exact ((handles (List.mem_zipIdx_iff_getElem?.1 at_i)).each s mem).imp fun x => .imp_left And.left
    · intro f x meets
      obtain ⟨e, mem, job, made, through, names⟩ := meets.exists_task
      rcases reading.complete goes (fun snapped => whole' (snapped.mono fun _ => mem_of_mem_own))
        (perm.mem_iff.2 mem) made with called | ⟨g, mem_g, err, rfl | rfl⟩
      · rw [callers_own] at called
        obtain ⟨i, at_i⟩ := List.mem_iff_getElem?.1 called
        rcases (handles at_i).all f x ⟨meets, through⟩ with ⟨s, mem_s, kept⟩ | ⟨g, mem_g, bars⟩
        · exact .inl ⟨s, mem_handed at_i mem_s, kept⟩
        · exact .inr ⟨g, mem_troubles_of_within mem_g, bars⟩
      · exact .inr ⟨_, mem_troubles_of_own mem_g, meets.exists_names⟩
      · exact .inr ⟨_, mem_troubles_of_own mem_g, names⟩
    · intro y hy none_
      by_cases owned : ∃ e ∈ callers plan p T, y ∈ held part p dir e
      · obtain ⟨e, mem, hy'⟩ := owned
        obtain ⟨i, at_i⟩ := List.mem_iff_getElem?.1 mem
        exact (handles at_i).others y hy' fun s mem x m => none_ s (mem_handed at_i mem) x m.1
      · exact unowned y hy fun e mem hy' => owned ⟨e, mem, hy'⟩

/-! ## Roots -/

/-- What a path leads to, of which a look tells the kind. -/
theorem exists_find_of_stat {cwd : Place} {stat : Stat} (looked : d.stat cwd q = .ok stat) :
    ∃ x e, d.find cwd q = .ok (x, e) ∧ stat.kind = Disk.kindOf e := by
  rw [Disk.stat] at looked
  cases found : d.find cwd q with
  | error e =>
    rw [found] at looked
    cases looked
  | ok place =>
    obtain ⟨x, e⟩ := place
    rw [found] at looked
    refine ⟨x, e, rfl, ?_⟩
    cases e with
    | _ =>
      cases looked
      rfl

theorem exists_dir_of_stat {cwd : Place} {stat : Stat} (looked : d.stat cwd q = .ok stat)
    (isDir : stat.kind = .directory) : ∃ dir, d.find cwd q = .ok (dir, .dir) := by
  obtain ⟨x, e, found, kind⟩ := exists_find_of_stat looked
  cases e with
  | dir => exact ⟨x, found⟩
  | _ => cases isDir.symm.trans kind

/-- What handles no files leaves everything as it is. -/
theorem Handles.nil {E : Path → Place → Prop} {fs : List Failure} (same : d' = d₀)
    (barred : ∀ f x, E f x → ∃ g ∈ fs, Bars f g) :
    Handles S I plan d₀ part E Set.univ [] fs d' where
  each := List.forall_mem_nil _
  all f x m := .inr (barred f x m)
  others y _ _ := by rw [same]

/-- As a root, a file is swept and something is told, which leaves the disk alone. -/
theorem exists_tells (admitted : plan.extensions.admits q = true) :
    ∃ tells : Option Nat → Script Unit, file plan q = (processFile plan q).bind tells ∧
      ∀ y, (tells y).Only fun r => r.isChange = false := by
  rw [file, if_pos admitted]
  refine ⟨_, rfl, fun y => ?_⟩
  cases y with
  | some removed => exact (tell_books _).mono fun _ => Request.isChange_of_book
  | none => trivial

namespace Parts

variable (parts : Parts S I plan d₀ q part) {w w' : World}

include parts

/-- A root that is a file. -/
theorem file_handles {x : Place} {n : Nat} (found : d₀.find S.host.cwd q = .ok (x, .file n))
    (did : Did (.start (file plan q).job) T crew) (ended : crew.Ended) (mets : World.Mets S w T w')
    (same : w.disk = d₀) :
    Handles S I plan d₀ part (Reaches plan d₀ S.host.cwd q) Set.univ
      (if plan.extensions.admits q then [⟨q, T⟩] else []) (troubles T) w'.disk := by
  obtain ⟨-, -, y, plays, -⟩ := job_did did (List.forall_mem_nil _) ended
  have only {f : Path} {z : Place} (r : Reaches plan d₀ S.host.cwd q f z) :
      f = q ∧ z = x ∧ plan.extensions.admits q = true := by
    cases r with
    | root found' admitted =>
      cases found.symm.trans found'
      exact ⟨rfl, rfl, admitted⟩
    | below root _ => cases found.symm.trans root
  cases admitted : plan.extensions.admits q with
  | false =>
    rw [file, if_neg (by simp [admitted])] at plays
    refine .nil ((mets.disk_eq parts.fair.toHonest ?_).trans same) fun f z r => ?_
    · exact ((tell_books _).mono fun _ => Request.isChange_of_book).asks plays
    · cases admitted.symm.trans (only r).2.2
  | true =>
    have r : Reaches plan d₀ S.host.cwd q q x := .root found admitted
    obtain ⟨tells, whole, told⟩ := exists_tells admitted
    rw [whole] at did plays
    obtain ⟨Q, owns⟩ := parts.owns r
    have owned := (processFile_owns parts.fair owns parts.start).bind (R := fun _ _ _ => True)
      parts.start fun T y d i _ => .of_still parts.fair.toHonest (told y)
    obtain ⟨among, off⟩ := Among.of_mets owned.keepsTo did mets (same ▸ parts.start) (same ▸ .refl)
    have kept : Kept S I plan d₀ part w'.disk ⟨q, T⟩ x := by
      refine ⟨?_, among⟩
      rcases plays.of_bind with ⟨z, T₁, T₂, rfl, first, last⟩ | ⟨first, -⟩
      · exact ⟨T₁, T₂, _, rfl, first, (told z).asks last⟩
      · exact ⟨T, [], _, (List.append_nil T).symm, first, List.forall_mem_nil _⟩
    constructor
    · exact List.forall_mem_singleton.2 ⟨x, r, kept⟩
    · intro f z r'
      obtain ⟨rfl, rfl, -⟩ := only r'
      exact .inl ⟨_, List.mem_singleton_self _, rfl, kept⟩
    · intro y _ none_
      rw [off y (none_ _ (List.mem_singleton_self _) x r), same]

/-- A root that is a directory. -/
theorem root_handles (found : d₀.find S.host.cwd q = .ok (dir, .dir))
    (did : Did (.start (directory plan q)) T crew) (ended : crew.Ended) (whole : ¬ Snapped T)
    (mets : World.Mets S w T w') (same : w.disk = d₀) :
    Handles S I plan d₀ part (Reaches plan d₀ S.host.cwd q) Set.univ (handedIn plan q T) (troubles T)
      w'.disk := by
  have ne := (Disk.checkPath_eq_ok_iff.1 (Disk.find_eq_ok_iff.1 found).1).2.1
  have lead (y : Place) (found' : d₀.find S.host.cwd q = .ok (y, .dir)) : y = dir := by
    cases found.symm.trans found'
    rfl
  have reaches_iff (f : Path) (x : Place) :
      Reaches plan d₀ S.host.cwd q f x ↔ Meets plan d₀ q dir f x := reaches_iff_of_dir found
  have below (f : Path) (x : Place) := (reaches_iff f x).2
  obtain ⟨among, off⟩ := Among.of_mets (parts.directory_keepsTo below ne lead) did mets
    (same ▸ parts.start) (same ▸ .refl)
  obtain ⟨each, all, others⟩ := parts.directory_handles below ne lead did ended whole among
  constructor
  · exact fun s mem => (each s mem).imp fun x => .imp_left (below _ x)
  · exact fun f x r => all f x ((reaches_iff f x).1 r)
  · intro y _ none_
    by_cases hy : y ∈ under dir
    · exact others y hy fun s mem x meets => none_ s mem x (below _ x meets)
    · rw [off y hy, same]

/-- **Roots**: a walk handles the files that it reaches. -/
theorem walk_handles (did : Did (.start (absolute plan q)) T crew) (ended : crew.Ended)
    (whole : ¬ Snapped T) (mets : World.Mets S w T w') (same : w.disk = d₀) :
    Handles S I plan d₀ part (Reaches plan d₀ S.host.cwd q) Set.univ (handedFrom plan q T)
      (troublesFrom q T) w'.disk := by
  have honest := parts.fair.toHonest
  -- what the look at the root tells
  have looks {stat : Stat} {w₁ : World} (met : Act.Met S w (.asked (.stat q) (.ok stat)) w₁) :
      w₁ = w ∧ d₀.stat S.host.cwd q = .ok stat := by
    obtain ⟨rfl, looked⟩ := (parts.fair.may rfl rfl met.2).of_stat
    exact ⟨rfl, same ▸ looked stat rfl⟩
  have fewer {T₁ T₂ : List Act} (whole : ¬ Snapped T₁) (sub : T₂ ⊆ T₁) : ¬ Snapped T₂ :=
    fun snapped => whole (snapped.mono sub)
  cases walked_of_did did ended with
  | @aside answer T _ other did =>
    cases mets with
    | cons met mets =>
    obtain ⟨-, -, x, plays, -⟩ := job_did did (List.forall_mem_nil _) ended
    rcases answer with e | ⟨kind, size, mode⟩
    · obtain rfl := honest.look rfl met.2
      refine .nil ((mets.disk_eq honest ?_).trans same) fun f x r => ⟨_, List.mem_cons_self, ?_⟩
      · exact ((fail_books _).mono fun _ => Request.isChange_of_book).asks plays
      · cases r with
        | root _ _ => exact ⟨[], rfl⟩
        | below _ meets => exact meets.exists_names
    · obtain ⟨rfl, looked⟩ := looks met
      obtain ⟨x, e, found, kind_eq⟩ := exists_find_of_stat looked
      cases kind with
      | directory => exact absurd rfl (other _ rfl)
      | file =>
        cases e with
        | file n => exact parts.file_handles found did ended mets same
        | _ => cases kind_eq
      | other =>
        refine .nil ((mets.disk_eq honest ?_).trans same) fun f x r => ?_
        · exact ((tell_books _).mono fun _ => Request.isChange_of_book).asks plays
        · cases r with
          | root found' _ | below found' _ =>
            cases found.symm.trans found'
            cases kind_eq
  | broken isDir did crashed =>
    cases mets with
    | cons met mets =>
    obtain ⟨rfl, looked⟩ := looks met
    obtain ⟨dir, found⟩ := exists_dir_of_stat looked isDir
    rw [handedFrom_directory isDir]
    exact parts.root_handles found did ended (fewer whole (List.subset_cons_self _ _)) mets same
  | summed isDir did _ x plays _ =>
    cases mets with
    | cons met mets =>
    obtain ⟨rfl, looked⟩ := looks met
    obtain ⟨dir, found⟩ := exists_dir_of_stat looked isDir
    obtain ⟨w₂, mets, last⟩ := mets.of_append
    obtain ⟨handed, troubles⟩ := from_summed isDir did trivial plays
    have books := (tellSummary_books plan q).mono fun _ => Request.isChange_of_book
    rw [handed, troubles, last.disk_eq honest (books.asks plays)]
    exact parts.root_handles found did trivial
      (fewer (fewer whole (List.subset_cons_self _ _)) (List.subset_append_left _ _)) mets same

end Parts

end

end Walk

end CallSweep
