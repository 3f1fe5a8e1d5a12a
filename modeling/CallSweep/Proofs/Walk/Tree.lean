/-
  Which files a walk comes to.

  1. **Which files** — `Walk.Meets plan d p dir f x`: the walk of the directory at `dir`, called
     `p`, meets the regular file at `x` and calls it `f`.  It goes down through directories only,
     not through links, past the names that are skipped, and takes the files whose names are
     admitted.  `Walk.Reaches` says the same of a root, which may be a file itself.

  2. **Listings** (`Walk.Reading.entries_sub`, `Walk.Reading.complete`) — a listing is taken of the
     directory as it is when it is opened.  What comes up are entries of the listing, and every one
     that is to be worked on comes up, unless a trouble is told that bars the way (`Walk.Bars`).
-/
import CallSweep.Proofs.Walk.File

namespace CallSweep

open Disk (AgreeOn Frame)
open Crew (Did)
open Script (Plays)
open Job (Leads)

namespace Place

/-! ## Places below a place -/

/-- The places below a place, which is not one of them. -/
def under (dir : Place) : Set Place := {x | ∃ name rest, x = dir ++ name :: rest}

theorem concat_mem_under (dir : Place) (name : Name) : dir ++ [name] ∈ under dir :=
  ⟨name, [], rfl⟩

theorem under_concat_subset (dir : Place) (name : Name) : under (dir ++ [name]) ⊆ under dir := by
  rintro x ⟨next, rest, rfl⟩
  exact ⟨name, next :: rest, by simp⟩

/-- One step down does not lead below another one. -/
theorem concat_not_mem_under (dir : Place) (name other : Name) :
    dir ++ [name] ∉ under (dir ++ [other]) := by
  rintro ⟨next, rest, spelled⟩
  have := congrArg List.length spelled
  simp at this

/-- What is below two steps down is below one and the same. -/
theorem name_eq_of_mem_under {dir x : Place} {name other : Name}
    (hx : x ∈ under (dir ++ [name])) (hx' : x ∈ under (dir ++ [other])) : name = other := by
  obtain ⟨next, rest, rfl⟩ := hx
  obtain ⟨next', rest', spelled⟩ := hx'
  simp only [List.append_assoc, List.singleton_append] at spelled
  have tails := List.append_cancel_left spelled
  injection tails

end Place

namespace Walk

open Place (under)

/-! ## Which files are met -/

/-- The walk of the directory at `dir`, under the path `p`, meets a file: its path and its place. -/
inductive Meets (plan : Plan) (d : Disk) : Path → Place → Path → Place → Prop
  | file {p : Path} {dir : Place} {name : Name} {n : Nat}
      (file : d.entry? (dir ++ [name]) = some (.file n))
      (admitted : plan.extensions.admits (p.child name) = true) :
      Meets plan d p dir (p.child name) (dir ++ [name])
  | enter {p : Path} {dir : Place} {name : Name} {f : Path} {x : Place}
      (isDir : d.entry? (dir ++ [name]) = some .dir) (entered : plan.skips name = false)
      (meets : Meets plan d (p.child name) (dir ++ [name]) f x) : Meets plan d p dir f x

/-- The walk of a root reaches a file, which may be the root itself. -/
inductive Reaches (plan : Plan) (d : Disk) (cwd : Place) (q : Path) : Path → Place → Prop
  | root {x : Place} {n : Nat} (found : d.find cwd q = .ok (x, .file n))
      (admitted : plan.extensions.admits q = true) : Reaches plan d cwd q q x
  | below {dir x : Place} {f : Path} (root : d.find cwd q = .ok (dir, .dir))
      (meets : Meets plan d q dir f x) : Reaches plan d cwd q f x

/-- The run of `q` sweeps a file: its path and its place. -/
inductive Sweeps (plan : Plan) (d : Disk) (cwd : Place) (q : Path) : Path → Place → Prop
  | root {x : Place} {n : Nat} (found : d.find cwd q = .ok (x, .file n))
      (admitted : plan.extensions.admits q = true) : Sweeps plan d cwd q q x
  | below {dir x : Place} {f : Path} {n : Nat} (root : d.find cwd q = .ok (dir, .dir))
      (meets : Meets plan d q dir f x) (found : d.find cwd f = .ok (x, .file n)) :
      Sweeps plan d cwd q f x

section

variable {plan : Plan} {d d' : Disk} {cwd : Place} {p q f : Path} {dir x y : Place} {name : Name}

namespace Meets

theorem mem_under (m : Meets plan d p dir f x) : x ∈ under dir := by
  induction m with
  | file _ _ => exact Place.concat_mem_under _ _
  | enter _ _ _ ih => exact Place.under_concat_subset _ _ ih

theorem exists_file (m : Meets plan d p dir f x) : ∃ n, d.entry? x = some (.file n) := by
  induction m with
  | file file _ => exact ⟨_, file⟩
  | enter _ _ _ ih => exact ih

theorem isAbsolute (m : Meets plan d p dir f x) (abs : p.isAbsolute = true) :
    f.isAbsolute = true := by
  induction m with
  | file _ _ => exact (Path.isAbsolute_child (Path.ne_nil_of_isAbsolute abs) _).trans abs
  | enter _ _ _ ih => exact ih ((Path.isAbsolute_child (Path.ne_nil_of_isAbsolute abs) _).trans abs)

/-- A file that is met right below a directory. -/
theorem of_concat (m : Meets plan d p dir f (dir ++ [name])) :
    f = p.child name ∧ plan.extensions.admits (p.child name) = true := by
  generalize spelled : dir ++ [name] = x at m
  cases m with
  | file file admitted =>
    obtain ⟨-, same⟩ := List.append_inj' spelled rfl
    cases same
    exact ⟨rfl, admitted⟩
  | enter isDir entered meets =>
    subst spelled
    exact absurd meets.mem_under (Place.concat_not_mem_under dir name _)

/-- A file that is met further below. -/
theorem of_mem_under (m : Meets plan d p dir f x) (hx : x ∈ under (dir ++ [name])) :
    d.entry? (dir ++ [name]) = some .dir ∧ plan.skips name = false ∧
      Meets plan d (p.child name) (dir ++ [name]) f x := by
  cases m with
  | file _ _ => exact absurd hx (Place.concat_not_mem_under _ _ _)
  | enter isDir entered meets =>
    obtain rfl := Place.name_eq_of_mem_under meets.mem_under hx
    exact ⟨isDir, entered, meets⟩

/-- A file that is met is an entry of the directory, or is met in one of its directories. -/
theorem of_cons {rest : Place} (m : Meets plan d p dir f (dir ++ name :: rest)) :
    (rest = [] ∧ f = p.child name ∧ plan.extensions.admits (p.child name) = true ∧
        ∃ n, d.entry? (dir ++ [name]) = some (.file n)) ∨
      d.entry? (dir ++ [name]) = some .dir ∧ plan.skips name = false ∧
        Meets plan d (p.child name) (dir ++ [name]) f (dir ++ name :: rest) := by
  cases rest with
  | nil =>
    obtain ⟨rfl, admitted⟩ := m.of_concat
    exact .inl ⟨rfl, rfl, admitted, m.exists_file⟩
  | cons next rest => exact .inr (m.of_mem_under ⟨next, rest, by simp⟩)

/-- The walk calls a file by one path only. -/
theorem path_eq {f' : Path} (m : Meets plan d p dir f x) (m' : Meets plan d p dir f' x) : f = f' := by
  induction m with
  | file _ _ => exact m'.of_concat.1.symm
  | enter _ _ meets ih => exact ih (m'.of_mem_under meets.mem_under).2.2

/-- A file that can be found has a directory that can be found. -/
theorem exists_find (m : Meets plan d p dir f x) (ne : p.bytes ≠ []) {e : Entry}
    (found : d'.find cwd f = .ok (y, e)) : ∃ z, d'.find cwd p = .ok (z, .dir) := by
  induction m with
  | file _ _ =>
    obtain ⟨z, found', -⟩ := Disk.exists_of_find_child ne found
    exact ⟨z, found'⟩
  | enter _ _ _ ih =>
    obtain ⟨z, found'⟩ := ih (Path.child_ne_nil _ _) found
    obtain ⟨z', found'', -⟩ := Disk.exists_of_find_child ne found'
    exact ⟨z', found''⟩

/-- A file that can be found on any disk has a path that is not too long, and so is found. -/
theorem exists_find_file (m : Meets plan d p dir f x) (ne : p.bytes ≠ [])
    (root : d.find cwd p = .ok (dir, .dir)) {e : Entry} (found : d'.find cwd f = .ok (y, e)) :
    ∃ n, d.find cwd f = .ok (x, .file n) := by
  induction m with
  | file file _ =>
    obtain ⟨-, -, short⟩ := Disk.exists_of_find_child ne found
    exact ⟨_, Disk.find_child ne root (Disk.find_eq_ok_iff.1 found).1 short file nofun⟩
  | @enter p _ name _ _ isDir _ meets ih =>
    obtain ⟨z, found'⟩ := meets.exists_find (Path.child_ne_nil p name) found
    obtain ⟨-, -, short⟩ := Disk.exists_of_find_child ne found'
    exact ih (Path.child_ne_nil p name)
      (Disk.find_child ne root (Disk.find_eq_ok_iff.1 found').1 short isDir nofun) found

end Meets

namespace Reaches

theorem exists_file (r : Reaches plan d cwd q f x) : ∃ n, d.entry? x = some (.file n) := by
  cases r with
  | root found _ => exact ⟨_, (Disk.find_eq_ok_iff.1 found).2.2⟩
  | below _ meets => exact meets.exists_file

/-- A file has a name. -/
theorem exists_concat (r : Reaches plan d cwd q f x) : ∃ dir name, x = dir ++ [name] := by
  obtain ⟨n, file⟩ := r.exists_file
  rcases List.eq_nil_or_concat x with rfl | ⟨dir, name, rfl⟩
  · cases file
  · exact ⟨dir, name, List.concat_eq_append⟩

theorem path_eq {f' : Path} (r : Reaches plan d cwd q f x) (r' : Reaches plan d cwd q f' x) :
    f = f' := by
  cases r with
  | root found _ =>
    cases r' with
    | root _ _ => rfl
    | below root _ => cases found.symm.trans root
  | below root meets =>
    cases r' with
    | root found _ => cases found.symm.trans root
    | below root' meets' =>
      cases root.symm.trans root'
      exact meets.path_eq meets'

/-- A file that is reached can be found where it is, or nowhere and at no time. -/
theorem found_or_lost (r : Reaches plan d cwd q f x) :
    (∃ n, d.find cwd f = .ok (x, .file n)) ∨ ∀ d' : Disk, ∀ y e, d'.find cwd f ≠ .ok (y, e) := by
  cases r with
  | root found _ => exact .inl ⟨_, found⟩
  | below root meets =>
    have ne := (Disk.checkPath_eq_ok_iff.1 (Disk.find_eq_ok_iff.1 root).1).2.1
    by_cases found : ∃ n, d.find cwd f = .ok (x, .file n)
    · exact .inl found
    · exact .inr fun d' y e found' => found (meets.exists_find_file ne root found')

/-- The root of a walk that reaches anything is absolute, and so is all that is reached. -/
theorem isAbsolute (r : Reaches plan d cwd q f x) (spelled : Path.absolute cwd.path p = q) :
    f.isAbsolute = true := by
  have abs {z : Place} {e : Entry} (found : d.find cwd q = .ok (z, e)) : q.isAbsolute = true := by
    have ne := (Disk.checkPath_eq_ok_iff.1 (Disk.find_eq_ok_iff.1 found).1).2.1
    rw [← spelled] at ne ⊢
    exact Path.isAbsolute_absolute (Place.isAbsolute_path _) ne
  cases r with
  | root found _ => exact abs found
  | below root meets => exact meets.isAbsolute (abs root)

end Reaches

/-- From a root that is a directory, what is reached is what is met. -/
theorem reaches_iff_of_dir (root : d.find cwd q = .ok (dir, .dir)) :
    Reaches plan d cwd q f x ↔ Meets plan d q dir f x := by
  refine ⟨fun r => ?_, .below root⟩
  cases r with
  | root found _ => cases root.symm.trans found
  | below found meets =>
    cases root.symm.trans found
    exact meets

/-- What is swept is what is reached and can be found. -/
theorem sweeps_iff : Sweeps plan d cwd q f x ↔
    Reaches plan d cwd q f x ∧ ∃ n, d.find cwd f = .ok (x, .file n) := by
  constructor
  · intro s
    cases s with
    | root found admitted => exact ⟨.root found admitted, _, found⟩
    | below root meets found => exact ⟨.below root meets, _, found⟩
  · rintro ⟨r, n, found⟩
    cases r with
    | root _ admitted => exact .root found admitted
    | below root meets => exact .below root meets found

/-- From a root that is a file, nothing else is swept. -/
theorem sweeps_iff_of_file {n : Nat} (found : d.find cwd q = .ok (y, .file n)) :
    Sweeps plan d cwd q f x ↔ f = q ∧ x = y ∧ plan.extensions.admits q = true := by
  constructor
  · intro s
    cases s with
    | root found' admitted =>
      cases found.symm.trans found'
      exact ⟨rfl, rfl, admitted⟩
    | below root _ _ => cases found.symm.trans root
  · rintro ⟨rfl, rfl, admitted⟩
    exact .root found admitted

/-- A directory that is entered is found at its place, if at all. -/
theorem eq_concat_of_find_child (ne : p.bytes ≠ []) (found : d.find cwd p = .ok (dir, .dir))
    (isDir : d.entry? (dir ++ [name]) = some .dir)
    (found' : d.find cwd (p.child name) = .ok (y, .dir)) : y = dir ++ [name] := by
  obtain ⟨-, -, short⟩ := Disk.exists_of_find_child ne found'
  have found'' := Disk.find_child ne found (Disk.find_eq_ok_iff.1 found').1 short isDir nofun
  cases found'.symm.trans found''
  rfl

/-- The entries that are listed later are the first ones, kind by kind, if in another order. -/
theorem children_perm (agree : AgreeOn (under dir) d d') :
    (d'.children dir).Perm (d.children dir) := by
  refine (List.perm_ext_iff_of_nodup (.of_map _ (d'.nodup_children dir))
    (.of_map _ (d.nodup_children dir))).2 ?_
  rintro ⟨name, kind⟩
  rw [d'.mem_children_iff, d.mem_children_iff]
  have same := agree _ (Place.concat_mem_under dir name)
  constructor
  · rintro ⟨e, entry, rfl⟩
    exact Disk.exists_entry_of_view_eq entry same
  · rintro ⟨e, entry, rfl⟩
    exact Disk.exists_entry_of_view_eq entry same.symm

end

/-! ## Listings -/

/-- A trouble on the way to a file. -/
def Bars (f : Path) : Failure → Prop
  | .list p _ | .inspect p _ => ∃ names : List Name, f = names.foldl Path.child p
  | .read _ _ | .write _ _ | .crashed _ => False

/-- The task that an entry of a directory gets, given what stands there. -/
inductive Called (plan : Plan) (d : Disk) (p : Path) (dir : Place) : Name × FileKind → Job → Prop
  | directory {name : Name} (isDir : d.entry? (dir ++ [name]) = some .dir)
      (entered : plan.skips name = false) :
      Called plan d p dir (name, .directory) (directory plan (p.child name))
  | file {name : Name} {n : Nat} (file : d.entry? (dir ++ [name]) = some (.file n))
      (admitted : plan.extensions.admits (p.child name) = true) :
      Called plan d p dir (name, .file) ((processFile plan (p.child name)).andThen fun _ => .done)

section

variable {plan : Plan} {S : System} {d d' : Disk} {p f : Path} {dir x : Place} {l : Listing p}
  {O : List Act} {job job' : Job}

theorem Meets.exists_names (m : Meets plan d p dir f x) :
    ∃ names : List Name, f = names.foldl Path.child p := by
  induction m with
  | @file _ _ name _ _ _ => exact ⟨[name], rfl⟩
  | @enter _ _ name _ _ _ _ _ ih =>
    obtain ⟨names, rfl⟩ := ih
    exact ⟨name :: names, rfl⟩

/-- Each file that is met is met through an entry that gets a task. -/
theorem Meets.exists_task (m : Meets plan d p dir f x) : ∃ e ∈ d.children dir, ∃ job,
    task plan p e = some job ∧ (∃ rest, x = dir ++ e.1 :: rest) ∧
      ∃ names : List Name, f = names.foldl Path.child (p.child e.1) := by
  cases m with
  | @file _ _ name n file admitted =>
    exact ⟨(name, .file), (d.mem_children_iff dir name _).2 ⟨_, file, rfl⟩, _, if_pos admitted,
      ⟨[], rfl⟩, [], rfl⟩
  | @enter _ _ name _ _ isDir entered meets =>
    obtain ⟨next, rest, rfl⟩ := meets.mem_under
    exact ⟨(name, .directory), (d.mem_children_iff dir name _).2 ⟨_, isDir, rfl⟩, _,
      if_neg (by simp [entered]), ⟨next :: rest, by simp⟩, meets.exists_names⟩

theorem called_of_task {e : Name × FileKind} (mem : e ∈ d.children dir)
    (made : task plan p e = some job) : Called plan d p dir e job := by
  obtain ⟨name, kind⟩ := e
  obtain ⟨entry, at_name, rfl⟩ := (d.mem_children_iff dir name kind).1 mem
  cases entry with
  | dir =>
    obtain ⟨entered, same⟩ := Option.ite_none_left_eq_some.1 made
    cases same
    exact .directory at_name (by simpa using entered)
  | file n =>
    obtain ⟨admitted, same⟩ := Option.ite_none_right_eq_some.1 made
    cases same
    exact .file at_name admitted
  | link _ | socket | nullDevice => cases made

theorem eq_cons_of_next? {e : Name × FileKind} {rest : l.Shorter} (comes : l.next? = some (e, rest)) :
    l.entries = e :: rest.1.entries := by
  unfold Listing.next? at comes
  split at comes
  · cases comes
  · rename_i left
    cases comes
    exact left

theorem eq_nil_of_next? (none_ : l.next? = none) : l.entries = [] := by
  unfold Listing.next? at none_
  split at none_
  · assumption
  · cases none_

namespace Reading

/-- What comes up are entries of the listing, each once. -/
theorem callers_sublist (reading : Reading plan p job' l O) (ended : job'.Ended)
    (goes : ∀ (l : Listing p) a, .asked (.next p l) a ∈ O → l.Goes a) :
    (callers plan p O).Sublist l.entries := by
  have closes {T : List Act} (rest : Leads (closing p) T job') : callers plan p T = [] :=
    (quiet_of_closing rest ended).callers_eq plan p
  induction reading with
  | broken plays rest =>
    rw [callers_trouble rfl plays, closes rest]
    exact List.nil_sublist _
  | ended rest =>
    rw [callers, List.filterMap_cons_none rfl, show List.filterMap _ _ = _ from closes rest]
    exact List.nil_sublist _
  | untold plays _ ih =>
    rw [callers_trouble rfl plays]
    cases goes _ _ List.mem_cons_self with
    | untold e comes =>
      rw [eq_cons_of_next? comes]
      exact (ih fun l a mem => goes l a (List.mem_cons_of_mem _ (List.mem_append_right _ mem))).cons _
  | @down l a g T report trouble plays _ _ =>
    have none_ : callers plan p (.asked (.next p l) a :: (T ++ [])) = [] := callers_trouble trouble plays
    rw [List.append_nil] at none_
    rw [none_]
    exact List.nil_sublist _
  | passed idle logs _ ih =>
    rw [callers_passed idle logs]
    cases goes _ _ List.mem_cons_self with
    | entry comes =>
      rw [eq_cons_of_next? comes]
      exact (ih fun l a mem => goes l a (List.mem_cons_of_mem _ (List.mem_append_right _ mem))).cons _
  | started made _ ih =>
    rw [callers_started made]
    cases goes _ _ List.mem_cons_self with
    | entry comes =>
      rw [eq_cons_of_next? comes]
      exact (ih fun l a mem => goes l a
        (List.mem_cons_of_mem _ (List.mem_cons_of_mem _ mem))).cons_cons _

/-- Every entry that is to be worked on comes up, unless there is trouble. -/
theorem complete (reading : Reading plan p job' l O)
    (goes : ∀ (l : Listing p) a, .asked (.next p l) a ∈ O → l.Goes a) (whole : ¬ Snapped O)
    {e : Name × FileKind} (mem : e ∈ l.entries) (made : task plan p e = some job) :
    e ∈ callers plan p O ∨ ∃ g ∈ troubles O, ∃ err, g = .list p err ∨ g = .inspect (p.child e.1) err := by
  induction reading with
  | broken plays rest =>
    rw [troubles_trouble rfl plays]
    exact .inr ⟨_, List.mem_cons_self, _, .inl rfl⟩
  | ended rest =>
    cases goes _ _ List.mem_cons_self with
    | ended none_ =>
      rw [eq_nil_of_next? none_] at mem
      cases mem
  | @untold l name err rest T₁ T₂ plays _ ih =>
    rw [callers_trouble rfl plays, troubles_trouble rfl plays]
    cases goes _ _ List.mem_cons_self with
    | untold _ comes =>
      rw [eq_cons_of_next? comes] at mem
      rcases List.mem_cons.1 mem with rfl | mem
      · exact .inr ⟨_, List.mem_cons_self, err, .inr rfl⟩
      · refine (ih (fun l a mem => goes l a ?_) (mt (Snapped.of_rest _) whole) mem).imp_right ?_
        · exact List.mem_cons_of_mem _ (List.mem_append_right _ mem)
        · exact fun ⟨g, mem, kind⟩ => ⟨g, List.mem_cons_of_mem _ mem, kind⟩
  | down trouble _ refused _ => exact absurd (snapped_of_trouble trouble refused) whole
  | passed idle logs _ ih =>
    rw [callers_passed idle logs, troubles_passed logs]
    cases goes _ _ List.mem_cons_self with
    | entry comes =>
      rw [eq_cons_of_next? comes] at mem
      rcases List.mem_cons.1 mem with rfl | mem
      · cases idle.symm.trans made
      · refine ih (fun l a mem => goes l a ?_) (mt (Snapped.of_rest _) whole) mem
        exact List.mem_cons_of_mem _ (List.mem_append_right _ mem)
  | @started l name kind rest job T made' _ ih =>
    rw [callers_started made']
    cases goes _ _ List.mem_cons_self with
    | entry comes =>
      rw [eq_cons_of_next? comes] at mem
      rcases List.mem_cons.1 mem with rfl | mem
      · exact .inl List.mem_cons_self
      · have whole' : ¬ Snapped T := mt (Snapped.of_rest [.spawned job]) whole
        refine (ih (fun l a mem => goes l a ?_) whole' mem).imp_left (List.mem_cons_of_mem _)
        exact List.mem_cons_of_mem _ (List.mem_cons_of_mem _ mem)

/-- The lead of a directory leaves the disk alone. -/
theorem still (reading : Reading plan p job' l O) (ended : job'.Ended) :
    ∀ act ∈ O, act.Asks fun r => r.isChange = false := by
  have books {s : Script Unit} {T : List Act} {x : Option Unit}
      (only : s.Only fun r => r.isBook = true) (plays : s.Plays T x) :
      ∀ act ∈ T, act.Asks fun r => r.isChange = false := fun act mem =>
    (only.asks plays act mem).mono fun _ => Request.isChange_of_book
  have closes {T : List Act} (rest : Leads (closing p) T job') :
      ∀ act ∈ T, act.Asks fun r => r.isChange = false := by
    cases rest with
    | refl => exact ended.elim
    | join reports rest =>
      obtain ⟨-, x, plays, -⟩ := job_leads rest ended
      exact List.forall_mem_cons.2 ⟨trivial, books (finishDirectory_books p reports) plays⟩
  induction reading with
  | broken plays rest =>
    exact List.forall_mem_cons.2 ⟨rfl, List.forall_mem_append.2 ⟨books (fail_books _) plays, closes rest⟩⟩
  | ended rest => exact List.forall_mem_cons.2 ⟨rfl, closes rest⟩
  | untold plays _ ih =>
    exact List.forall_mem_cons.2 ⟨rfl, List.forall_mem_append.2 ⟨books (fail_books _) plays, ih⟩⟩
  | down _ plays _ _ => exact List.forall_mem_cons.2 ⟨rfl, books (fail_books _) plays⟩
  | passed _ logs _ ih =>
    refine List.forall_mem_cons.2 ⟨rfl, List.forall_mem_append.2 ⟨fun act mem => ?_, ih⟩⟩
    obtain ⟨e, -, rfl⟩ := logs act mem
    rfl
  | started _ _ ih => exact List.forall_mem_cons.2 ⟨rfl, List.forall_mem_cons.2 ⟨trivial, ih⟩⟩

end Reading

end

end Walk

end CallSweep
