/-
  What system calls do on a path whose place is known.

  `Disk.Names d cwd p x` says that the path `p` can be used in calls and leads to the place `x`,
  whether something stands there or is about to be made.  Given that, each call is what it does at
  the place: a look gives what the place holds, a change is one of the updates of the view.  Paths
  that name a place name it as long as the frame of the disk stays (`Names.of_frame`).

  `rename` and `remove` take the last name of a path as it is.  For a spelled place this is its own
  last name (`findName_path_iff`).
-/
import CallSweep.Proofs.Disk.Locate

namespace CallSweep

theorem concat_ne_nil (dir : Place) (name : Name) : dir ++ [name] ≠ [] :=
  List.append_ne_nil_of_right_ne_nil dir (List.cons_ne_nil name [])

namespace Disk

/-! ## Paths that name a place -/

/-- A path that can be used and leads to a place. -/
structure Names (d : Disk) (cwd : Place) (p : Path) (x : Place) : Prop where
  check : checkPath p = .ok ()
  leads : ∀ making, d.Leads making maxLinks (origin cwd p) p.components x

variable {own : Set Place} {d d₀ : Disk} {cwd : Place} {p : Path} {x y : Place}

namespace Names

theorem of_frame (f : Frame own d₀ d) (names : d₀.Names cwd p x) : d.Names cwd p x :=
  ⟨names.check, fun making => (names.leads making).of_frame f⟩

theorem find (names : d.Names cwd p x) {e : Entry} (entry : d.entry? x = some e) :
    d.find cwd p = .ok (x, e) := find_eq_ok_iff.2 ⟨names.check, names.leads false, entry⟩

/-- The path by which a file is found names it, for writing as well. -/
theorem of_find_file {n : Nat} (found : d.find cwd p = .ok (x, .file n)) : d.Names cwd p x := by
  obtain ⟨check, leads, file⟩ := find_eq_ok_iff.1 found
  refine ⟨check, fun making => leads.of_not_dir ?_⟩
  rw [file]
  exact fun same => by cases same

/-- The spelling of a rooted place names it. -/
theorem of_rooted (r : d.Rooted x) (ne : x ≠ [])
    (no_link : ∀ target, d.entry? x ≠ some (.link target)) (check : checkPath x.path = .ok ()) :
    d.Names cwd x.path x := ⟨check, fun _ => r.leads_path ne no_link cwd⟩

/-! ## Looking -/

variable {n : Nat}

theorem stat_file (names : d.Names cwd p x) (file : d.entry? x = some (.file n)) :
    d.stat cwd p = .ok ⟨.file, (d.inode n).bytes.size, (d.inode n).mode⟩ := by
  rw [stat, names.find file]
  rfl

theorem read_file (names : d.Names cwd p x) (file : d.entry? x = some (.file n)) :
    d.read cwd p = .ok (d.inode n).bytes := by
  rw [read, names.find file]
  rfl

theorem resolve_eq (names : d.Names cwd p x) {e : Entry} (entry : d.entry? x = some e) :
    d.resolve cwd p = if maxPath < x.path.length then .error .nameTooLong else .ok x := by
  rw [resolve, names.find entry]
  simp only [bind, Except.bind]
  split <;> rfl

/-! ## Changing -/

theorem locate_making (names : d.Names cwd p x) :
    d.locate true maxLinks (origin cwd p) p.components = .ok x :=
  locate_of_leads (names.leads true)

theorem write_file (names : d.Names cwd p x) (file : d.entry? x = some (.file n))
    (bytes : ByteArray) :
    d.write cwd p bytes = .ok (d.setInode n { d.inode n with bytes }) := by
  rw [write, names.check, names.locate_making]
  simp only [bind, Except.bind, file]
  rfl

theorem write_new (names : d.Names cwd p x) (vacant : d.entry? x = none) (bytes : ByteArray) :
    d.write cwd p bytes =
      .ok ((d.insert x (.file d.freshInode)).setInode d.freshInode ⟨bytes, newFileMode⟩) := by
  rw [write, names.check, names.locate_making]
  simp only [bind, Except.bind, vacant]
  rfl

/-- What is a directory is not opened for writing. -/
theorem write_dir (names : d.Names cwd p x) (dir : d.entry? x = some .dir) (bytes : ByteArray) :
    d.write cwd p bytes = .error .isDirectory := by
  rw [write, names.check, names.locate_making]
  simp only [bind, Except.bind, dir]
  rfl

theorem chmod_file (names : d.Names cwd p x) (file : d.entry? x = some (.file n)) (mode : Nat) :
    d.chmod cwd p mode = .ok (d.setInode n { d.inode n with mode := mode &&& modeMask }) := by
  rw [chmod, names.find file]
  rfl

end Names

/-- What is resolved is found. -/
theorem exists_find_of_resolve (resolved : d.resolve cwd p = .ok x) :
    ∃ e, d.find cwd p = .ok (x, e) := by
  cases found : d.find cwd p with
  | error e =>
    rw [resolve, found] at resolved
    cases resolved
  | ok place =>
    rw [resolve, found] at resolved
    simp only [bind, Except.bind] at resolved
    split at resolved
    · cases resolved
    · cases resolved
      exact ⟨place.2, rfl⟩

/-! ## Listing -/

theorem list_of_find (found : d.find cwd p = .ok (x, .dir)) :
    ∃ short, d.list cwd p = .ok ⟨d.children x, short⟩ := by
  have short := (checkPath_eq_ok_iff.1 (find_eq_ok_iff.1 found).1).2.2
  refine ⟨short, ?_⟩
  rw [list, dif_pos short, found]

/-! ## Last names -/

theorem path_concat_components (x : Place) (name : Name) :
    (x ++ [name] : Place).path.components = x.map .down ++ [.down name] := by
  rw [Place.components_path (List.append_ne_nil_of_right_ne_nil x (List.cons_ne_nil name [])),
    List.map_append]
  rfl

variable (cwd)

/-- The last name of a spelled place, taken as it is. -/
theorem findName_path_iff (r : d.Rooted x) (dir : d.entry? x = some .dir) {name : Name} :
    d.findName cwd (x ++ [name] : Place).path = .ok y ↔
      checkPath (x ++ [name] : Place).path = .ok () ∧ name.bytes.length ≤ maxName ∧
        y = x ++ [name] := by
  have abs := Place.isAbsolute_path (x ++ [name])
  have located : d.locate false maxLinks [] (x.map .down) = .ok x :=
    locate_of_leads (Rooted.leads_names (x := []) r fun target link => by
      rw [List.nil_append, dir] at link
      cases link)
  rw [findName, path_concat_components, List.getLast?_concat, List.dropLast_concat, origin,
    if_pos abs]
  cases checkPath (x ++ [name] : Place).path with
  | error e => simp [bind, Except.bind]
  | ok u =>
    simp only [bind, Except.bind, located, dir]
    by_cases long : maxName < name.bytes.length
    · rw [if_pos long]
      constructor
      · rintro ⟨⟩
      · rintro ⟨-, short, -⟩
        omega
    · rw [if_neg long]
      constructor
      · rintro ⟨⟩
        exact ⟨trivial, Nat.not_lt.1 long, rfl⟩
      · rintro ⟨-, -, rfl⟩
        rfl

/-- A file is moved over another one beside it. -/
theorem rename_files (r : d.Rooted x) (dir : d.entry? x = some .dir)
    {a b : Name} (alone : d.Alone (x ++ [a])) (ne : a ≠ b)
    (check_a : checkPath (x ++ [a] : Place).path = .ok ())
    (check_b : checkPath (x ++ [b] : Place).path = .ok ()) (short_a : a.bytes.length ≤ maxName)
    (short_b : b.bytes.length ≤ maxName) {m n : Nat} (at_a : d.entry? (x ++ [a]) = some (.file m))
    (at_b : d.entry? (x ++ [b]) = some (.file n)) :
    d.rename cwd (x ++ [a] : Place).path (x ++ [b] : Place).path =
      .ok ((d.erase (x ++ [a])).insert (x ++ [b]) (.file m)) := by
  have places_ne : x ++ [a] ≠ x ++ [b] := fun same => ne (by simpa using same)
  have files_ne : m ≠ n := by
    rintro rfl
    exact places_ne (alone _ m at_a at_b).symm
  have source := (findName_path_iff cwd r dir).2 ⟨check_a, short_a, rfl⟩
  have goal := (findName_path_iff cwd r dir).2 ⟨check_b, short_b, rfl⟩
  rw [rename, source, goal]
  simp only [bind, Except.bind, at_a, at_b, if_neg places_ne]
  simp [files_ne]
  rfl

/-- Where nothing stands, or a directory, nothing is taken away. -/
theorem remove_clear (r : d.Rooted x) (dir : d.entry? x = some .dir) {name : Name}
    (clear : d.entry? (x ++ [name]) = none ∨ d.entry? (x ++ [name]) = some .dir) :
    ∃ e, d.remove cwd (x ++ [name] : Place).path = .error e := by
  cases found : d.findName cwd (x ++ [name] : Place).path with
  | error e =>
    refine ⟨e, ?_⟩
    rw [remove, found]
    rfl
  | ok y =>
    obtain ⟨-, -, rfl⟩ := (findName_path_iff cwd r dir).1 found
    rw [remove, found]
    rcases clear with vacant | sub
    · refine ⟨.noEntry, ?_⟩
      simp only [bind, Except.bind, vacant]
      rfl
    · refine ⟨.isDirectory, ?_⟩
      simp only [bind, Except.bind, sub]
      rfl

/-- A name that is too long is not looked up, however it is reached. -/
theorem locate_long {making : Bool} {links : Nat} {name : Name}
    (long : maxName < name.bytes.length) (r : d.Rooted (x ++ y))
    (dir : d.entry? (x ++ y) = some .dir) :
    d.locate making links x (y.map .down ++ [.down name]) = .error .nameTooLong := by
  induction y generalizing x with
  | nil =>
    rw [List.append_nil] at dir
    simp [locate, dir, long]
  | cons next names ih =>
    obtain ⟨dir_x, short⟩ := r x next names rfl
    have spelled : x ++ next :: names = (x ++ [next]) ++ names := by simp
    rw [spelled] at r dir
    have dir_next : d.entry? (x ++ [next]) = some .dir := by
      cases names with
      | nil => rwa [List.append_nil] at dir
      | cons next' names => exact (r (x ++ [next]) next' names rfl).1
    have open_ : ¬ (making = true ∧ names.map .down ++ [.down name] = [Component.slash]) := by
      rintro ⟨-, same⟩
      have last := congrArg List.getLast? same
      rw [List.getLast?_concat] at last
      cases last
    rw [List.map_cons, List.cons_append]
    simp only [locate, dir_x, if_neg open_, if_neg (Nat.not_lt.2 short), dir_next]
    exact ih r dir

/-- A name that is too long is not made. -/
theorem write_long (r : d.Rooted x) (dir : d.entry? x = some .dir) {name : Name}
    (check : checkPath (x ++ [name] : Place).path = .ok ()) (long : maxName < name.bytes.length)
    (bytes : ByteArray) :
    d.write cwd (x ++ [name] : Place).path bytes = .error .nameTooLong := by
  have located : d.locate true maxLinks [] (x.map .down ++ [.down name]) = .error .nameTooLong :=
    locate_long (x := []) long r dir
  rw [write, check, origin, if_pos (Place.isAbsolute_path _), path_concat_components, located]
  rfl

variable {cwd}

theorem write_unchecked {e : OsError} (check : checkPath p = .error e) (bytes : ByteArray) :
    d.write cwd p bytes = .error e := by
  rw [write, check]
  rfl

/-- What could be written below a directory has a path and a name that are not too long. -/
theorem checks_of_write (r : d.Rooted x) (dir : d.entry? x = some .dir) {name : Name}
    {bytes : ByteArray} {d' : Disk}
    (written : d.write cwd (x ++ [name] : Place).path bytes = .ok d') :
    checkPath (x ++ [name] : Place).path = .ok () ∧ name.bytes.length ≤ maxName := by
  have check : checkPath (x ++ [name] : Place).path = .ok () := by
    cases check : checkPath (x ++ [name] : Place).path with
    | ok _ => rfl
    | error e =>
      rw [write_unchecked check] at written
      cases written
  refine ⟨check, ?_⟩
  by_contra long
  rw [write_long cwd r dir check (Nat.not_le.1 long)] at written
  cases written

/-- So its path names it. -/
theorem names_of_write (r : d.Rooted x) (dir : d.entry? x = some .dir) {name : Name}
    (no_link : ∀ target, d.entry? (x ++ [name]) ≠ some (.link target)) {bytes : ByteArray}
    {d' : Disk} (written : d.write cwd (x ++ [name] : Place).path bytes = .ok d') :
    d.Names cwd (x ++ [name] : Place).path (x ++ [name]) := by
  obtain ⟨check, short⟩ := checks_of_write r dir written
  exact .of_rooted (r.concat dir short) (concat_ne_nil x name) no_link check

theorem stat_unchecked {e : OsError} (check : checkPath p = .error e) :
    d.stat cwd p = .error e := by
  rw [stat, find, check]
  rfl

end Disk

end CallSweep
