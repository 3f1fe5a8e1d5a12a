/-
  A file that is made where nothing stood, and what becomes of it.

  `Disk.withFile d c i` is a disk with a new file at the place `c`.  All else is seen as before, and
  the files that were there keep the number of their names (`SameBut`).

  1. **Calls** — below a directory, the path of `c` is good for four calls: writing makes the file
     (`write_beside`), another call gives it permissions (`chmod_beside`), and then it is taken away
     again (`remove_beside`) or takes the place of what stands beside it (`rename_beside`).

  2. **What is seen** — a file that has been made and taken away has left no trace
     (`sameBut_erase_withFile`); one that has taken the place of another is seen there alone
     (`view_replaced`).
-/
import CallSweep.Proofs.Disk.Calls

namespace CallSweep

namespace Disk

/-! ## New files -/

/-- The disk with a new file at a place. -/
def withFile (d : Disk) (c : Place) (i : Inode) : Disk :=
  (d.insert c (.file d.freshInode)).setInode d.freshInode i

/-- How many names the file at a place has, if a file stands there. -/
def linksAt (d : Disk) (x : Place) : Option Nat := (d.entry? x).bind inodeOf? |>.map d.linkCount

/-- Away from the place `c` all is seen as before, and files have as many names. -/
structure SameBut (c : Place) (d d' : Disk) : Prop where
  view : ∀ y ≠ c, d'.view y = d.view y
  links : ∀ y ≠ c, d'.linksAt y = d.linksAt y

theorem SameBut.refl (c : Place) (d : Disk) : SameBut c d d := ⟨fun _ _ => rfl, fun _ _ => rfl⟩

section

variable {d : Disk} {c : Place} {i : Inode}

theorem erase_of_vacant (ne : c ≠ []) (vacant : d.entry? c = none) : d.erase c = d := by
  have keep : d.entries.filter (·.1 ≠ c) = d.entries := by
    rw [List.filter_eq_self]
    rintro ⟨x, e⟩ mem
    have other : x ≠ c := by
      rintro rfl
      rw [(d.entry?_eq_some_iff ne e).2 mem] at vacant
      cases vacant
    simpa using other
  show Disk.mk _ _ _ = _
  simp only [keep]

theorem entry?_withFile (ne : c ≠ []) :
    Disk.entry? (d.withFile c i) = Function.update d.entry? c (some (.file d.freshInode)) := by
  rw [withFile, entry?_setInode, entry?_insert d ne]

theorem view_withFile (ne : c ≠ []) : (d.withFile c i).view =
    Function.update d.view c (some (.file i.bytes (i.mode &&& modeMask))) :=
  view_create d ne i

theorem frame_withFile (ne : c ≠ []) (vacant : d.entry? c = none) :
    Frame ∅ d (d.withFile c i) :=
  Frame.create (.refl fun _ hx => hx.elim) ne vacant i

/-- A new file is not a new name of another one. -/
theorem linkCount_withFile (ne : c ≠ []) (vacant : d.entry? c = none) {n : Nat}
    (old : n ≠ d.freshInode) : (d.withFile c i).linkCount n = d.linkCount n := by
  show ((c, Entry.file d.freshInode) :: (d.erase c).entries).countP _ = _
  rw [erase_of_vacant ne vacant, List.countP_cons_of_neg]
  · rfl
  · simpa using old.symm

theorem sameBut_withFile (ne : c ≠ []) (vacant : d.entry? c = none) :
    SameBut c d (d.withFile c i) := by
  constructor
  · intro y other
    rw [view_withFile ne, Function.update_of_ne other]
  · intro y other
    rw [linksAt, linksAt, entry?_withFile ne, Function.update_of_ne other]
    cases entry : d.entry? y with
    | none => rfl
    | some e =>
      cases e with
      | file n =>
        -- the number was taken before
        have old : n ≠ d.freshInode := Nat.ne_of_lt (lt_freshInode entry)
        show some _ = some _
        rw [linkCount_withFile ne vacant old]
      | dir | link _ | socket | nullDevice => rfl

theorem linksAt_congr {d' : Disk} (same : d'.entries = d.entries) (x : Place) :
    d'.linksAt x = d.linksAt x := by
  unfold linksAt entry? linkCount
  rw [same]

/-- A file that was made and taken away again has left nothing behind. -/
theorem sameBut_erase_withFile (ne : c ≠ []) (vacant : d.entry? c = none) :
    SameBut c d ((d.withFile c i).erase c) ∧ ((d.withFile c i).erase c).view c = none := by
  have kept : d.entries.filter (·.1 ≠ c) = d.entries :=
    congrArg entries (erase_of_vacant ne vacant)
  have entries : ((d.withFile c i).erase c).entries = d.entries := by
    show ((c, Entry.file d.freshInode) :: d.entries.filter (·.1 ≠ c)).filter (·.1 ≠ c) = _
    rw [kept, List.filter_cons_of_neg (by simp), kept]
  refine ⟨⟨?_, fun y _ => linksAt_congr entries y⟩, ?_⟩
  · intro y other
    rw [view_erase _ ne, Function.update_of_ne other]
    exact (sameBut_withFile ne vacant).view y other
  · rw [view_erase _ ne, Function.update_self]

/-- A new file that has taken a place is seen there, and nothing else is seen otherwise. -/
theorem view_replaced (ne : c ≠ []) (vacant : d.entry? c = none) {x : Place} (hx : x ≠ []) :
    (((d.withFile c i).erase c).insert x (.file d.freshInode)).view =
      Function.update d.view x (some (.file i.bytes (i.mode &&& modeMask))) := by
  have made : Disk.entry? (d.withFile c i) c = some (.file d.freshInode) := by
    rw [entry?_withFile ne, Function.update_self]
  rw [view_move _ ne hx made, view_withFile ne, Function.update_self]
  funext y
  by_cases at_x : y = x
  · rw [at_x, Function.update_self, Function.update_self]
  rw [Function.update_of_ne at_x, Function.update_of_ne at_x]
  by_cases at_c : y = c
  · rw [at_c, Function.update_self, view_eq_none_iff.2 vacant]
  · rw [Function.update_of_ne at_c, Function.update_of_ne at_c]

end

/-! ## Calls -/

section

variable {d d' : Disk} {cwd dir x : Place} {k : Name} {m : Nat} (rooted : d.Rooted dir)
  (isDir : d.entry? dir = some .dir) (made : d.entry? (dir ++ [k]) = some (.file m))

include rooted isDir made

theorem remove_file (check : checkPath (dir ++ [k] : Place).path = .ok ())
    (short : k.bytes.length ≤ maxName) :
    d.remove cwd (dir ++ [k] : Place).path = .ok (d.erase (dir ++ [k])) := by
  have found := (findName_path_iff cwd rooted isDir).2 ⟨check, short, rfl⟩
  rw [remove, found]
  simp only [bind, Except.bind, made]
  rfl

theorem eq_erase_of_remove (removed : d.remove cwd (dir ++ [k] : Place).path = .ok d') :
    d' = d.erase (dir ++ [k]) := by
  cases found : d.findName cwd (dir ++ [k] : Place).path with
  | error e =>
    rw [remove, found] at removed
    cases removed
  | ok y =>
    obtain ⟨check, short, -⟩ := (findName_path_iff cwd rooted isDir).1 found
    rw [remove_file rooted isDir made check short] at removed
    cases removed
    rfl

/-- A file without another name is moved over what stands beside it, which cannot be the root. -/
theorem eq_move_of_rename (alone : d.Alone (dir ++ [k])) (beside : x.dropLast = dir)
    (other : x ≠ dir ++ [k]) {e : Entry} (entry : d.entry? x = some e)
    (renamed : d.rename cwd (dir ++ [k] : Place).path x.path = .ok d') :
    x ≠ [] ∧ d' = (d.erase (dir ++ [k])).insert x (.file m) := by
  cases source : d.findName cwd (dir ++ [k] : Place).path with
  | error e =>
    rw [rename, source] at renamed
    cases renamed
  | ok y =>
    obtain ⟨-, -, rfl⟩ := (findName_path_iff cwd rooted isDir).1 source
    cases goal : d.findName cwd x.path with
    | error e =>
      rw [rename, source, goal] at renamed
      cases renamed
    | ok z =>
      obtain rfl | ⟨init, name, rfl⟩ := List.eq_nil_or_concat' x
      · -- the root has no name that could be taken
        cases goal
      · rw [List.dropLast_concat] at beside
        subst beside
        obtain ⟨-, -, rfl⟩ := (findName_path_iff cwd rooted isDir).1 goal
        refine ⟨concat_ne_nil init name, ?_⟩
        rw [rename, source, goal] at renamed
        simp only [bind, Except.bind, made, entry, if_neg other.symm] at renamed
        cases e with
        | dir => cases renamed
        | file n =>
          -- the file is not another name of the one that it replaces
          have fresh : m ≠ n := by
            rintro rfl
            exact other (alone _ m made entry)
          simp only [Entry.file.injEq, fresh] at renamed
          cases renamed
          rfl
        | link _ | socket | nullDevice =>
          cases renamed
          rfl

end

section

variable {d d' : Disk} {cwd dir x : Place} {k : Name} {i : Inode} (rooted : d.Rooted dir)
  (isDir : d.entry? dir = some .dir) (vacant : d.entry? (dir ++ [k]) = none)

include vacant

/-- Permissions are given to the new file. -/
theorem chmod_beside (names : d.Names cwd (dir ++ [k] : Place).path (dir ++ [k])) {mode : Nat}
    (changed : (d.withFile (dir ++ [k]) i).chmod cwd (dir ++ [k] : Place).path mode = .ok d') :
    d' = d.withFile (dir ++ [k]) { i with mode := mode &&& modeMask } := by
  have made : Disk.entry? (d.withFile (dir ++ [k]) i) (dir ++ [k]) = some (.file d.freshInode) := by
    rw [entry?_withFile (concat_ne_nil dir k), Function.update_self]
  have framed := frame_withFile (i := i) (concat_ne_nil dir k) vacant
  rw [(names.of_frame framed).chmod_file made] at changed
  cases changed
  simp only [withFile, setInode, Disk.mk.injEq, true_and]
  funext n
  by_cases new : n = d.freshInode
  · simp only [new, if_true]
  · rw [if_neg new, if_neg new, if_neg new]

include rooted isDir

/-- Writing makes the file. -/
theorem write_beside {bytes : ByteArray}
    (written : d.write cwd (dir ++ [k] : Place).path bytes = .ok d') :
    d.Names cwd (dir ++ [k] : Place).path (dir ++ [k]) ∧
      d' = d.withFile (dir ++ [k]) ⟨bytes, newFileMode⟩ := by
  have names := names_of_write rooted isDir (fun target link => by
    rw [vacant] at link
    cases link) written
  rw [names.write_new vacant] at written
  cases written
  exact ⟨names, rfl⟩

/-- The file is taken away. -/
theorem remove_beside
    (removed : (d.withFile (dir ++ [k]) i).remove cwd (dir ++ [k] : Place).path = .ok d') :
    d' = (d.withFile (dir ++ [k]) i).erase (dir ++ [k]) := by
  have framed := frame_withFile (i := i) (concat_ne_nil dir k) vacant
  have made : Disk.entry? (d.withFile (dir ++ [k]) i) (dir ++ [k]) = some (.file d.freshInode) := by
    rw [entry?_withFile (concat_ne_nil dir k), Function.update_self]
  exact eq_erase_of_remove (rooted.of_frame framed) ((framed.dir_iff dir).2 isDir) made removed

/-- The file takes the place of what stands beside it, which cannot be the root. -/
theorem rename_beside (beside : x.dropLast = dir) (other : x ≠ dir ++ [k]) {e : Entry}
    (entry : d.entry? x = some e)
    (renamed : (d.withFile (dir ++ [k]) i).rename cwd (dir ++ [k] : Place).path x.path = .ok d') :
    x ≠ [] ∧ d' = ((d.withFile (dir ++ [k]) i).erase (dir ++ [k])).insert x
      (.file d.freshInode) := by
  have framed := frame_withFile (i := i) (concat_ne_nil dir k) vacant
  have made : Disk.entry? (d.withFile (dir ++ [k]) i) (dir ++ [k]) = some (.file d.freshInode) := by
    rw [entry?_withFile (concat_ne_nil dir k), Function.update_self]
  have still : Disk.entry? (d.withFile (dir ++ [k]) i) x = some e := by
    rw [entry?_withFile (concat_ne_nil dir k), Function.update_of_ne other, entry]
  have alone : (d.withFile (dir ++ [k]) i).Alone (dir ++ [k]) :=
    alone_create d (concat_ne_nil dir k)
  exact eq_move_of_rename (rooted.of_frame framed) ((framed.dir_iff dir).2 isDir) made alone beside
    other still renamed

end

end Disk

end CallSweep
