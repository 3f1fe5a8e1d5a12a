/-
  A write by copy that may be let down by the system at any time.

  Four calls make a copy and put it in the place of a file: a look at the file, a write, a change of
  permissions, a renaming; the first call finds the file, and after a failure one more takes the
  copy away.  Each of them may fail, and the write may stop halfway.

  1. **The copy's place** (`CopySite`) — it lies beside the file, is another place, and is vacant.

  2. **What may have happened** (`Replaced`) — up to a failure nothing has, or a file stands at the
     copy's place; if nothing fails the file is another one.

  3. **Taking away** — the copy is gone unless taking it away has failed.

  `writeSource_replaces_or_keeps` says what this means for what can be seen: the file is replaced and
  all else is as before, or all is as before.
-/
import CallSweep.Proofs.Disk.Beside
import CallSweep.Proofs.Run.Faults
import CallSweep.Proofs.Source.Reread

namespace CallSweep

open Disk (Rooted Names SameBut)

/-! ## The copy's place -/

/-- Something stands at `x`, and beside it in `dir` the name `k` is not taken. -/
structure CopySite (d : Disk) (dir : Place) (k : Name) (x : Place) : Prop where
  beside : x.dropLast = dir
  rooted : d.Rooted dir
  isDir : d.entry? dir = some .dir
  taken : ∃ e, d.entry? x = some e
  vacant : d.entry? (dir ++ [k]) = none
  other : x ≠ dir ++ [k]

/-- The copy of whatever stands at a place is made beside it, under another name. -/
theorem exists_copyPlace (x : Place) :
    ∃ (dir : Place) (k : Name), copyPlace x = dir ++ [k] ∧ x.dropLast = dir ∧ x ≠ dir ++ [k] := by
  obtain rfl | ⟨dir, name, rfl⟩ := List.eq_nil_or_concat' x
  · exact ⟨[], _, rfl, rfl, (concat_ne_nil [] _).symm⟩
  · exact ⟨dir, name.copy, copyPlace_concat dir name, List.dropLast_concat,
      file_ne_copy dir name⟩

theorem exists_copySite {d : Disk} {x : Place} {e : Entry} (rooted : d.Rooted x)
    (entry : d.entry? x = some e) (clear : d.entry? (copyPlace x) = none) :
    ∃ (dir : Place) (k : Name), copyPlace x = dir ++ [k] ∧ CopySite d dir k x := by
  obtain ⟨dir, k, spelled, beside, other⟩ := exists_copyPlace x
  rw [spelled] at clear
  have isDir : d.entry? x.dropLast = some .dir := by
    obtain rfl | ⟨dir', name, rfl⟩ := List.eq_nil_or_concat' x
    · rfl
    · rw [List.dropLast_concat]
      exact (rooted dir' name [] rfl).1
  refine ⟨dir, k, spelled, beside, ?_, ?_, ⟨e, entry⟩, clear, other⟩
  · rw [← beside]
    exact rooted.dropLast
  · rw [← beside]
    exact isDir

/-! ## What may have happened -/

/-- What may have become of a disk on which the file at `x` was to be replaced by a copy made at
    `c`. -/
inductive Replaced (d : Disk) (cwd x c : Place) (bytes : ByteArray) :
    Except OsError Unit → Disk → Prop
  /-- It failed before there was a copy. -/
  | early {e : OsError} : Replaced d cwd x c bytes (.error e) d
  /-- It failed when there was one, whole or in part. -/
  | late {e : OsError} {i : Inode} : Replaced d cwd x c bytes (.error e) (d.withFile c i)
  /-- The copy stands where the file stood, with the permissions of the file. -/
  | whole {stat : Stat} (ne : x ≠ []) (looked : d.stat cwd x.path = .ok stat) :
      Replaced d cwd x c bytes (.ok ())
        (((d.withFile c ⟨bytes, stat.mode &&& Disk.modeMask⟩).erase c).insert x
          (.file d.freshInode))

/-- A file that is made has no permission that a write could take away. -/
theorem Disk.writes_beside {d d' : Disk} {cwd dir : Place} {k : Name} {bytes : ByteArray}
    (rooted : d.Rooted dir) (isDir : d.entry? dir = some .dir)
    (vacant : d.entry? (dir ++ [k]) = none)
    (writes : d.Writes cwd (dir ++ [k] : Place).path bytes d') :
    d.Names cwd (dir ++ [k] : Place).path (dir ++ [k]) ∧
      ∃ mode, d' = d.withFile (dir ++ [k]) ⟨bytes, mode⟩ := by
  cases writes with
  | whole written =>
    obtain ⟨names, made⟩ := Disk.write_beside rooted isDir vacant written
    exact ⟨names, _, made⟩
  | @stripped d' x n mask written file _ =>
    obtain ⟨names, rfl⟩ := Disk.write_beside rooted isDir vacant written
    have made : Disk.entry? (d.withFile (dir ++ [k]) ⟨bytes, newFileMode⟩) (dir ++ [k]) =
        some (.file d.freshInode) := by
      rw [entry?_withFile (concat_ne_nil dir k), Function.update_self]
    have framed := frame_withFile (i := ⟨bytes, newFileMode⟩) (concat_ne_nil dir k) vacant
    rw [(names.of_frame framed).find made] at file
    cases file
    refine ⟨names, newFileMode &&& mask, ?_⟩
    simp only [withFile, setInode, if_true, Disk.mk.injEq, true_and]
    funext n
    by_cases new : n = d.freshInode
    · simp only [new, if_true]
    · rw [if_neg new, if_neg new, if_neg new]

section

variable {h : Host} {w w' : World} {x c dir : Place} {k : Name} {bytes : ByteArray} {T : List Act}

theorem replaced_of_replaceFile {result : Except OsError Unit} (site : CopySite w.disk dir k x)
    (ends : (replaceFile x.path (dir ++ [k] : Place).path bytes).MayEnd h w T result w') :
    Replaced w.disk h.cwd x (dir ++ [k]) bytes result w'.disk := by
  obtain ⟨e, entry⟩ := site.taken
  unfold replaceFile at ends
  -- one call after the other: a failure ends the script
  cases ends with
  | @ask _ _ looked _ w₁ _ T _ may ends =>
    obtain ⟨rfl, looked_ok⟩ := may.of_stat
    cases looked with
    | error e =>
      cases ends
      exact .early
    | ok stat =>
      have looked := looked_ok stat rfl
      cases ends with
      | @ask _ _ written _ w₂ _ T _ may ends =>
        cases written with
        | error e =>
          cases ends
          rcases may.of_write_error with same | ⟨part, -, begun⟩
          · rw [same]
            exact .early
          · obtain ⟨-, mode, made⟩ := Disk.writes_beside site.rooted site.isDir site.vacant begun
            rw [made]
            exact .late
        | ok u =>
          obtain ⟨names, mode, made⟩ :=
            Disk.writes_beside site.rooted site.isDir site.vacant may.of_write_ok
          cases ends with
          | @ask _ _ changed _ w₃ _ T _ may ends =>
            cases changed with
            | error e =>
              cases ends
              rw [may.of_chmod_error, made]
              exact .late
            | ok u =>
              have changed := may.of_chmod_ok
              rw [made] at changed
              have permitted := Disk.chmod_beside site.vacant names changed
              cases ends with
              | ask may ends =>
                cases ends
                cases result with
                | error e =>
                  rw [may.of_rename_error, permitted]
                  exact .late
                | ok u =>
                  have renamed := may.of_rename_ok
                  rw [permitted] at renamed
                  obtain ⟨ne, moved⟩ := Disk.rename_beside site.rooted site.isDir site.vacant
                    site.beside site.other entry renamed
                  rw [moved]
                  exact .whole ne looked

/-! ## Taking away -/

theorem removed_of_removeCopy {u : Unit} (ends : (removeCopy c.path).MayEnd h w T u w') :
    (w'.disk = w.disk ∧ ∃ e, Act.asked (.remove c.path) (.error e) ∈ T) ∨
      w.disk.remove h.cwd c.path = .ok w'.disk := by
  unfold removeCopy at ends
  cases ends with
  | @ask _ _ removed _ w₁ _ T _ may ends =>
    cases removed with
    | ok u =>
      cases ends
      exact .inr may.of_remove_ok
    | error e =>
      obtain rfl := may.of_remove_error
      have failed : ∃ e', Act.asked (.remove c.path) (.error e') ∈
          Act.asked (.remove c.path) (.error e) :: T := ⟨e, List.mem_cons_self⟩
      refine .inl ⟨?_, failed⟩
      by_cases gone : e = .noEntry
      · subst gone
        cases ends
        rfl
      · -- the failure is noted
        have noted : (Script.request (.note (.event (copyLeft c.path)))).MayEnd h w₁ T u w' := by
          cases e with
          | noEntry => exact absurd rfl gone
          | _ => exact ends
        cases noted with
        | ask may ends =>
          cases ends
          cases may with
          | met free answered =>
            cases answered
            rfl
          | failed e fails => cases fails

/-- After a failure all is as it was, but that the copy may be left when it cannot be taken away. -/
theorem sameBut_of_removeCopy {d : Disk} {u : Unit} {e : OsError} (site : CopySite d dir k x)
    (replaced : Replaced d h.cwd x (dir ++ [k]) bytes (.error e) w.disk)
    (ends : (removeCopy (dir ++ [k] : Place).path).MayEnd h w T u w') :
    SameBut (dir ++ [k]) d w'.disk ∧ (w'.disk.view (dir ++ [k]) = none ∨
      ∃ e, Act.asked (.remove (dir ++ [k] : Place).path) (.error e) ∈ T) := by
  have ne := concat_ne_nil dir k
  have free := Disk.view_eq_none_iff.2 site.vacant
  generalize before : w.disk = d₁ at replaced
  cases replaced with
  | early =>
    rcases removed_of_removeCopy ends with ⟨same, failed⟩ | removed
    · rw [same, before]
      exact ⟨.refl _ d, .inl free⟩
    · -- nothing stands there that could be taken away
      obtain ⟨e, nothing⟩ := Disk.remove_clear h.cwd site.rooted site.isDir (.inl site.vacant)
      rw [before, nothing] at removed
      cases removed
  | late =>
    rcases removed_of_removeCopy ends with ⟨same, failed⟩ | removed
    · rw [same, before]
      exact ⟨Disk.sameBut_withFile ne site.vacant, .inr failed⟩
    · rw [before] at removed
      rw [Disk.remove_beside site.rooted site.isDir site.vacant removed]
      obtain ⟨same, gone⟩ := Disk.sameBut_erase_withFile ne site.vacant
      exact ⟨same, .inl gone⟩

/-! ## The whole write -/

/-- What a path leads to is read from the root in the same way. -/
theorem Disk.stat_path {d : Disk} {cwd : Place} {p : Path} {e : Entry} {stat : Stat}
    (here : d.Rooted cwd) (found : d.find cwd p = .ok (x, e)) (ne : x ≠ [])
    (looked : d.stat cwd x.path = .ok stat) : d.stat cwd p = .ok stat := by
  obtain ⟨-, leads, entry⟩ := Disk.find_eq_ok_iff.1 found
  cases check : Disk.checkPath x.path with
  | error e' =>
    rw [Disk.stat_unchecked check] at looked
    cases looked
  | ok u =>
    have rooted := (Rooted.of_cwd here p).of_leads leads
    have names : d.Names cwd x.path x :=
      .of_rooted rooted ne (here.no_link_of_find found) check
    rw [Disk.stat, names.find entry] at looked
    rw [Disk.stat, found]
    exact looked

/-- What has become of a write by copy. -/
theorem exists_of_writeByCopy {p : Path} {result : Except OsError Unit} (here : w.disk.Rooted h.cwd)
    (clear : ∀ x, w.disk.resolve h.cwd p = .ok x → w.disk.entry? (copyPlace x) = none)
    (ends : (writeByCopy p bytes).MayEnd h w T result w') :
    (w'.disk = w.disk ∧ ∃ e, result = .error e) ∨
      ∃ (x dir : Place) (k : Name) (e : Entry), w.disk.resolve h.cwd p = .ok x ∧
        w.disk.find h.cwd p = .ok (x, e) ∧ copyPlace x = dir ++ [k] ∧
        CopySite w.disk dir k x ∧
        ((∃ e, result = .error e ∧ SameBut (dir ++ [k]) w.disk w'.disk ∧
            (w'.disk.view (dir ++ [k]) = none ∨
              ∃ e, Act.asked (.remove (dir ++ [k] : Place).path) (.error e) ∈ T)) ∨
          Replaced w.disk h.cwd x (dir ++ [k]) bytes (.ok ()) w'.disk ∧ result = .ok ()) := by
  unfold writeByCopy at ends
  cases ends with
  | @ask _ _ answer _ w₁ _ T _ may ends =>
    obtain ⟨rfl, resolved⟩ := may.of_resolve
    cases answer with
    | error e =>
      cases ends
      exact .inl ⟨rfl, e, rfl⟩
    | ok x =>
      have resolved := resolved x rfl
      obtain ⟨e, found⟩ := Disk.exists_find_of_resolve resolved
      have rooted := (Rooted.of_cwd here p).of_leads (Disk.find_eq_ok_iff.1 found).2.1
      obtain ⟨dir, k, spelled, site⟩ :=
        exists_copySite rooted (Disk.find_eq_ok_iff.1 found).2.2 (clear x resolved)
      refine .inr ⟨x, dir, k, e, resolved, found, spelled, site, ?_⟩
      dsimp only at ends
      rw [spelled] at ends
      obtain ⟨inner, w₂, T₁, T₂, rfl, replaced, rest⟩ := ends.of_bind
      have replaced := replaced_of_replaceFile site replaced
      cases inner with
      | ok u =>
        cases rest
        exact .inr ⟨replaced, rfl⟩
      | error e =>
        obtain ⟨u, w₃, T₃, T₄, rfl, removed, rest⟩ := Script.MayEnd.of_bind rest
        cases rest
        obtain ⟨same, left⟩ := sameBut_of_removeCopy site replaced removed
        refine .inl ⟨e, rfl, same, left.imp_right ?_⟩
        rintro ⟨e', mem⟩
        refine ⟨e', List.mem_cons_of_mem _ (List.mem_append_right _ ?_)⟩
        exact List.mem_append_left _ mem

/-- **A write by copy replaces the file or leaves all as it was**, whichever of its calls fail.  Let
    nothing stand at the place of the copy, and let the working directory be there, each of its names
    in a directory.

    After a failure every other place looks as before and its file has as many names as before, and
    there is no copy unless the call failed that was to take it away.

    Otherwise the path has led to a place where now stands a file with the new bytes and the
    permissions that were there before; no copy is left; every other place looks as before, and a
    link that the path ends in is the same link. -/
theorem writeSource_replaces_or_keeps (h : Host) (w w' : World) (p : Path) (text : String)
    (result : Except SourceError Unit) (T : List Act) (here : w.disk.Rooted h.cwd)
    (clear : ∀ x, w.disk.resolve h.cwd p = .ok x → w.disk.entry? (copyPlace x) = none)
    (ends : (writeSource p text true).MayEnd h w T result w') :
    (∀ e, result = .error e →
      (∀ y, (∀ x, w.disk.resolve h.cwd p = .ok x → y ≠ copyPlace x) →
        w'.disk.view y = w.disk.view y ∧ w'.disk.linksAt y = w.disk.linksAt y) ∧
      ∀ x, w.disk.resolve h.cwd p = .ok x → w'.disk.view (copyPlace x) = none ∨
        ∃ e, Act.asked (.remove (copyPlace x).path) (.error e) ∈ T) ∧
    (result = .ok () → ∃ x stat, w.disk.resolve h.cwd p = .ok x ∧
      w.disk.stat h.cwd p = .ok stat ∧
      w'.disk.view x = some (.file text.toUTF8 (stat.mode &&& Disk.modeMask)) ∧
      w'.disk.view (copyPlace x) = none ∧ (∀ y ≠ x, w'.disk.view y = w.disk.view y) ∧
      ∀ y target, w.disk.findName h.cwd p = .ok y → w.disk.view y = some (.link target) →
        w'.disk.view y = some (.link target)) := by
  obtain ⟨inner, w₁, T₁, T₂, rfl, copied, rest⟩ :=
    Script.MayEnd.of_bind (s := writeByCopy p text.toUTF8) ends
  cases rest
  rw [List.append_nil]
  rcases exists_of_writeByCopy here clear copied with
    ⟨same, e, rfl⟩ | ⟨x, dir, k, e, resolved, found, spelled, site, what⟩
  · -- the path could not be resolved
    rw [same]
    refine ⟨fun e' _ => ⟨fun y _ => ⟨rfl, rfl⟩, fun x resolved => .inl ?_⟩, fun ok => by cases ok⟩
    exact Disk.view_eq_none_iff.2 (clear x resolved)
  have only {x' : Place} (resolved' : w.disk.resolve h.cwd p = .ok x') : x' = x := by
    rw [resolved] at resolved'
    cases resolved'
    rfl
  rcases what with ⟨e, rfl, same, left⟩ | ⟨replaced, rfl⟩
  · refine ⟨fun e' _ => ⟨fun y other => ?_, fun x' resolved' => ?_⟩, fun ok => by cases ok⟩
    · have away : y ≠ dir ++ [k] := spelled ▸ other x resolved
      exact ⟨same.view y away, same.links y away⟩
    · rw [only resolved', spelled]
      exact left
  · refine ⟨fun e failed => (by cases failed), fun _ => ?_⟩
    have no_link := here.no_link_of_find found
    generalize w'.disk = d' at replaced ⊢
    cases replaced with
    | @whole stat ne looked =>
      have view := Disk.view_replaced
        (i := ⟨text.toUTF8, stat.mode &&& Disk.modeMask⟩) (concat_ne_nil dir k) site.vacant ne
      have others : ∀ y ≠ x, Disk.view _ y = w.disk.view y := fun y away => by
        rw [view, Function.update_of_ne away]
      refine ⟨x, stat, resolved, Disk.stat_path here found ne looked, ?_, ?_, others, ?_⟩
      · rw [view, Function.update_self, Nat.and_assoc, Nat.and_self]
      · rw [spelled, others _ site.other.symm, Disk.view_eq_none_iff]
        exact site.vacant
      · intro y target _ link
        -- the file that was replaced is no link
        have away : y ≠ x := by
          rintro rfl
          obtain ⟨e', entry, shown⟩ := Option.map_eq_some_iff.1 link
          cases e' with
          | link target' => exact no_link target' entry
          | dir | file _ | socket | nullDevice => cases shown
        rw [others y away, link]

end

/-! ### A write that is cut short -/

namespace OneSource

variable (text : String)

theorem clear : ∀ x, (disk text).resolve [] path = .ok x →
    Disk.entry? (disk text) (copyPlace x) = none := by
  intro x resolved
  rw [(names text).resolve_eq rfl, if_neg (by decide)] at resolved
  cases resolved
  rw [copyPlace_concat]
  exact vacant text

/-- The medium is full. -/
def full : OsError := .other "No space left on device (os error 28)"

/-- The device is broken. -/
def broken : OsError := .other "Input/output error (os error 5)"

/-- The disk with two bytes of a copy. -/
def torn : Disk := (disk text).withFile ([] ++ [aJs.copy]) ⟨"ne".toUTF8, Disk.newFileMode⟩

/-- A write that stops when two bytes of the copy are written, which cannot be taken away. -/
theorem exists_cut_short : ∃ T w', (writeSource path "new" true).MayEnd (.quiet [])
    (.start (disk text)) T (.error (.system full)) w' ∧ w'.disk = torn text := by
  have names_copy : (disk text).Names [] ([] ++ [aJs.copy] : Place).path ([] ++ [aJs.copy]) := by
    have check : Disk.checkPath ([] ++ [aJs.copy] : Place).path = .ok () :=
      Disk.checkPath_eq_ok_iff.2 (by decide)
    refine .of_rooted (Disk.Rooted.nil.concat rfl (by decide)) (List.cons_ne_nil _ _)
      (fun target link => ?_) check
    cases link
  have resolved : (disk text).resolve [] path = .ok [aJs] := by
    rw [(names text).resolve_eq rfl, if_neg (by decide)]
    rfl
  have looked := (names text).stat_file (n := 0) rfl
  have begun : (disk text).write [] ([] ++ [aJs.copy] : Place).path "ne".toUTF8 =
      .ok (torn text) := names_copy.write_new (vacant text) _
  have stopped : (replaceFile path ([] ++ [aJs.copy] : Place).path "new".toUTF8).MayEnd (.quiet [])
      (.start (disk text)) _ (.error full) { World.start (disk text) with disk := torn text } :=
    .ask (.met rfl (congrArg (·, World.start (disk text)) looked))
      (.ask (.cutShort full (by decide +kernel) (.whole begun)) .done)
  have left : (removeCopy ([] ++ [aJs.copy] : Place).path).MayEnd (.quiet [])
      { World.start (disk text) with disk := torn text } _ () _ :=
    .ask (.failed broken rfl) (.ask (.met rfl rfl) .done)
  have copied : (writeByCopy path "new".toUTF8).MayEnd (.quiet []) (.start (disk text)) _
      (.error full) _ :=
    .ask (.met rfl (congrArg (·, World.start (disk text)) resolved))
      (stopped.bind (left.bind .done))
  exact ⟨_, _, copied.bind .done, rfl⟩

/-- The file is what it was when the copy is torn, and the new one when nothing fails. -/
theorem replaces_or_keeps_one_source :
    (∃ T w', (writeSource path "new" true).MayEnd (.quiet []) (.start (disk "old")) T
        (.error (.system full)) w' ∧
      w'.disk.view [aJs] = (disk "old").view [aJs] ∧
      ∃ e, Act.asked (.remove (copyPlace [aJs]).path) (.error e) ∈ T) ∧
    ∃ T w', (writeSource path "new" true).MayEnd (.quiet []) (.start (disk "old")) T (.ok ()) w' ∧
      w'.disk.view [aJs] = some (.file "new".toUTF8 0o644) := by
  have resolved : (disk "old").resolve [] path = .ok [aJs] := by
    rw [(names "old").resolve_eq rfl, if_neg (by decide)]
    rfl
  constructor
  · obtain ⟨T, w', ends, is_torn⟩ := exists_cut_short "old"
    obtain ⟨kept, copy⟩ := (writeSource_replaces_or_keeps _ _ w' path "new" _ T .nil (clear "old")
      ends).1 _ rfl
    refine ⟨T, w', ends, (kept [aJs] fun x at_x => ?_).1, (copy [aJs] resolved).resolve_left ?_⟩
    · rw [show x = [aJs] from Except.ok.inj (at_x.symm.trans resolved)]
      exact file_ne_copy [] aJs
    · rw [is_torn, torn, Disk.view_withFile (concat_ne_nil [] _)]
      exact Option.some_ne_none _
  · obtain ⟨w', ran⟩ := exists_written "old" "new"
    obtain ⟨T, ends⟩ := Script.exists_mayEnd_of_runScript ran
    obtain ⟨x, stat, at_x, looked, shown, -⟩ := (writeSource_replaces_or_keeps _ _ w' path "new" _ T
      .nil (clear "old") ends).2 rfl
    obtain rfl : x = [aJs] := Except.ok.inj (at_x.symm.trans resolved)
    have was : (disk "old").stat [] path = .ok _ := (names "old").stat_file (n := 0) rfl
    obtain rfl : stat = _ := Except.ok.inj (looked.symm.trans was)
    exact ⟨T, w', ends, shown⟩

end OneSource

end CallSweep
