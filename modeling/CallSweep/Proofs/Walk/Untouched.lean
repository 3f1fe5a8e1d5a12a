/-
  What a run that replaces files by copies leaves alone.

  1. **Others are left alone** (`walk_leaves_others`) — on every disk, however its files are linked,
     each place that is not that of a swept file is as before, and a swept file is still a file.
     All that it takes is that nothing but a directory stands where a copy is to be made.

  2. **A link in the way** (`Diverted.run_walk`) — the copy's name is opened without a look at what
     stands there.  If that is a link to a file, the file that it leads to gets the swept text and
     the permissions of the swept one, and the link itself takes that one's place.

  3. **The promise is broken** (`LinkBeside.not_leaves_others`) — so the condition is not idle:
     where a link is in the way, another file is overwritten.
-/
import CallSweep.Proofs.Walk.Sweeping

namespace CallSweep

open Disk (Rooted Names)
open Walk (Sweeps Rewrites processFile sweepFile log replace replace_of_live)

/-! ## Others are left alone -/

namespace Walk

/-- Nothing breaks off a listing that has been opened, where nothing fails but for what the disk
    holds. -/
theorem not_snapped_of_mets {h : Host} {w w' : World} {T : List Act}
    (mets : World.Mets h.system w T w') : ¬ Snapped T := by
  have breaks {act : Act} {f : Failure} {w₁ w₂ : World} (met : act.Met h.system w₁ w₂) :
      act.breaks? ≠ some f := by
    induction act with
    | asked r answer =>
      intro breaks
      cases r with
      | next p l =>
        have answered : w₁.answer h (.next p l) = (answer, w₂) := met.2
        cases answered
        cases comes : l.next? with
        | none =>
          simp only [comes] at breaks
          cases breaks
        | some next =>
          simp only [comes] at breaks
          cases breaks
      | _ => cases breaks
    | inside i act ih => exact ih met
    | _ => nofun
  rintro ⟨f, ⟨act, mem, breaks'⟩, -⟩
  obtain ⟨w₁, w₂, met⟩ := mets.possible act mem
  exact breaks met breaks'

theorem not_copyStays_of_system {h : Host} {x : Place} {T : List Act} :
    ¬ CopyStays h.system x T := by
  rintro ⟨e, -, w, w', answered, d, removed⟩
  have removed : w.disk.remove h.cwd x.path = .ok d := removed
  have committed : w.commit (w.disk.remove h.cwd x.path) = (.error e, w') := answered
  rw [removed] at committed
  cases committed

/-- What was a file still is one. -/
theorem Outcome.exists_file {plan : Plan} {q f : Path} {T : List Act} {old : ByteArray}
    {permissions : Nat} {node : Node} (outcome : Outcome plan q T f old permissions node) :
    ∃ bytes mode, node = .file bytes mode := by
  cases outcome with
  | barred _ _ => exact ⟨_, _, rfl⟩
  | swept _ _ _ swept =>
    cases swept with
    | unread _ | unchanged _ _ | rewritten _ _ _ => exact ⟨_, _, rfl⟩
    | unwritten _ _ left =>
      cases left with
      | same _ | cut _ _ _ _ => exact ⟨_, _, rfl⟩

end Walk

/-- **Others are left alone.**  Let nothing, or a directory, stand at the copy's place of each file
    that is to be rewritten.  Then a run by copies ends, whatever the order of turns, with every
    place as it was but for those of the files that it sweeps, and these still hold files.

    Requests fail here for what the disk holds and for nothing else, what is listed of a directory are
    the entries that it has when it is opened, and a task that crashes is told of when the others have
    ended.  What a system may leave that fails more is said by `walk_settles`. -/
theorem walk_leaves_others (plan : Plan) (h : Host) (w : World) (p : Path)
    (atomic : plan.atomicWrite = true)
    (clear : ∀ f dir name,
      Sweeps plan w.disk h.cwd (Path.absolute h.cwd.path p) f (dir ++ [name]) →
      Rewrites plan w.disk (dir ++ [name]) →
      w.disk.entry? (dir ++ [name.copy]) = none ∨ w.disk.entry? (dir ++ [name.copy]) = some .dir) :
    Job.Settles h
      (fun w' =>
        (∀ x, (∀ f, ¬ Sweeps plan w.disk h.cwd (Path.absolute h.cwd.path p) f x) →
          w'.disk.view x = w.disk.view x) ∧
        ∀ f x, Sweeps plan w.disk h.cwd (Path.absolute h.cwd.path p) f x →
          ∃ bytes permissions, w'.disk.view x = some (.file bytes permissions))
      (walk plan h.cwd.path p) w := by
  have clear' : ∀ f x, Sweeps plan w.disk h.cwd (Path.absolute h.cwd.path p) f x →
      Walk.Clear plan w.disk x := by
    intro f x s rewrites
    obtain ⟨dir, name, rfl⟩ := (Walk.sweeps_iff.1 s).1.exists_concat
    rw [copyPlace_concat]
    refine ⟨clear f dir name s rewrites, fun in_place => ?_⟩
    rw [atomic] at in_place
    cases in_place
  refine Job.ends_of_traces fun T crew w' did ended mets => ?_
  have fair := h.system_fair
  cases live : plan.dryRun with
  | true =>
    have still := (Walk.walk_still live h.cwd.path p).asks did
    have same := mets.disk_eq fair.toHonest still
    refine ⟨fun x _ => congrArg (Disk.view · x) same, fun f x s => ?_⟩
    obtain ⟨n, file⟩ := (Walk.sweeps_iff.1 s).1.exists_file
    exact ⟨_, _, (congrArg (Disk.view · x) same).trans (Disk.view_of_entry file)⟩
  | false =>
    have whole := Walk.not_snapped_of_mets mets
    refine ⟨fun x none_ => ?_, fun f x s => ?_⟩
    · by_cases reached : ∃ f, Walk.Reaches plan w.disk h.cwd (Path.absolute h.cwd.path p) f x
      · -- the file is too far away to be found
        obtain ⟨f, r⟩ := reached
        refine Walk.view_eq_of_lost fair rfl clear' did ended whole mets r ?_
        exact r.found_or_lost.resolve_left fun found => none_ f (Walk.sweeps_iff.2 ⟨r, found⟩)
      · have others := Walk.others_of_did fair rfl clear' did ended whole mets live
          fun f r => reached ⟨f, r⟩
        refine others.resolve_right ?_
        rintro ⟨s, -, y, -, -, stays⟩
        exact Walk.not_copyStays_of_system stays
    · obtain ⟨old, permissions, node, -, shown, outcome⟩ :=
        Walk.outcome_of_did fair rfl clear' did ended whole mets live (Walk.sweeps_iff.1 s).1
      obtain ⟨bytes, mode, rfl⟩ := outcome.exists_file
      exact ⟨bytes, mode, shown⟩

/-- Where no name begins with a dot, no entry has the name of a copy. -/
theorem Disk.entry?_copy_eq_none {d : Disk}
    (plain : ∀ e ∈ d.entries, (e.1.getLast?.bind fun name => name.bytes.head?) ≠ some dot)
    (dir : Place) (name : Name) : d.entry? (dir ++ [name.copy]) = none := by
  cases entry : d.entry? (dir ++ [name.copy]) with
  | none => rfl
  | some e =>
    rw [entry?_eq_some_iff _ (concat_ne_nil dir name.copy)] at entry
    refine absurd ?_ (plain _ entry)
    rw [List.getLast?_concat]
    rfl

/-- A file right below the root is found by its name. -/
theorem Disk.find_below_root {d : Disk} {name : Name} {n : Nat}
    (short : name.bytes.length ≤ maxName) (check : checkPath (Place.path [name]) = .ok ())
    (file : d.entry? [name] = some (.file n)) :
    d.find [] (Place.path [name]) = .ok ([name], .file n) := by
  have rooted : d.Rooted ([] ++ [name]) := Disk.Rooted.nil.concat rfl short
  have names : d.Names [] (Place.path [name]) ([] ++ [name]) := by
    refine .of_rooted rooted (List.cons_ne_nil _ _) (fun target link => ?_) check
    cases file.symm.trans link
  exact names.find file

/-! ### A file of two names -/

open OneFile (aJs plan)

theorem Disk.find_aJs {d : Disk} {n : Nat} (file : d.entry? [aJs] = some (.file n)) :
    d.find [] (Path.absolute (Place.path []) (Path.ofString "a.js")) = .ok ([aJs], .file n) := by
  have absolute : Path.absolute (Place.path []) (Path.ofString "a.js") = Place.path [aJs] := by
    decide +kernel
  rw [absolute]
  exact find_below_root (by decide) (checkPath_eq_ok_iff.2 (by decide)) file

namespace TwoNames

def bTxt : Name := ⟨[0x62, 0x2e, 0x74, 0x78, 0x74], by decide⟩

/-- The file `/a.js`, which is called `/b.txt`, too. -/
def disk : Disk where
  entries := [([aJs], .file 0), ([bTxt], .file 0)]
  inode _ := ⟨"console.log(1);x".toUTF8, 0o640⟩
  nodup := by decide

/-- The file is swept under its one name and keeps its old text under the other. -/
theorem walk_leaves_second_name :
    Job.Settles (.quiet [])
      (fun w' => w'.disk.view [bTxt] = some (.file "console.log(1);x".toUTF8 0o640) ∧
        ∃ bytes permissions, w'.disk.view [aJs] = some (.file bytes permissions))
      (walk plan (Place.path []) (Path.ofString "a.js")) (.start disk) := by
  have found : disk.find [] (Path.absolute (Place.path []) (Path.ofString "a.js")) =
      .ok ([aJs], .file 0) := Disk.find_aJs rfl
  have clear := Disk.entry?_copy_eq_none (d := disk) (by decide)
  have settles := walk_leaves_others plan (.quiet []) (.start disk) (Path.ofString "a.js") rfl
    fun f dir name _ _ => .inl (clear dir name)
  refine settles.mono fun w' ⟨same, file⟩ => ⟨?_, ?_⟩
  · refine (same [bTxt] fun f s => ?_).trans rfl
    obtain ⟨-, other, -⟩ := (Walk.sweeps_iff_of_file found).1 s
    exact absurd other (by decide)
  · exact file _ [aJs] ((Walk.sweeps_iff_of_file found).2 ⟨rfl, rfl, by decide +kernel⟩)

end TwoNames

/-! ## Scripts by themselves -/

namespace Script

variable {h : Host} {w w' : World} {α β : Type}

theorem andThen_bind (s : Script α) (f : α → Script β) (g : β → Job) :
    (s.bind f).andThen g = s.andThen fun a => (f a).andThen g := by
  induction s with
  | done a => rfl
  | ask r next ih => simp only [ask_bind, andThen, ih]

/-- A script that ends, as the first part of a job. -/
theorem Ends.run_andThen {s : Script α} {f : α → Job} {a : α} (ends : Ends h s w a w') :
    World.run h (s.andThen f) w = World.run h (f a) w' := by
  induction ends with
  | done => rfl
  | ask free answered _ ih =>
    rw [← ih]
    refine (World.run_ask_of_free free).trans ?_
    rw [answered]

/-- A script that asks for no change leaves the disk as it is, also if it crashes. -/
theorem Only.run_disk {s : Script Unit} (still : s.Only fun r => r.isChange = false) (w : World) :
    (World.run h s.job w).2.disk = w.disk := by
  obtain ⟨T, crew, did, -, -, mets⟩ := World.run_did (h := h) s.job w
  exact mets.disk_eq h.system_honest ((Job.Only.job still).asks did)

end Script

/-! ## A link in the way -/

open Script (Ends)

/-- The copy's name of a file is that of a link, which leads to another file. -/
structure Diverted (d : Disk) (cwd dir : Place) (name : Name) (n : Nat) (target : Path) (y : Place)
    (m : Nat) : Prop where
  rooted : d.Rooted (dir ++ [name])
  isDir : d.entry? dir = some .dir
  copyable : Copyable dir name
  file : d.entry? (dir ++ [name]) = some (.file n)
  link : d.entry? (dir ++ [name.copy]) = some (.link target)
  names_other : d.Names cwd (dir ++ [name.copy] : Place).path y
  other : d.entry? y = some (.file m)
  ne : y ≠ dir ++ [name]

namespace Diverted

variable {h : Host} {w : World} {d : Disk} {p : Path} {dir y : Place} {name : Name} {target : Path}
  {m n : Nat}

theorem setInode {cwd : Place} (diverted : Diverted d cwd dir name n target y m) (k : Nat)
    (i : Inode) : Diverted (d.setInode k i) cwd dir name n target y m where
  rooted := diverted.rooted
  isDir := diverted.isDir
  copyable := diverted.copyable
  file := diverted.file
  link := diverted.link
  names_other := by
    have frame : Disk.Frame ∅ d d := .refl fun _ hx => hx.elim
    exact diverted.names_other.of_frame (frame.setInode k i)
  other := diverted.other
  ne := diverted.ne

theorem rename {cwd : Place} (diverted : Diverted d cwd dir name n target y m) :
    d.rename cwd (dir ++ [name.copy] : Place).path (dir ++ [name] : Place).path =
      .ok ((d.erase (dir ++ [name.copy])).insert (dir ++ [name]) (.link target)) := by
  obtain ⟨check, check', short'⟩ := diverted.copyable
  have short : name.bytes.length ≤ maxName := (diverted.rooted dir name [] rfl).2
  have r := diverted.rooted.of_append
  have source := (Disk.findName_path_iff cwd r diverted.isDir).2 ⟨check', short', rfl⟩
  have goal := (Disk.findName_path_iff cwd r diverted.isDir).2 ⟨check, short, rfl⟩
  have places_ne := (file_ne_copy dir name).symm
  rw [Disk.rename, source, goal]
  simp only [bind, Except.bind, diverted.link, diverted.file, if_neg places_ne]
  simp
  rfl

/-- The link is moved to the file's place, and the other file stays where it is. -/
theorem view_rename {cwd : Place} (diverted : Diverted d cwd dir name n target y m) :
    ((d.erase (dir ++ [name.copy])).insert (dir ++ [name]) (.link target)).view y = d.view y ∧
      ((d.erase (dir ++ [name.copy])).insert (dir ++ [name]) (.link target)).view (dir ++ [name]) =
        some (.link target) := by
  -- the other file is no link, so it is not what stands at the copy's place
  have ne' : y ≠ dir ++ [name.copy] := by
    rintro rfl
    have link := diverted.link
    rw [diverted.other] at link
    cases link
  rw [Disk.view_move _ (concat_ne_nil dir name.copy) (concat_ne_nil dir name) diverted.link]
  constructor
  · rw [Function.update_of_ne diverted.ne, Function.update_of_ne ne']
  · rw [Function.update_self]
    exact Disk.view_of_entry diverted.link

/-- What the other file is given, and what is left at the place of the swept one. -/
def Outcome (dir : Place) (name : Name) (target : Path) (y : Place) (text : String)
    (permissions : Nat) (d : Disk) : Prop :=
  d.view y = some (.file text.toUTF8 permissions) ∧ d.view (dir ++ [name]) = some (.link target)

theorem replaceFile_ends (diverted : Diverted w.disk h.cwd dir name n target y m) (text : String) :
    ∃ w', Ends h
        (replaceFile (dir ++ [name] : Place).path (dir ++ [name.copy] : Place).path text.toUTF8) w
        (.ok ()) w' ∧
      Outcome dir name target y text ((w.disk.inode n).mode &&& Disk.modeMask) w'.disk := by
  have names : w.disk.Names h.cwd (dir ++ [name] : Place).path (dir ++ [name]) :=
    .of_rooted diverted.rooted (concat_ne_nil dir name)
      (fun target link => by
        rw [diverted.file] at link
        cases link)
      diverted.copyable.1
  -- bytes and permissions both go through the link, to the other file's inode
  have written := diverted.setInode m { w.disk.inode m with bytes := text.toUTF8 }
  have changed := written.setInode m
    { (w.disk.setInode m { w.disk.inode m with bytes := text.toUTF8 }).inode m with
      mode := (w.disk.inode n).mode &&& Disk.modeMask }
  have stat := names.stat_file diverted.file
  have write := diverted.names_other.write_file diverted.other text.toUTF8
  have chmod := written.names_other.chmod_file written.other (w.disk.inode n).mode
  refine ⟨{ w with disk := _ }, ?_, changed.view_rename.1.trans ?_, changed.view_rename.2⟩
  · refine .ask rfl (congrArg (·, w) stat) ?_
    refine .ask rfl (congrArg w.commit write) ?_
    refine .ask rfl (congrArg (World.commit _) chmod) ?_
    exact .ask rfl (congrArg (World.commit _) changed.rename) .done
  · rw [Disk.view_of_entry changed.other]
    simp only [Disk.nodeOf, Disk.setInode, if_true, Nat.and_assoc, Nat.and_self]

theorem writeSource_ends (diverted : Diverted w.disk h.cwd dir name n target y m)
    (names : w.disk.Names h.cwd p (dir ++ [name])) (text : String) :
    ∃ w', Ends h (writeSource p text true) w (.ok ()) w' ∧
      Outcome dir name target y text ((w.disk.inode n).mode &&& Disk.modeMask) w'.disk := by
  obtain ⟨w', replaced, outcome⟩ := diverted.replaceFile_ends text
  have short : ¬ maxPath < (dir ++ [name] : Place).path.length :=
    Nat.not_lt.2 (Disk.checkPath_eq_ok_iff.1 diverted.copyable.1).2.2
  have resolve := names.resolve_eq diverted.file
  rw [if_neg short] at resolve
  rw [← copyPlace_concat] at replaced
  have copied : Ends h (writeByCopy p text.toUTF8) w (.ok ()) w' :=
    .ask rfl (congrArg (·, w) resolve) (replaced.bind .done)
  exact ⟨w', copied.bind .done, outcome⟩

theorem readSource_ends {limit : Nat} {text : String}
    (names : w.disk.Names h.cwd p (dir ++ [name]))
    (file : w.disk.entry? (dir ++ [name]) = some (.file n))
    (read : admitted limit (w.disk.inode n).bytes = .ok text) :
    Ends h (readSource p limit) w (.ok text) w := by
  unfold admitted at read
  split at read
  · cases read
  · rename_i small
    refine .ask rfl (congrArg (·, w) (names.stat_file file)) ?_
    show Ends h (if limit < (w.disk.inode n).bytes.size then _ else _) w _ w
    rw [if_neg small]
    refine .ask rfl (congrArg (·, w) (names.read_file file)) ?_
    show Ends h (.done (plainText _)) w _ w
    rw [read]
    exact .done

variable {plan : Plan} {text : String}

/-- The bookkeeping behind a write leaves the disk as it is. -/
theorem count_then_log_ends (w : World) (t : Tally) (fields : List (String × String)) (k : Nat) :
    ∃ w', Ends h ((Script.request (.count t)).bind fun _ =>
        (log "stripped file" "strip.file.rewritten" fields).bind fun _ =>
          .done (.ok k : Except Failure Nat)) w (.ok k) w' ∧ w'.disk = w.disk :=
  ⟨_, .ask rfl rfl (.ask rfl rfl .done), rfl⟩

theorem processFile_ends (diverted : Diverted w.disk h.cwd dir name n target y m)
    (names : w.disk.Names h.cwd p (dir ++ [name]))
    (read : admitted plan.maxFileSize (w.disk.inode n).bytes = .ok text)
    (changed : (plan.pattern.sweep text).isUnchanged = false) (atomic : plan.atomicWrite = true)
    (live : plan.dryRun = false) :
    ∃ w', Ends h (processFile plan p) w (some (plan.pattern.sweep text).count) w' ∧
      Outcome dir name target y (plan.pattern.sweep text).modified
        ((w.disk.inode n).mode &&& Disk.modeMask) w'.disk := by
  obtain ⟨w', written, outcome⟩ := writeSource_ends (w := (w.answer h (.count ⟨1, 0, 0, 0⟩)).2)
    diverted names (plan.pattern.sweep text).modified
  have found := readSource_ends (w := (w.answer h (.count ⟨1, 0, 0, 0⟩)).2) names diverted.file read
  obtain ⟨w'', booked, same⟩ := count_then_log_ends (h := h) w'
    ⟨0, 1, (plan.pattern.sweep text).count, 0⟩
    [("path", p.display), ("removed", toString (plan.pattern.sweep text).count),
      ("dry_run", toString plan.dryRun)] (plan.pattern.sweep text).count
  have replaced : Ends h (replace plan p text (plan.pattern.sweep text).modified)
      (w.answer h (.count ⟨1, 0, 0, 0⟩)).2 (.ok ()) w' := by
    rw [replace_of_live live, atomic]
    exact written.bind .done
  have swept : Ends h (sweepFile plan p) w (.ok (plan.pattern.sweep text).count) w'' := by
    refine .ask rfl rfl (found.bind ?_)
    dsimp only
    rw [if_neg (by simp [changed])]
    exact replaced.bind booked
  exact ⟨w'', swept.bind .done, same ▸ outcome⟩

/-- **A link in the way**: the file that the link leads to gets the swept text and the permissions
    of the file that is swept, and the link takes the place of that one. -/
theorem run_walk (diverted : Diverted w.disk h.cwd dir name n target y m)
    (names : w.disk.Names h.cwd (Path.absolute h.cwd.path p) (dir ++ [name]))
    (read : admitted plan.maxFileSize (w.disk.inode n).bytes = .ok text)
    (changed : (plan.pattern.sweep text).isUnchanged = false)
    (admits : plan.extensions.admits (Path.absolute h.cwd.path p) = true)
    (atomic : plan.atomicWrite = true) (live : plan.dryRun = false) :
    Outcome dir name target y (plan.pattern.sweep text).modified
      ((w.disk.inode n).mode &&& Disk.modeMask)
      (World.run h (walk plan h.cwd.path p) w).2.disk := by
  obtain ⟨w', swept, outcome⟩ := diverted.processFile_ends names read changed atomic live
  have stat : Ends h (Script.request (.stat (Path.absolute h.cwd.path p))) w _ w :=
    .ask rfl (congrArg (·, w) (names.stat_file diverted.file)) .done
  have ran : World.run h (walk plan h.cwd.path p) w =
      World.run h (Walk.file plan (Path.absolute h.cwd.path p)).job w := stat.run_andThen
  rw [ran, Walk.file, if_pos admits]
  show Outcome _ _ _ _ _ _ (World.run h (((processFile plan _).bind _).andThen _) w).2.disk
  rw [Script.andThen_bind, swept.run_andThen]
  -- what is told in the end changes nothing on the disk
  have told := ((Walk.tell_books (.info (Walk.verb plan ++ " " ++
    toString (plan.pattern.sweep text).count ++ " call(s) in file: " ++
    (Path.absolute h.cwd.path p).display))).mono
      fun _ => Request.isChange_of_book).run_disk (h := h) w'
  exact told ▸ outcome

end Diverted

/-! ### The promise is broken -/

namespace LinkBeside

def keepTxt : Name := ⟨[0x6b, 0x65, 0x65, 0x70, 0x2e, 0x74, 0x78, 0x74], by decide⟩

/-- The files `/a.js` and `/keep.txt`, and at the place of the one's copy a link to the other. -/
def disk : Disk where
  entries := [([aJs], .file 0), ([aJs.copy], .link (Path.ofString "keep.txt")),
    ([keepTxt], .file 1)]
  inode n := if n = 0 then ⟨"console.log(1);x".toUTF8, 0o644⟩ else ⟨"keep".toUTF8, 0o644⟩
  nodup := by decide

theorem diverted : Diverted disk [] [] aJs 0 (Path.ofString "keep.txt") [keepTxt] 1 where
  rooted := Disk.Rooted.nil.concat rfl (by decide)
  isDir := rfl
  copyable := ⟨Disk.checkPath_eq_ok_iff.2 (by decide), Disk.checkPath_eq_ok_iff.2 (by decide),
    by decide⟩
  file := rfl
  link := rfl
  names_other := by
    refine ⟨Disk.checkPath_eq_ok_iff.2 (by decide), fun making => ?_⟩
    have components : Path.components (Place.path [aJs.copy]) = [.down aJs.copy] :=
      Place.components_path (List.cons_ne_nil _ _)
    have target : (Path.ofString "keep.txt").components = [.down keepTxt] := by decide +kernel
    show Disk.Leads disk making _ [] (Path.components (Place.path [aJs.copy])) _
    rw [components]
    refine .follow rfl (by simp) (by decide) rfl ?_
    rw [if_neg (by decide +kernel), target]
    exact .down rfl (by decide) fun _ link => by cases link
  other := rfl
  ne := by decide

/-- The file `/keep.txt`, which is not swept, is overwritten, and `/a.js` is a file no longer. -/
theorem run_walk :
    Diverted.Outcome [] aJs (Path.ofString "keep.txt") [keepTxt] "x" 0o644
      (World.run (.quiet []) (walk plan (Place.path []) (Path.ofString "a.js"))
        (.start disk)).2.disk := by
  have read : admitted plan.maxFileSize (disk.inode 0).bytes = .ok "console.log(1);x" := by
    decide +kernel
  have modified : (plan.pattern.sweep "console.log(1);x").modified = "x" := by
    decide +kernel
  have names : disk.Names [] (Path.absolute (Place.path []) (Path.ofString "a.js")) ([] ++ [aJs]) :=
    .of_find_file (Disk.find_aJs rfl)
  have walked := diverted.run_walk (h := .quiet []) (w := .start disk) names read
    (by decide +kernel) (by decide +kernel) rfl rfl
  rwa [modified] at walked

/-- Others are not left alone: `/keep.txt` is not swept, and does not stay as it is. -/
theorem not_leaves_others :
    ¬ Job.Settles (.quiet [])
      (fun w' =>
        (∀ x, (∀ f, ¬ Sweeps plan disk []
            (Path.absolute (Place.path []) (Path.ofString "a.js")) f x) →
          w'.disk.view x = disk.view x) ∧
        ∀ f x, Sweeps plan disk []
            (Path.absolute (Place.path []) (Path.ofString "a.js")) f x →
          ∃ bytes permissions, w'.disk.view x = some (.file bytes permissions))
      (walk plan (Place.path []) (Path.ofString "a.js")) (.start disk) := by
  intro settles
  obtain ⟨same, -⟩ := World.good_of_settles settles
  obtain ⟨overwritten, -⟩ := run_walk
  have not_swept : ∀ f, ¬ Sweeps plan disk []
      (Path.absolute (Place.path []) (Path.ofString "a.js")) f [keepTxt] := by
    intro f s
    obtain ⟨-, other, -⟩ := (Walk.sweeps_iff_of_file (Disk.find_aJs rfl)).1 s
    exact absurd other (by decide)
  rw [same [keepTxt] not_swept] at overwritten
  have shown : disk.view [keepTxt] = some (.file "keep".toUTF8 0o644) := rfl
  rw [shown] at overwritten
  injection overwritten with overwritten
  injection overwritten with bytes
  exact absurd bytes (by decide +kernel)

end LinkBeside

end CallSweep
