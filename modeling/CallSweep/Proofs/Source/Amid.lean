/-
  Reading and rewriting a source file under a system that may fail any request, while others change
  other files.

  The system is `Fair`: what it does not fail it meets as the disk has it.  A task that owns a file's
  place and its copy's then does one of a few things, whichever of its requests fail.

  1. **Reading** (`readSource_owns`) — what is read is what the bytes and the limit make of it, unless
     a look at the file was denied.

  2. **Writing** (`Rewritten`, `writeSource_owns`) — a write that succeeds has put the new bytes in
     place of the old ones.  One that fails has changed nothing, or, in place, left a beginning of the
     new bytes.  By copy the permissions are kept; in place those may go that let a file run in the
     name of its owner or group.

  3. **The copy** (`CopyStays`) — where nothing or a directory stands at the copy's place, that stays
     so, unless the system has failed to take the copy away.
-/
import CallSweep.Proofs.Run.Faults
import CallSweep.Proofs.Run.Ownership
import CallSweep.Proofs.Source.Atomic

namespace CallSweep

open Disk (AgreeOn Frame Rooted Names)

/-! ## Reading -/

/-- A look at a file has failed. -/
def Denied (p : Path) (T : List Act) : Prop :=
  ∃ e : OsError, .asked (.stat p) (.error e) ∈ T ∨ .asked (.read p) (.error e) ∈ T

section

variable {S : System} {I : Disk → Prop} {own region : Set Place} {d₀ d : Disk} {p : Path} {x : Place}
  {bytes : ByteArray} {permissions : Nat} {T : List Act}

/-- A file is read as it is, unless a look at it fails. -/
theorem readSource_owns (fair : S.Fair) (frame : ∀ d', I d' → Frame own d₀ d')
    (names : d₀.Names S.host.cwd p x) (hx : x ∈ region)
    (shown : d.view x = some (.file bytes permissions)) (limit : Nat) :
    (readSource p limit).Owns S I region (fun T result d' => AgreeOn region d d' ∧
      (result = admitted limit bytes ∨ (∃ e, result = .error e) ∧ Denied p T)) T d := by
  have denied {r : Request} {a : r.Answer} : .asked r a ∈ T ++ [.asked r a] :=
    List.mem_append_right _ List.mem_cons_self
  refine .look fair.toHonest rfl fun w a kept agree answered => ?_
  obtain ⟨-, looked⟩ := (fair.may rfl rfl answered).of_stat
  cases a with
  | error e => exact ⟨agree, .inr ⟨⟨_, rfl⟩, e, .inl denied⟩⟩
  | ok stat =>
    obtain ⟨n, file, rfl, -⟩ := Disk.exists_inode_of_view ((agree x hx).trans shown)
    have size := (looked stat rfl).symm.trans ((names.of_frame (frame _ kept)).stat_file file)
    cases size
    show Script.Owns S I region _ (if limit < (w.disk.inode n).bytes.size then _ else _) _ _
    rw [admitted]
    by_cases large : limit < (w.disk.inode n).bytes.size
    · rw [if_pos large, if_pos large]
      exact ⟨agree, .inl rfl⟩
    · rw [if_neg large, if_neg large]
      refine .look fair.toHonest rfl fun w' a kept' agree' answered' => ?_
      obtain ⟨-, read⟩ := (fair.may rfl rfl answered').of_read
      cases a with
      | error e =>
        refine ⟨agree.trans agree', .inr ⟨⟨_, rfl⟩, e, .inr ?_⟩⟩
        exact List.mem_append_right _ List.mem_cons_self
      | ok bytes =>
        -- the bytes are still the same, although others may have worked in between
        have shown' := (agree' x hx).trans (Disk.view_of_entry file)
        obtain ⟨m, file', same, -⟩ := Disk.exists_inode_of_view shown'
        have bytes_eq := (read bytes rfl).symm.trans
          ((names.of_frame (frame _ kept')).read_file file')
        cases bytes_eq
        rw [← same]
        exact ⟨agree.trans agree', .inl rfl⟩

/-- A path that leads nowhere is not read. -/
theorem readSource_owns_lost (fair : S.Fair)
    (lost : ∀ d', I d' → ∀ y e, d'.find S.host.cwd p ≠ .ok (y, e)) (limit : Nat) :
    (readSource p limit).Owns S I region (fun T result d' => AgreeOn region d d' ∧
      (∃ e, result = .error e) ∧ Denied p T) T d := by
  refine .look fair.toHonest rfl fun w a kept agree answered => ?_
  obtain ⟨-, looked⟩ := (fair.may rfl rfl answered).of_stat
  cases a with
  | error e => exact ⟨agree, ⟨_, rfl⟩, e, .inl (List.mem_append_right _ List.mem_cons_self)⟩
  | ok stat =>
    have looked := looked stat rfl
    cases found : w.disk.find S.host.cwd p with
    | ok place => exact absurd found (lost w.disk kept place.1 place.2)
    | error e =>
      rw [Disk.stat, found] at looked
      cases looked

end

/-! ## Writing -/

/-- Permissions that a rewrite may leave. -/
def KeptMode (atomic : Bool) (old new : Nat) : Prop :=
  new = old ∨ atomic = false ∧ ∃ mask ∈ Disk.plainMasks, new = old &&& mask

/-- What stands at the place of a file after a rewrite, given how that went. -/
inductive Rewritten {ε : Type} (atomic : Bool) (old : ByteArray) (permissions : Nat)
    (new : ByteArray) : Except ε Unit → Node → Prop
  | whole {mode : Nat} (kept : KeptMode atomic permissions mode) :
      Rewritten atomic old permissions new (.ok ()) (.file new mode)
  | same (e : ε) : Rewritten atomic old permissions new (.error e) (.file old permissions)
  /-- A write in place has been cut short. -/
  | cut (e : ε) (inPlace : atomic = false) {part : ByteArray} {mode : Nat}
      (begun : part.data.toList <+: new.data.toList) (kept : KeptMode atomic permissions mode) :
      Rewritten atomic old permissions new (.error e) (.file part mode)

theorem Rewritten.mapError {ε ε' : Type} {atomic : Bool} {old new : ByteArray} {permissions : Nat}
    {result : Except ε Unit} {node : Node} (f : ε → ε')
    (rewritten : Rewritten atomic old permissions new result node) :
    Rewritten atomic old permissions new (result.mapError f) node := by
  cases rewritten with
  | whole kept => exact .whole kept
  | same e => exact .same (f e)
  | cut e inPlace begun kept => exact .cut (f e) inPlace begun kept

/-- The system has failed to take away a copy that it could have taken away. -/
def CopyStays (S : System) (c : Place) (T : List Act) : Prop :=
  ∃ e : OsError, .asked (.remove c.path) (.error e) ∈ T ∧
    ∃ w w', S.answers w (.remove c.path) (.error e) w' ∧
      ∃ d, w.disk.remove S.host.cwd c.path = .ok d

theorem CopyStays.mono {S : System} {c : Place} {T T' : List Act} (sub : T ⊆ T') :
    CopyStays S c T → CopyStays S c T'
  | ⟨e, mem, failed⟩ => ⟨e, sub mem, failed⟩

/-- What is written to a file in place. -/
theorem Disk.Writes.exists_mode {d d' : Disk} {cwd x : Place} {p : Path} {bytes : ByteArray} {n : Nat}
    (writes : d.Writes cwd p bytes d') (names : d.Names cwd p x)
    (file : d.entry? x = some (.file n)) :
    ∃ mode, d' = d.setInode n ⟨bytes, mode⟩ ∧
      (mode = (d.inode n).mode ∨ ∃ mask ∈ Disk.plainMasks, mode = (d.inode n).mode &&& mask) := by
  cases writes with
  | whole written =>
    rw [names.write_file file] at written
    cases written
    exact ⟨_, rfl, .inl rfl⟩
  | @stripped d' y m mask written found plain =>
    rw [names.write_file file] at written
    cases written
    have still : Frame ∅ d (d.setInode n ⟨bytes, (d.inode n).mode⟩) :=
      (Frame.refl fun _ hx => hx.elim).setInode n _
    have found' := (names.of_frame still).find (e := .file n) file
    cases found.symm.trans found'
    refine ⟨_, ?_, .inr ⟨mask, plain, rfl⟩⟩
    simp only [setInode, Disk.mk.injEq, true_and, if_true]
    funext k
    by_cases same : k = n
    · rw [if_pos same, if_pos same]
    · rw [if_neg same, if_neg same, if_neg same]

section

variable {S : System} {own : Set Place} {d₀ d : Disk} {p : Path} {dir : Place} {name : Name}
  {old new : ByteArray} {permissions : Nat} {file copy : Option Node} {T : List Act}

/-- What a write in place leaves, whole or not. -/
theorem shows_of_writes {d' : Disk} {bytes : ByteArray} (names : d₀.Names S.host.cwd p (dir ++ [name]))
    (mine : dir ++ [name] ∈ own) (f : Frame own d₀ d)
    (shown : Shows dir name (some (.file old permissions)) copy d)
    (writes : d.Writes S.host.cwd p bytes d') :
    Frame own d₀ d' ∧ AgreeOn (twoPlaces dir name)ᶜ d d' ∧ ∃ mode, KeptMode false permissions mode ∧
      Shows dir name (some (.file bytes mode)) copy d' := by
  obtain ⟨n, at_file, -, rfl⟩ := Disk.exists_inode_of_view shown.1
  obtain ⟨mode, rfl, kept⟩ := writes.exists_mode (names.of_frame f) at_file
  have updated := Disk.view_setInode (f.alone _ mine) at_file ⟨bytes, mode⟩
  refine ⟨f.setInode n _, .of_update (.inl rfl) updated, mode &&& Disk.modeMask, ?_, ?_, ?_⟩
  · rcases kept with rfl | ⟨mask, plain, rfl⟩
    · exact .inl rfl
    · exact .inr ⟨rfl, mask, plain, Nat.and_right_comm ..⟩
  · rw [updated, Function.update_self]
  · rw [updated, Function.update_of_ne (Ne.symm (file_ne_copy dir name)), shown.2]

/-- A file without another name, written where it is. -/
theorem write_owns (fair : S.Fair) (names : d₀.Names S.host.cwd p (dir ++ [name]))
    (mine : dir ++ [name] ∈ own) (shown : Shows dir name (some (.file old permissions)) copy d) :
    (Script.request (.write p new)).Owns S (Frame own d₀) (twoPlaces dir name)
      (fun _ result d' => ∃ node, Rewritten false old permissions new result node ∧
        Shows dir name (some node) copy d') T d := by
  intro w a w' f agree answered
  have may := fair.may rfl rfl answered
  have shown := shown.of_agree agree
  cases a with
  | ok u =>
    obtain ⟨framed, off, mode, kept, shown'⟩ :=
      shows_of_writes names mine f shown may.of_write_ok
    exact ⟨framed, off, _, .whole kept, shown'⟩
  | error e =>
    rcases may.of_write_error with same | ⟨part, begun, writes⟩
    · rw [same]
      exact ⟨f, .refl, _, .same e, shown⟩
    · obtain ⟨framed, off, mode, kept, shown'⟩ := shows_of_writes names mine f shown writes
      exact ⟨framed, off, _, .cut e rfl begun kept, shown'⟩

/-! ### The steps of a write by copy -/

variable (rooted : d₀.Rooted (dir ++ [name])) (isDir : d₀.entry? dir = some .dir)

include rooted isDir

/-- Where a write has begun at the copy's place, nothing stood there, and now a file does. -/
theorem made_of_writes {d' : Disk} {bytes : ByteArray} (f : Frame own d₀ d)
    (shown : Shows dir name file copy d) (clear : copy = none ∨ copy = some .dir)
    (writes : d.Writes S.host.cwd (dir ++ [name.copy] : Place).path bytes d') :
    copy = none ∧ Makable dir name ∧ Frame own d₀ d' ∧ AgreeOn (twoPlaces dir name)ᶜ d d' ∧
      ∃ mode, Shows dir name file (some (.file bytes mode)) d' := by
  have rooted_dir := (rooted.of_frame f).of_append
  have isDir' := (f.dir_iff dir).2 isDir
  obtain ⟨d₁, written⟩ : ∃ d₁, d.write S.host.cwd (dir ++ [name.copy] : Place).path bytes =
      .ok d₁ := by
    cases writes with
    | whole written => exact ⟨_, written⟩
    | stripped written _ _ => exact ⟨_, written⟩
  rcases clear with rfl | rfl
  · have vacant := Disk.view_eq_none_iff.1 shown.2
    obtain ⟨-, mode, rfl⟩ := Disk.writes_beside rooted_dir isDir' vacant writes
    obtain ⟨framed, off, shown'⟩ := made_copy f shown ⟨bytes, mode⟩
    exact ⟨rfl, Disk.checks_of_write rooted_dir isDir' written, framed, off, _, shown'⟩
  · -- a directory is not opened for writing
    have sub := Disk.view_eq_dir_iff.1 shown.2
    have names := Disk.names_of_write rooted_dir isDir' (fun target link => by
      rw [sub] at link
      cases link) written
    rw [names.write_dir sub] at written
    cases written

omit isDir in
/-- Where a file has been looked at, its permissions are known. -/
theorem mode_of_stat {stat : Stat} (f : Frame own d₀ d)
    (shown : d.view (dir ++ [name]) = some (.file old permissions))
    (looked : d.stat S.host.cwd (dir ++ [name] : Place).path = .ok stat) :
    stat.mode &&& Disk.modeMask = permissions := by
  obtain ⟨n, at_file, -, rfl⟩ := Disk.exists_inode_of_view shown
  cases check : Disk.checkPath (dir ++ [name] : Place).path with
  | error e =>
    rw [Disk.stat_unchecked check] at looked
    cases looked
  | ok u =>
    rw [(names_file rooted check f at_file).stat_file at_file] at looked
    cases looked
    rfl

/-- What may stand at the copy's place before the copy is taken away: what stood there before, or
    the copy. -/
inductive Begun (dir : Place) (name : Name) (copy : Option Node) : Option Node → Prop
  | asBefore : Begun dir name copy copy
  | made {bytes : ByteArray} {mode : Nat} (vacant : copy = none) (makable : Makable dir name) :
      Begun dir name copy (some (.file bytes mode))

variable (mine : copy = none → dir ++ [name.copy] ∈ own) (clear : copy = none ∨ copy = some .dir)

include mine clear

/-- A file is replaced by its copy, or there is a failure, and perhaps a copy. -/
theorem replaceFile_owns (fair : S.Fair)
    (shown : Shows dir name (some (.file old permissions)) copy d) :
    (replaceFile (dir ++ [name] : Place).path (dir ++ [name.copy] : Place).path new).Owns S
      (Frame own d₀) (twoPlaces dir name)
      (fun _ result d' =>
        (result = .ok () ∧ copy = none ∧ Holds dir name new permissions d') ∨
        (∃ e, result = .error e) ∧ ∃ copy', Begun dir name copy copy' ∧
          Shows dir name (some (.file old permissions)) copy' d') T d := by
  -- the file is looked at first, and its permissions are those that the copy gets
  refine .look fair.toHonest rfl fun w a f agree answered => ?_
  have shown := shown.of_agree agree
  obtain ⟨-, looked⟩ := (fair.may rfl rfl answered).of_stat
  cases a with
  | error e => exact .inr ⟨⟨e, rfl⟩, _, .asBefore, shown⟩
  | ok stat =>
    have permitted := mode_of_stat rooted f shown.1 (looked stat rfl)
    intro w a w' f agree answered
    have shown := shown.of_agree agree
    have may := fair.may rfl rfl answered
    cases a with
    | error e =>
      rcases may.of_write_error with same | ⟨part, -, writes⟩
      · rw [same]
        exact ⟨f, .refl, .inr ⟨⟨e, rfl⟩, _, .asBefore, shown⟩⟩
      · obtain ⟨vacant, makable, framed, off, mode, shown'⟩ :=
          made_of_writes rooted isDir f shown clear writes
        exact ⟨framed, off, .inr ⟨⟨e, rfl⟩, _, .made vacant makable, shown'⟩⟩
    | ok u =>
      obtain ⟨vacant, makable, framed, off, mode, shown'⟩ :=
        made_of_writes rooted isDir f shown clear may.of_write_ok
      refine ⟨framed, off, ?_⟩
      intro w a w' f agree answered
      have shown := shown'.of_agree agree
      have may := fair.may rfl rfl answered
      obtain ⟨d₁, changes, framed, off, shown'⟩ :=
        chmod_copy (h := S.host) rooted isDir (mine vacant) makable f shown stat.mode
      cases a with
      | error e =>
        rw [may.of_chmod_error]
        exact ⟨f, .refl, .inr ⟨⟨e, rfl⟩, _, .made vacant makable, shown⟩⟩
      | ok u =>
        have same : w'.disk = d₁ := by
          have changed : w.commit (w.disk.chmod S.host.cwd _ _) = _ := changes
          rw [may.of_chmod_ok] at changed
          exact congrArg (fun result => result.2.disk) changed
        rw [same]
        rw [permitted] at shown'
        refine ⟨framed, off, ?_⟩
        intro w a w' f agree answered
        have shown := shown'.of_agree agree
        have may := fair.may rfl rfl answered
        cases a with
        | error e =>
          rw [may.of_rename_error]
          exact ⟨f, .refl, .inr ⟨⟨e, rfl⟩, _, .made vacant makable, shown⟩⟩
        | ok u =>
          obtain ⟨n, at_file, -⟩ := Disk.exists_inode_of_view shown.1
          obtain ⟨m, at_copy, -⟩ := Disk.exists_inode_of_view shown.2
          obtain ⟨-, moved⟩ := Disk.eq_move_of_rename (rooted.of_frame f).of_append
            ((f.dir_iff dir).2 isDir) at_copy (f.alone _ (mine vacant)) List.dropLast_concat
            (file_ne_copy dir name) at_file may.of_rename_ok
          rw [moved]
          obtain ⟨framed, off, holds⟩ := moved_copy f shown (mine vacant) at_file at_copy
          exact ⟨framed, off, .inl ⟨rfl, vacant, holds⟩⟩

omit mine in
/-- After a failure the copy's place is as it was, unless the copy cannot be taken away. -/
theorem removeCopy_owns (fair : S.Fair) {copy' : Option Node} (begun : Begun dir name copy copy')
    (shown : Shows dir name file copy' d) :
    (removeCopy (dir ++ [name.copy] : Place).path).Owns S (Frame own d₀) (twoPlaces dir name)
      (fun T _ d' => ∃ copy'', Shows dir name file copy'' d' ∧
        (copy'' = copy ∨ CopyStays S (dir ++ [name.copy]) T)) T d := by
  intro w a w' f agree answered
  have shown := shown.of_agree agree
  have may := fair.may rfl rfl answered
  have rooted_dir := (rooted.of_frame f).of_append
  have isDir' := (f.dir_iff dir).2 isDir
  cases a with
  | ok u =>
    cases begun with
    | asBefore =>
      -- nothing stands there that could be taken away
      have clear' : w.disk.entry? (dir ++ [name.copy]) = none ∨
          w.disk.entry? (dir ++ [name.copy]) = some .dir := by
        rw [← Disk.view_eq_none_iff, ← Disk.view_eq_dir_iff, shown.2]
        exact clear
      obtain ⟨e, nothing⟩ := Disk.remove_clear S.host.cwd rooted_dir isDir' clear'
      cases nothing.symm.trans may.of_remove_ok
    | made vacant makable =>
      obtain ⟨m, at_copy, -⟩ := Disk.exists_inode_of_view shown.2
      rw [Disk.eq_erase_of_remove rooted_dir isDir' at_copy may.of_remove_ok]
      obtain ⟨framed, off, shown'⟩ := erased_copy f shown
      exact ⟨framed, off, _, shown', .inl vacant.symm⟩
  | error e =>
    have left : copy' = copy ∨ CopyStays S (dir ++ [name.copy])
        (T ++ [.asked (.remove (dir ++ [name.copy] : Place).path) (.error e)]) := by
      cases begun with
      | asBefore => exact .inl rfl
      | made vacant makable =>
        obtain ⟨m, at_copy, -⟩ := Disk.exists_inode_of_view shown.2
        exact .inr ⟨e, List.mem_append_right _ List.mem_cons_self, w, w', answered, _,
          Disk.remove_file rooted_dir isDir' at_copy makable.1 makable.2⟩
    rw [may.of_remove_error]
    refine ⟨f, .refl, ?_⟩
    have noted : (Script.request (.note (.event (copyLeft (dir ++ [name.copy] : Place).path)))).Owns
        S (Frame own d₀) (twoPlaces dir name) (fun T _ d' => ∃ copy'', Shows dir name file copy'' d' ∧
          (copy'' = copy ∨ CopyStays S (dir ++ [name.copy]) T))
        (T ++ [.asked (.remove (dir ++ [name.copy] : Place).path) (.error e)]) w.disk :=
      .book fair.toHonest rfl fun _ d' _ agree' => ⟨copy', shown.of_agree agree',
        left.imp_right (·.mono (List.subset_append_left _ _))⟩
    cases e with
    | noEntry => exact ⟨copy', shown, left⟩
    | _ => exact noted

/-- A write by copy. -/
theorem writeByCopy_owns (fair : S.Fair) (names : d₀.Names S.host.cwd p (dir ++ [name]))
    (shown : Shows dir name (some (.file old permissions)) copy d) :
    (writeByCopy p new).Owns S (Frame own d₀) (twoPlaces dir name)
      (fun T result d' => ∃ node copy', Rewritten true old permissions new result node ∧
        Shows dir name (some node) copy' d' ∧
        (copy' = copy ∨ CopyStays S (dir ++ [name.copy]) T)) T d := by
  refine .look fair.toHonest rfl fun w a f agree answered => ?_
  have shown := shown.of_agree agree
  obtain ⟨-, resolved⟩ := (fair.may rfl rfl answered).of_resolve
  cases a with
  | error e => exact ⟨_, copy, .same e, shown, .inl rfl⟩
  | ok x =>
    obtain ⟨n, at_file, -⟩ := Disk.exists_inode_of_view shown.1
    have same := (resolved x rfl).symm.trans ((names.of_frame f).resolve_eq at_file)
    split at same
    · cases same
    · cases same
      show Script.Owns S _ _ _ (Script.bind (replaceFile _ (copyPlace (dir ++ [name])).path new) _) _ _
      rw [copyPlace_concat]
      refine (replaceFile_owns rooted isDir mine clear fair shown).bind f ?_
      rintro T result d' f' (⟨rfl, vacant, holds⟩ | ⟨⟨e, rfl⟩, copy', begun, shown'⟩)
      · exact ⟨_, none, .whole (.inl rfl), holds, .inl vacant.symm⟩
      · refine (removeCopy_owns rooted isDir clear fair begun shown').bind f' ?_
        rintro T u d'' - ⟨copy'', shown'', left⟩
        exact ⟨_, copy'', .same e, shown'', left⟩

end

/-- **Writing**: the file is rewritten or, after a failure, as it was, unless it is cut short in
    place; and the copy's place is as it was, unless the copy cannot be taken away. -/
theorem writeSource_owns {S : System} {own : Set Place} {d₀ d : Disk} {p : Path} {dir : Place}
    {name : Name} {old : ByteArray} {permissions : Nat} {copy : Option Node} {T : List Act}
    (fair : S.Fair) (rooted : d₀.Rooted (dir ++ [name])) (isDir : d₀.entry? dir = some .dir)
    (names : d₀.Names S.host.cwd p (dir ++ [name])) {atomic : Bool}
    (mine : atomic = false → dir ++ [name] ∈ own)
    (mine_copy : copy = none → dir ++ [name.copy] ∈ own) (clear : copy = none ∨ copy = some .dir)
    (shown : Shows dir name (some (.file old permissions)) copy d) (f : Frame own d₀ d)
    (text : String) :
    (writeSource p text atomic).Owns S (Frame own d₀) (twoPlaces dir name)
      (fun T result d' => ∃ node copy', Rewritten atomic old permissions text.toUTF8 result node ∧
        Shows dir name (some node) copy' d' ∧
        (copy' = copy ∨ CopyStays S (dir ++ [name.copy]) T)) T d := by
  unfold writeSource
  cases atomic with
  | true =>
    refine (writeByCopy_owns rooted isDir mine_copy clear fair names shown).bind f ?_
    rintro T result d' - ⟨node, copy', rewritten, shown', left⟩
    exact ⟨node, copy', rewritten.mapError _, shown', left⟩
  | false =>
    refine (write_owns fair names (mine rfl) shown).bind f ?_
    rintro T result d' - ⟨node, rewritten, shown'⟩
    exact ⟨node, copy, rewritten.mapError _, shown', .inl rfl⟩

end CallSweep
