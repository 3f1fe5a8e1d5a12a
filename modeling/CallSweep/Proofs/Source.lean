/-
  Reading and rewriting a source file while others change other files.

  The file stands at the place `dir ++ [name]`, and its copy, while there is one, beside it at
  `dir ++ [name.copy]`.  These two places are all that a rewrite touches: `twoPlaces dir name`.

  1. **What is seen** (`Shows`) — at the two places, and what becomes of it when the copy is made
     (`made_copy`), takes over permissions (`chmod_copy`), takes the place of the file (`moved_copy`)
     or is taken away (`erased_copy`).

  2. **Where nothing fails** but for what the disk holds, a task that owns the two places reads what
     it would read by itself (`readSource_gives`) and rewrites the file (`writeSource_gives`): in
     place if the file has no other name, or by copy if the copy's path and name are not too long
     (`Copyable`) and nothing stands in its way.
-/
import CallSweep.Proofs.Disk.Beside
import CallSweep.Proofs.Run.Scripts
import CallSweep.Source

namespace CallSweep

open Disk (AgreeOn Frame Rooted Names)
open Script (Gives)

/-! ## Reading -/

/-- What is made of the bytes of a source file. -/
def admitted (limit : Nat) (bytes : ByteArray) : Except SourceError String :=
  if limit < bytes.size then .error (.tooLarge bytes.size limit) else plainText bytes

section

variable {h : Host} {own : Set Place} {d₀ d : Disk} {region : Set Place} {p : Path} {x : Place}
  {bytes : ByteArray} {permissions : Nat}

theorem readSource_gives {I : Disk → Prop} (frame : ∀ d', I d' → Frame own d₀ d')
    (names : d₀.Names h.cwd p x) (hx : x ∈ region)
    (shown : d.view x = some (.file bytes permissions)) (limit : Nat) :
    Gives h I region
      (fun result d' => result = admitted limit bytes ∧ AgreeOn region d d')
      (readSource p limit) d := by
  unfold readSource
  refine Gives.look rfl fun w f agree => ?_
  obtain ⟨n, file, rfl, -⟩ := Disk.exists_inode_of_view ((agree x hx).trans shown)
  refine ⟨_, congrArg (·, w) ((names.of_frame (frame _ f)).stat_file file), ?_⟩
  show Gives h _ _ _ (if limit < (w.disk.inode n).bytes.size then _ else _) _
  rw [admitted]
  by_cases large : limit < (w.disk.inode n).bytes.size
  · rw [if_pos large, if_pos large]
    exact .done ⟨rfl, agree⟩
  · rw [if_neg large, if_neg large]
    refine Gives.look rfl fun w' f' agree' => ?_
    -- the bytes are still the same, although others may have worked in between
    have shown' := (agree' x hx).trans (Disk.view_of_entry file)
    obtain ⟨m, file', same, -⟩ := Disk.exists_inode_of_view shown'
    refine ⟨_, congrArg (·, w') ((names.of_frame (frame _ f')).read_file file'), ?_⟩
    rw [same]
    exact .done ⟨rfl, agree.trans agree'⟩

end

/-! ## Two places -/

/-- The name of the copy of a file of this name. -/
def Name.copy (name : Name) : Name := copyName name.bytes name.slash_not_mem

theorem copyPlace_concat (dir : Place) (name : Name) :
    copyPlace (dir ++ [name]) = dir ++ [name.copy] := by
  simp [copyPlace, Name.copy]

theorem Name.copy_ne (name : Name) : name.copy ≠ name := by
  intro same
  have := congrArg (fun name : Name => name.bytes.length) same
  simp only [copy, copyName, List.length_append, List.length_cons] at this
  omega

theorem Name.copy_injective {name name' : Name} (same : name.copy = name'.copy) : name = name' := by
  have bytes := congrArg Name.bytes same
  simp only [copy, copyName] at bytes
  injection bytes with _ bytes
  cases name
  cases name'
  rw [Name.mk.injEq]
  exact (List.append_inj_left' bytes rfl)

/-- A file's place and its copy's. -/
def twoPlaces (dir : Place) (name : Name) : Set Place :=
  {x | x = dir ++ [name] ∨ x = dir ++ [name.copy]}

/-- Whether the copy of a file can be made. -/
def Copyable (dir : Place) (name : Name) : Prop :=
  Disk.checkPath (dir ++ [name] : Place).path = .ok () ∧
    Disk.checkPath (dir ++ [name.copy] : Place).path = .ok () ∧ name.copy.bytes.length ≤ maxName

/-- Whether the copy of a file has a path and a name that are not too long. -/
def Makable (dir : Place) (name : Name) : Prop :=
  Disk.checkPath (dir ++ [name.copy] : Place).path = .ok () ∧ name.copy.bytes.length ≤ maxName

/-! ## Writing -/

section

variable {h : Host} {own : Set Place} {d₀ d : Disk} {p : Path} {dir : Place} {name : Name}
  {old : ByteArray} {permissions : Nat} {copy : Option Node}

/-- What is seen at a file's place and at its copy's. -/
def Shows (dir : Place) (name : Name) (file copy : Option Node) (d : Disk) : Prop :=
  d.view (dir ++ [name]) = file ∧ d.view (dir ++ [name.copy]) = copy

theorem Shows.of_agree {file copy : Option Node} {d' : Disk} (shows_ : Shows dir name file copy d)
    (agree : AgreeOn (twoPlaces dir name) d d') : Shows dir name file copy d' :=
  ⟨(agree _ (.inl rfl)).trans shows_.1, (agree _ (.inr rfl)).trans shows_.2⟩

/-- A file, and no copy. -/
abbrev Holds (dir : Place) (name : Name) (bytes : ByteArray) (permissions : Nat) (d : Disk) :
    Prop := Shows dir name (some (.file bytes permissions)) none d

theorem file_ne_copy (dir : Place) (name : Name) : dir ++ [name] ≠ dir ++ [name.copy] := by
  simpa using Ne.symm name.copy_ne

/-! ### What becomes of the copy -/

section

variable {file : Option Node} {bytes : ByteArray} {m : Nat} (f : Frame own d₀ d)

include f

/-- The copy is made. -/
theorem made_copy (shown : Shows dir name file none d) (i : Inode) :
    Frame own d₀ (d.withFile (dir ++ [name.copy]) i) ∧
      AgreeOn (twoPlaces dir name)ᶜ d (d.withFile (dir ++ [name.copy]) i) ∧
        Shows dir name file (some (.file i.bytes (i.mode &&& Disk.modeMask)))
          (d.withFile (dir ++ [name.copy]) i) := by
  have ne := concat_ne_nil dir name.copy
  have updated := Disk.view_withFile (d := d) (i := i) ne
  refine ⟨f.create ne (Disk.view_eq_none_iff.1 shown.2) i, .of_update (.inr rfl) updated, ?_, ?_⟩
  · rw [updated, Function.update_of_ne (file_ne_copy dir name), shown.1]
  · rw [updated, Function.update_self]

variable (shown : Shows dir name file (some (.file bytes permissions)) d)

include shown

/-- The copy is taken away. -/
theorem erased_copy :
    Frame own d₀ (d.erase (dir ++ [name.copy])) ∧
      AgreeOn (twoPlaces dir name)ᶜ d (d.erase (dir ++ [name.copy])) ∧
        Shows dir name file none (d.erase (dir ++ [name.copy])) := by
  have ne := concat_ne_nil dir name.copy
  obtain ⟨m, at_copy, -⟩ := Disk.exists_inode_of_view shown.2
  have updated := d.view_erase ne
  refine ⟨f.erase ne at_copy, .of_update (.inr rfl) updated, ?_, ?_⟩
  · rw [updated, Function.update_of_ne (file_ne_copy dir name), shown.1]
  · rw [updated, Function.update_self]

variable (mine : dir ++ [name.copy] ∈ own)

include mine

/-- The copy gets other permissions. -/
theorem permitted_copy (i : Inode) (at_copy : d.entry? (dir ++ [name.copy]) = some (.file m)) :
    Frame own d₀ (d.setInode m i) ∧ AgreeOn (twoPlaces dir name)ᶜ d (d.setInode m i) ∧
      Shows dir name file (some (.file i.bytes (i.mode &&& Disk.modeMask))) (d.setInode m i) := by
  have updated := Disk.view_setInode (f.alone _ mine) at_copy i
  refine ⟨f.setInode m i, .of_update (.inr rfl) updated, ?_, ?_⟩
  · rw [updated, Function.update_of_ne (file_ne_copy dir name), shown.1]
  · rw [updated, Function.update_self]

/-- The copy takes the place of the file. -/
theorem moved_copy {n : Nat} (at_file : d.entry? (dir ++ [name]) = some (.file n))
    (at_copy : d.entry? (dir ++ [name.copy]) = some (.file m)) :
    Frame own d₀ ((d.erase (dir ++ [name.copy])).insert (dir ++ [name]) (.file m)) ∧
      AgreeOn (twoPlaces dir name)ᶜ d
        ((d.erase (dir ++ [name.copy])).insert (dir ++ [name]) (.file m)) ∧
      Holds dir name bytes permissions
        ((d.erase (dir ++ [name.copy])).insert (dir ++ [name]) (.file m)) := by
  have updated := Disk.view_move d (concat_ne_nil dir name.copy) (concat_ne_nil dir name) at_copy
  refine ⟨f.move (concat_ne_nil dir _) (concat_ne_nil dir _) mine at_copy at_file, ?_, ?_, ?_⟩
  · intro y hy
    rw [updated, Function.update_of_ne (fun same => hy (.inl same)),
      Function.update_of_ne (fun same => hy (.inr same))]
  · rw [updated, Function.update_self, shown.2]
  · rw [updated, Function.update_of_ne (Ne.symm (file_ne_copy dir name)), Function.update_self]

end

/-! ### Where nothing fails -/

/-- A file without another name is overwritten where it is. -/
theorem write_gives (names : d₀.Names h.cwd p (dir ++ [name])) (mine : dir ++ [name] ∈ own)
    (shown : Shows dir name (some (.file old permissions)) copy d) (bytes : ByteArray) :
    Gives h (Frame own d₀) (twoPlaces dir name)
      (fun result d' => result = .ok () ∧
        Shows dir name (some (.file bytes permissions)) copy d')
      (Script.request (.write p bytes)) d := by
  refine Gives.change rfl fun w f agree => ?_
  obtain ⟨shown, beside⟩ := shown.of_agree agree
  obtain ⟨n, file, -, mode⟩ := Disk.exists_inode_of_view shown
  have written := (names.of_frame f).write_file file bytes
  have updated := Disk.view_setInode (f.alone _ mine) file { w.disk.inode n with bytes }
  refine ⟨.ok (), _, congrArg w.commit written, f.setInode n _, ?_, .done ⟨rfl, ?_, ?_⟩⟩
  · exact .of_update (.inl rfl) updated
  · rw [updated, Function.update_self]
    exact congrArg (fun mode => some (Node.file bytes mode)) mode
  · rw [updated, Function.update_of_ne (Ne.symm (file_ne_copy dir name)), beside]

variable (rooted : d₀.Rooted (dir ++ [name]))

include rooted

/-- The file's spelling names it. -/
theorem names_file (check : Disk.checkPath (dir ++ [name] : Place).path = .ok ())
    (f : Frame own d₀ d) {n : Nat} (file : d.entry? (dir ++ [name]) = some (.file n)) :
    d.Names h.cwd (dir ++ [name] : Place).path (dir ++ [name]) := by
  refine .of_rooted (rooted.of_frame f) (concat_ne_nil dir name) (fun target link => ?_) check
  rw [file] at link
  cases link

variable (isDir : d₀.entry? dir = some .dir)

include isDir

/-- The copy's spelling names its place, whether it has been made or not. -/
theorem names_copy (c : Makable dir name) (f : Frame own d₀ d)
    (no_link : ∀ target, d.entry? (dir ++ [name.copy]) ≠ some (.link target)) :
    d.Names h.cwd (dir ++ [name.copy] : Place).path (dir ++ [name.copy]) := by
  have rooted_dir : d.Rooted dir := (rooted.of_frame f).of_append
  exact .of_rooted (rooted_dir.concat ((f.dir_iff dir).2 isDir) c.2) (concat_ne_nil dir _)
    no_link c.1

theorem write_copy {w : World} (c : Copyable dir name) (f : Frame own d₀ w.disk)
    (holds : Holds dir name old permissions w.disk) (new : ByteArray) :
    ∃ d', w.answer h (.write (dir ++ [name.copy] : Place).path new) =
        (.ok (), { w with disk := d' }) ∧ Frame own d₀ d' ∧
      AgreeOn (twoPlaces dir name)ᶜ w.disk d' ∧
        Shows dir name (some (.file old permissions))
          (some (.file new (Disk.newFileMode &&& Disk.modeMask))) d' := by
  have vacant := Disk.view_eq_none_iff.1 holds.2
  have names := names_copy (h := h) rooted isDir c.2 f fun target link => by
    rw [vacant] at link
    cases link
  exact ⟨_, congrArg w.commit (names.write_new vacant new), made_copy f holds _⟩

variable (mine : dir ++ [name.copy] ∈ own)

include mine

/-- The copy takes over permissions. -/
theorem chmod_copy {w : World} {new : ByteArray} {permissions' : Nat} (c : Makable dir name)
    (f : Frame own d₀ w.disk)
    (shown : Shows dir name (some (.file old permissions)) (some (.file new permissions'))
      w.disk) (mode : Nat) :
    ∃ d', w.answer h (.chmod (dir ++ [name.copy] : Place).path mode) =
        (.ok (), { w with disk := d' }) ∧ Frame own d₀ d' ∧
      AgreeOn (twoPlaces dir name)ᶜ w.disk d' ∧
        Shows dir name (some (.file old permissions))
          (some (.file new (mode &&& Disk.modeMask))) d' := by
  obtain ⟨m, at_copy, rfl, -⟩ := Disk.exists_inode_of_view shown.2
  have names := names_copy (h := h) rooted isDir c f fun target link => by
    rw [at_copy] at link
    cases link
  obtain ⟨framed, off, shown'⟩ := permitted_copy f shown mine
    { w.disk.inode m with mode := mode &&& Disk.modeMask } at_copy
  rw [Nat.and_assoc, Nat.and_self] at shown'
  exact ⟨_, congrArg w.commit (names.chmod_file at_copy mode), framed, off, shown'⟩

/-- The copy takes the place of the file. -/
theorem rename_copy {w : World} {new : ByteArray} {permissions' : Nat} (c : Copyable dir name)
    (f : Frame own d₀ w.disk)
    (shown : Shows dir name (some (.file old permissions)) (some (.file new permissions'))
      w.disk) :
    ∃ d', w.answer h (.rename (dir ++ [name.copy] : Place).path (dir ++ [name] : Place).path) =
        (.ok (), { w with disk := d' }) ∧ Frame own d₀ d' ∧
      AgreeOn (twoPlaces dir name)ᶜ w.disk d' ∧ Holds dir name new permissions' d' := by
  obtain ⟨n, at_file, -⟩ := Disk.exists_inode_of_view shown.1
  obtain ⟨m, at_copy, -⟩ := Disk.exists_inode_of_view shown.2
  obtain ⟨-, short⟩ := rooted dir name [] rfl
  have moved := Disk.rename_files h.cwd (rooted.of_frame f).of_append ((f.dir_iff dir).2 isDir)
    (f.alone _ mine) name.copy_ne c.2.1 c.1 c.2.2 short at_copy at_file
  exact ⟨_, congrArg w.commit moved, moved_copy f shown mine at_file at_copy⟩

/-- A file is replaced by its copy, if that can be made. -/
theorem replaceFile_gives (c : Copyable dir name) (holds : Holds dir name old permissions d)
    (new : ByteArray) :
    Gives h (Frame own d₀) (twoPlaces dir name)
      (fun result d' => result = .ok () ∧ Holds dir name new permissions d')
      (replaceFile (dir ++ [name] : Place).path (dir ++ [name.copy] : Place).path new) d := by
  unfold replaceFile
  -- the file is looked at first, and its permissions are those that the copy gets
  refine Gives.look rfl fun w f agree => ?_
  have holds := holds.of_agree agree
  obtain ⟨n, file, -, same⟩ := Disk.exists_inode_of_view holds.1
  refine ⟨_, congrArg (·, w) ((names_file rooted c.1 f file).stat_file file), ?_⟩
  refine Gives.change rfl fun w' f' agree' => ?_
  obtain ⟨d₁, made, f₁, off₁, both₁⟩ :=
    write_copy (h := h) rooted isDir c f' (holds.of_agree agree') new
  refine ⟨_, _, made, f₁, off₁, Gives.change rfl fun w' f' agree' => ?_⟩
  obtain ⟨d₂, set, f₂, off₂, both₂⟩ :=
    chmod_copy (h := h) rooted isDir mine c.2 f' (both₁.of_agree agree') _
  rw [same] at both₂
  refine ⟨_, _, set, f₂, off₂, Gives.change rfl fun w' f' agree' => ?_⟩
  obtain ⟨d₃, moved, f₃, off₃, holds₃⟩ :=
    rename_copy (h := h) rooted isDir mine c f' (both₂.of_agree agree')
  exact ⟨_, _, moved, f₃, off₃, .done ⟨rfl, holds₃⟩⟩

/-- A rewrite by copy works if the copy can be made. -/
theorem writeByCopy_gives (names : d₀.Names h.cwd p (dir ++ [name])) (c : Copyable dir name)
    (holds : Holds dir name old permissions d) (bytes : ByteArray) :
    Gives h (Frame own d₀) (twoPlaces dir name)
      (fun result d' => result = .ok () ∧ Holds dir name bytes permissions d')
      (writeByCopy p bytes) d := by
  unfold writeByCopy
  refine Gives.look rfl fun w f agree => ?_
  have holds' := holds.of_agree agree
  obtain ⟨n, file, -⟩ := Disk.exists_inode_of_view holds'.1
  have short := (Disk.checkPath_eq_ok_iff.1 c.1).2.2
  have resolved := (names.of_frame f).resolve_eq file
  rw [if_neg (Nat.not_lt.2 short)] at resolved
  refine ⟨_, congrArg (·, w) resolved, ?_⟩
  show Gives h _ _ _ (Script.bind (replaceFile _ (copyPlace (dir ++ [name])).path bytes) _) _
  rw [copyPlace_concat]
  refine (replaceFile_gives rooted isDir mine c holds' bytes).bind f ?_
  rintro result d' - ⟨rfl, holds''⟩
  exact .done ⟨rfl, holds''⟩

omit mine

/-! ## Either way -/

/-- A write by copy works if the copy can be made, a write in place if the file has no other
    name. -/
theorem writeSource_gives {atomic : Bool} (names : d₀.Names h.cwd p (dir ++ [name]))
    (mine : dir ++ [if atomic then name.copy else name] ∈ own)
    (ok : atomic = true → Copyable dir name) (free : atomic = true → copy = none)
    (shown : Shows dir name (some (.file old permissions)) copy d) (i : Frame own d₀ d)
    (text : String) :
    Gives h (Frame own d₀) (twoPlaces dir name)
      (fun result d' => result = .ok () ∧
        Shows dir name (some (.file text.toUTF8 permissions)) copy d')
      (writeSource p text atomic) d := by
  unfold writeSource
  cases atomic with
  | true =>
    obtain rfl := free rfl
    refine (writeByCopy_gives rooted isDir mine names (ok rfl) shown text.toUTF8).bind i ?_
    rintro result d' - ⟨rfl, holds'⟩
    exact .done ⟨rfl, holds'⟩
  | false =>
    refine (write_gives names mine shown text.toUTF8).bind i ?_
    rintro result d' - ⟨rfl, shown'⟩
    exact .done ⟨rfl, shown'⟩

end

end CallSweep
