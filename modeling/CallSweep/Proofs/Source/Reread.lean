/-
  Reading a source file again after it was swept.

  1. **What is left of the bytes** (`CallPattern.encode_modified_sublist`) — a sweep takes bytes out
     and leaves the others in their order.

  2. **What is left of the acceptance** (`admitted_modified`) — a text that was admitted is no larger
     than before and is a text still.  The one test that may turn out differently is the look for a
     NUL among the first bytes, since bytes move up.

  3. **What a write leaves** (`writeSource_bears`) — a write that succeeds, in place or by a copy,
     leaves a file at the path with just the bytes that were to be written.

  4. **Rereading** (`reread_of_written`) — by 2 and 3.  What stands at the copy's place matters: with
     a link there that leads back to the file, nothing is found afterwards
     (`LinkBack.not_reread_through_link`).

  5. **A NUL that moves up** (`NulBehind.reread_binary`) — the exception does occur: the file that
     the sweep itself has written is taken for a binary one afterwards.
-/
import Mathlib.Data.List.Flatten
import CallSweep.Proofs.Call.Seams
import CallSweep.Proofs.Source

namespace CallSweep

open Disk (Frame Rooted Names)

/-! ## What is left of the bytes -/

namespace CallPattern

theorem kept_sublist (p : CallPattern) (cs : List Char) : (p.kept cs).Sublist cs := by
  induction cs using p.scan_induction with
  | nil =>
    rw [kept_nil]
  | call c cs rest stop hm ih =>
    -- a call leaves what is behind it, which is the end of the text
    rw [kept_of_match hm]
    obtain ⟨call, spelled, -⟩ := exists_taken_of_matchAt hm
    rw [spelled]
    exact ih.trans (List.sublist_append_right _ _)
  | plain c cs hm ih =>
    rw [kept_of_none hm]
    exact ih.cons_cons c

/-- A sweep takes bytes out and leaves the others as they are. -/
theorem encode_modified_sublist (p : CallPattern) (text : String) :
    (Text.encode (p.sweep text).modified).Sublist (Text.encode text) := by
  rw [Text.encode_eq_flatMap, Text.encode_eq_flatMap, toList_modified]
  exact (p.kept_sublist text.toList).flatMap _

end CallPattern

/-! ## What is left of the acceptance -/

theorem admitted_eq_ok_iff {limit : Nat} {bytes : ByteArray} {text : String} :
    admitted limit bytes = .ok text ↔
      bytes = text.toUTF8 ∧ bytes.size ≤ limit ∧ isBinary bytes = false := by
  unfold admitted plainText
  by_cases large : limit < bytes.size
  · rw [if_pos large]
    refine iff_of_false (by rintro ⟨⟩) ?_
    rintro ⟨-, small, -⟩
    omega
  rw [if_neg large]
  cases binary : isBinary bytes with
  | true =>
    rw [if_pos rfl]
    refine iff_of_false (by rintro ⟨⟩) ?_
    rintro ⟨-, -, ⟨⟩⟩
  | false =>
    rw [if_neg Bool.false_ne_true]
    constructor
    · intro ok
      cases decoded : String.fromUTF8? bytes with
      | none =>
        rw [decoded] at ok
        cases ok
      | some text' =>
        rw [decoded] at ok
        cases ok
        exact ⟨(Text.toUTF8_of_fromUTF8? decoded).symm, Nat.not_lt.1 large, rfl⟩
    · rintro ⟨rfl, -, -⟩
      rw [Text.fromUTF8?_toUTF8]

theorem isBinary_iff {text : String} :
    isBinary text.toUTF8 = true ↔ 0 ∈ (Text.encode text).take sniffLength :=
  List.contains_iff_mem

/-- What is made of a smaller text: it is refused for a NUL, or not at all. -/
theorem admitted_of_size_le {limit : Nat} {text : String} (small : text.toUTF8.size ≤ limit) :
    admitted limit text.toUTF8 =
      if isBinary text.toUTF8 then .error .binary else .ok text := by
  cases binary : isBinary text.toUTF8 with
  | true =>
    rw [admitted, plainText, if_neg (Nat.not_lt.2 small), binary]
    rfl
  | false =>
    rw [if_neg Bool.false_ne_true]
    exact admitted_eq_ok_iff.2 ⟨rfl, small, binary⟩

/-- **What is left of the acceptance** of a text that was admitted, when it is swept. -/
theorem admitted_modified (pattern : CallPattern) {limit : Nat} {bytes : ByteArray} {text : String}
    (accepted : admitted limit bytes = .ok text) :
    admitted limit (pattern.sweep text).modified.toUTF8 =
        (if isBinary (pattern.sweep text).modified.toUTF8 then .error .binary
          else .ok (pattern.sweep text).modified) ∧
      (isBinary (pattern.sweep text).modified.toUTF8 = true →
        0 ∉ (Text.encode text).take sniffLength ∧ 0 ∈ (Text.encode text).drop sniffLength) := by
  obtain ⟨rfl, small, plain⟩ := admitted_eq_ok_iff.1 accepted
  have part := pattern.encode_modified_sublist text
  constructor
  · refine admitted_of_size_le (Nat.le_trans ?_ small)
    rw [← Text.length_encode, ← Text.length_encode]
    exact part.length_le
  · intro binary
    have first : 0 ∉ (Text.encode text).take sniffLength := by
      rw [← isBinary_iff, plain]
      exact Bool.false_ne_true
    -- the NUL of the swept text is one of the text, and stood behind the first bytes
    have among : 0 ∈ Text.encode text :=
      part.subset (List.mem_of_mem_take (isBinary_iff.1 binary))
    rw [← List.take_append_drop sniffLength (Text.encode text), List.mem_append] at among
    exact ⟨first, among.resolve_left first⟩

/-! ## What a write leaves -/

/-- The path leads to the place, and there is a file with these bytes. -/
structure Disk.Bears (d : Disk) (cwd : Place) (p : Path) (x : Place) (bytes : ByteArray) : Prop where
  names : d.Names cwd p x
  file : ∃ n, d.entry? x = some (.file n) ∧ (d.inode n).bytes = bytes

section

variable {h : Host} {w w' : World} {d d' : Disk} {cwd dir x : Place} {p : Path} {name : Name}
  {bytes : ByteArray} {m n : Nat}

theorem runScript_readSource (bears : w.disk.Bears h.cwd p x bytes) (limit : Nat) :
    (World.runScript h (readSource p limit) w).1 = .ok (admitted limit bytes) := by
  obtain ⟨names, n, file, rfl⟩ := bears
  have frame : ∀ d', d' = w.disk → Frame ∅ w.disk d' := by
    rintro d' rfl
    exact .refl fun _ hy => hy.elim
  have mem : x ∈ {y | y = x} := rfl
  have gives := readSource_gives (h := h) (I := (· = w.disk)) frame names mem
    (Disk.view_of_entry file) limit
  obtain ⟨result, ran, rfl, -⟩ := gives.runScript rfl
  exact ran

/-- Overwriting what is no special file leaves a file there, and all else as it was. -/
theorem Disk.bears_of_write (names : d.Names cwd p x) (plain : d.entry? x ≠ some .nullDevice)
    (no_link : ∀ target, d.entry? x ≠ some (.link target))
    (written : d.write cwd p bytes = .ok d') :
    d'.Bears cwd p x bytes ∧ Frame ∅ d d' ∧ ∀ y ≠ x, d'.entry? y = d.entry? y := by
  have frame : Frame ∅ d d := .refl fun _ hy => hy.elim
  cases entry : d.entry? x with
  | none =>
    have ne : x ≠ [] := by
      rintro rfl
      cases entry
    rw [names.write_new entry] at written
    cases written
    have framed := frame.create ne entry ⟨bytes, newFileMode⟩
    refine ⟨⟨names.of_frame framed, d.freshInode, ?_, ?_⟩, framed, ?_⟩
    · rw [Disk.entry?_setInode, Disk.entry?_insert d ne, Function.update_self]
    · simp [Disk.setInode]
    · intro y other
      rw [Disk.entry?_setInode, Disk.entry?_insert d ne, Function.update_of_ne other]
  | some e =>
    cases e with
    | dir =>
      rw [names.write_dir entry] at written
      cases written
    | file n =>
      rw [names.write_file entry] at written
      cases written
      have framed := frame.setInode n { d.inode n with bytes }
      refine ⟨⟨names.of_frame framed, n, entry, ?_⟩, framed, fun _ _ => rfl⟩
      simp [Disk.setInode]
    | link target => exact absurd entry (no_link target)
    | socket =>
      rw [Disk.write, names.check, names.locate_making] at written
      simp only [bind, Except.bind, entry] at written
      cases written
    | nullDevice => exact absurd entry plain

/-- A file that was moved over another one beside it stands there now, unless both names were the
    same file's before. -/
theorem Disk.bears_of_rename {copy : Name} (rooted : d.Rooted dir) (isDir : d.entry? dir = some .dir)
    (ne : copy ≠ name) (names : d.Names cwd p (dir ++ [name]))
    (from_copy : d.entry? (dir ++ [copy]) = some (.file m))
    (at_file : d.entry? (dir ++ [name]) = some (.file n))
    (renamed : d.rename cwd (dir ++ [copy] : Place).path (dir ++ [name] : Place).path = .ok d') :
    d'.Bears cwd p (dir ++ [name]) (d.inode m).bytes := by
  have places_ne : dir ++ [copy] ≠ dir ++ [name] := fun same => ne (by simpa using same)
  cases source : d.findName cwd (dir ++ [copy] : Place).path with
  | error e =>
    rw [Disk.rename, source] at renamed
    cases renamed
  | ok y =>
    cases goal : d.findName cwd (dir ++ [name] : Place).path with
    | error e =>
      rw [Disk.rename, source, goal] at renamed
      cases renamed
    | ok z =>
      obtain ⟨-, -, rfl⟩ := (Disk.findName_path_iff cwd rooted isDir).1 source
      obtain ⟨-, -, rfl⟩ := (Disk.findName_path_iff cwd rooted isDir).1 goal
      rw [Disk.rename, source, goal] at renamed
      simp only [bind, Except.bind, from_copy, at_file, if_neg places_ne] at renamed
      by_cases same : m = n
      · -- two names of one file: nothing is done
        subst same
        simp only [Disk.inodeOf?] at renamed
        cases renamed
        exact ⟨names, m, at_file, rfl⟩
      · simp only [Entry.file.injEq, same] at renamed
        cases renamed
        have frame : Frame ∅ d d := .refl fun _ hy => hy.elim
        have moved : Frame ∅ d ((d.erase (dir ++ [copy])).insert (dir ++ [name]) (.file m)) :=
          ⟨fun _ hy => hy.elim, fun z e plain =>
            frame.same_move (concat_ne_nil _ _) (concat_ne_nil _ _) from_copy at_file z e plain⟩
        refine ⟨names.of_frame moved, m, ?_, rfl⟩
        rw [Disk.entry?_insert _ (concat_ne_nil dir name), Function.update_self]

/-! ### Scripts -/

/-- The four calls behind a copy that has taken a file's place. -/
theorem replaceFile_calls {file copy : Path}
    (ran : World.runScript h (replaceFile file copy bytes) w = (.ok (.ok ()), w')) :
    ∃ stat d₁ d₂, w.disk.stat h.cwd file = .ok stat ∧ w.disk.write h.cwd copy bytes = .ok d₁ ∧
      d₁.chmod h.cwd copy stat.mode = .ok d₂ ∧ d₂.rename h.cwd copy file = .ok w'.disk := by
  unfold replaceFile at ran
  rw [World.runScript_ask_of_free rfl] at ran
  dsimp only [World.answer] at ran
  cases looked : w.disk.stat h.cwd file with
  | error e =>
    rw [looked] at ran
    cases ran
  | ok stat =>
    rw [looked] at ran
    dsimp only at ran
    rw [World.runScript_ask_of_free rfl] at ran
    dsimp only [World.answer] at ran
    cases written : w.disk.write h.cwd copy bytes with
    | error e =>
      rw [written] at ran
      cases ran
    | ok d₁ =>
      rw [written] at ran
      dsimp only [World.commit] at ran
      rw [World.runScript_ask_of_free rfl] at ran
      dsimp only [World.answer] at ran
      cases changed : d₁.chmod h.cwd copy stat.mode with
      | error e =>
        rw [changed] at ran
        cases ran
      | ok d₂ =>
        rw [changed] at ran
        dsimp only [World.commit] at ran
        rw [World.runScript_ask_of_free rfl] at ran
        dsimp only [World.answer] at ran
        cases renamed : d₂.rename h.cwd copy file with
        | error e =>
          rw [renamed] at ran
          cases ran
        | ok d₃ =>
          rw [renamed] at ran
          cases ran
          exact ⟨stat, d₁, d₂, rfl, rfl, changed, renamed⟩

/-- Neither a link nor the null device stands at a place. -/
def Disk.Plain (d : Disk) (x : Place) : Prop :=
  (∀ target, d.entry? x ≠ some (.link target)) ∧ d.entry? x ≠ some .nullDevice

/-- A copy that took the file's place left the new bytes there. -/
theorem replaceFile_bears (names : w.disk.Names h.cwd p (dir ++ [name]))
    (file : w.disk.entry? (dir ++ [name]) = some (.file n)) (rooted : w.disk.Rooted (dir ++ [name]))
    (clear : w.disk.Plain (dir ++ [name.copy]))
    (ran : World.runScript h
      (replaceFile (dir ++ [name] : Place).path (dir ++ [name.copy] : Place).path bytes) w =
        (.ok (.ok ()), w')) : w'.disk.Bears h.cwd p (dir ++ [name]) bytes := by
  obtain ⟨stat, d₁, d₂, -, written, changed, renamed⟩ := replaceFile_calls ran
  have names_copy := Disk.names_of_write rooted.of_append (rooted dir name [] rfl).1 clear.1 written
  obtain ⟨⟨names₁, m, copy₁, bytes₁⟩, frame₁, others₁⟩ :=
    Disk.bears_of_write names_copy clear.2 clear.1 written
  -- the copy's permissions change, and with them nothing that is looked at here
  rw [names₁.chmod_file copy₁] at changed
  cases changed
  have frame₂ := frame₁.setInode m { d₁.inode m with mode := stat.mode &&& Disk.modeMask }
  have file₁ : d₁.entry? (dir ++ [name]) = some (.file n) :=
    (others₁ _ (file_ne_copy dir name)).trans file
  have isDir := (frame₂.dir_iff dir).2 (rooted dir name [] rfl).1
  have bears := Disk.bears_of_rename (rooted.of_append.of_frame frame₂) isDir name.copy_ne
    (names.of_frame frame₂) copy₁ file₁ renamed
  have kept : ((d₁.setInode m { d₁.inode m with mode := stat.mode &&& Disk.modeMask }).inode
      m).bytes = bytes := by
    simp [Disk.setInode, bytes₁]
  rwa [kept] at bears

theorem writeByCopy_bears (names : w.disk.Names h.cwd p (dir ++ [name]))
    (file : w.disk.entry? (dir ++ [name]) = some (.file n)) (rooted : w.disk.Rooted (dir ++ [name]))
    (clear : w.disk.Plain (dir ++ [name.copy]))
    (ran : World.runScript h (writeByCopy p bytes) w = (.ok (.ok ()), w')) :
    w'.disk.Bears h.cwd p (dir ++ [name]) bytes := by
  unfold writeByCopy at ran
  rw [World.runScript_ask_of_free rfl] at ran
  dsimp only [World.answer] at ran
  rw [names.resolve_eq file] at ran
  by_cases long : maxPath < (dir ++ [name] : Place).path.length
  · rw [if_pos long] at ran
    cases ran
  rw [if_neg long] at ran
  dsimp only at ran
  rw [copyPlace_concat] at ran
  obtain ⟨result, w₁, replaced, rest⟩ := World.exists_of_runScript_bind ran
  cases result with
  | ok u =>
    cases rest
    exact replaceFile_bears names file rooted clear replaced
  | error e =>
    -- the copy is taken away again, but the failure stays
    obtain ⟨u, w₂, removed, failed⟩ := World.exists_of_runScript_bind rest
    cases failed

/-- **What a write leaves**: the file that was to be written, with what was to be written. -/
theorem writeSource_bears {text : String} {atomic : Bool} (names : w.disk.Names h.cwd p x)
    (file : w.disk.entry? x = some (.file n)) (rooted : w.disk.Rooted x)
    (clear : atomic = true → w.disk.Plain (copyPlace x))
    (ran : World.runScript h (writeSource p text atomic) w = (.ok (.ok ()), w')) :
    w'.disk.Bears h.cwd p x text.toUTF8 := by
  have ne : x ≠ [] := by
    rintro rfl
    cases file
  cases atomic with
  | true =>
    obtain ⟨result, w₁, written, last⟩ := World.exists_of_runScript_bind
      (s := writeByCopy p text.toUTF8) ran
    cases result with
    | error e => cases last
    | ok u =>
      cases last
      obtain rfl | ⟨dir, name, rfl⟩ := List.eq_nil_or_concat' x
      · exact absurd rfl ne
      · rw [copyPlace_concat] at clear
        exact writeByCopy_bears names file rooted (clear rfl) written
  | false =>
    have written : World.runScript h (.ask (.write p text.toUTF8) fun result =>
      .done (result.mapError SourceError.system)) w = (.ok (.ok ()), w') := ran
    rw [World.runScript_ask_of_free rfl] at written
    dsimp only [World.answer] at written
    rw [names.write_file file] at written
    cases written
    have frame : Frame ∅ w.disk w.disk := .refl fun _ hy => hy.elim
    refine ⟨names.of_frame (frame.setInode n _), n, file, ?_⟩
    simp [Disk.setInode, World.commit]

end

/-! ## Rereading -/

/-- **Rereading.**  Let a file be read, its calls be taken out and the rest be written back, in place
    or by a copy whose name no link and no null device bears.  Then the same path, read with the same
    limit, gives just what was written, unless a NUL that stood behind the first bytes of the file
    has moved up among them: that text is refused as binary. -/
theorem reread_of_written (pattern : CallPattern) (h : Host) (w w' : World) (p : Path) (x : Place)
    (n limit : Nat) (atomic : Bool) (text : String) (here : w.disk.Rooted h.cwd)
    (found : w.disk.find h.cwd p = .ok (x, .file n))
    (clear : atomic = true → w.disk.Plain (copyPlace x))
    (read : (World.runScript h (readSource p limit) w).1 = .ok (.ok text))
    (written : World.runScript h (writeSource p (pattern.sweep text).modified atomic) w =
      (.ok (.ok ()), w')) :
    (World.runScript h (readSource p limit) w').1 =
        .ok (if isBinary (pattern.sweep text).modified.toUTF8 then .error .binary
          else .ok (pattern.sweep text).modified) ∧
      (isBinary (pattern.sweep text).modified.toUTF8 = true →
        0 ∉ (Text.encode text).take sniffLength ∧ 0 ∈ (Text.encode text).drop sniffLength) := by
  have names := Names.of_find_file found
  have file := (Disk.find_eq_ok_iff.1 found).2.2
  have rooted : w.disk.Rooted x := by
    refine Rooted.of_leads ?_ (names.leads false)
    unfold Disk.origin
    split
    · exact .nil
    · exact here
  -- what was read is what the file holds
  have accepted : admitted limit (w.disk.inode n).bytes = .ok text := by
    rw [runScript_readSource ⟨names, n, file, rfl⟩] at read
    exact Except.ok.inj read
  obtain ⟨again, moved⟩ := admitted_modified pattern accepted
  refine ⟨?_, moved⟩
  rw [runScript_readSource (writeSource_bears names file rooted clear written), again]

/-! ### One file -/

namespace OneSource

def aJs : Name := ⟨[0x61, 0x2e, 0x6a, 0x73], by decide⟩

def path : Path := Place.path [aJs]

/-- The file `/a.js` with a text. -/
def disk (text : String) : Disk where
  entries := [([aJs], .file 0)]
  inode _ := ⟨text.toUTF8, 0o644⟩
  nodup := by decide

variable (text : String)

theorem rooted : (disk text).Rooted ([] ++ [aJs]) := Disk.Rooted.nil.concat rfl (by decide)

theorem names : (disk text).Names [] path ([] ++ [aJs]) := by
  have check : Disk.checkPath path = .ok () := Disk.checkPath_eq_ok_iff.2 (by decide)
  refine .of_rooted (rooted text) (List.cons_ne_nil _ _) (fun target link => ?_) check
  cases link

theorem bears : (disk text).Bears [] path ([] ++ [aJs]) text.toUTF8 := ⟨names text, 0, rfl, rfl⟩

theorem vacant : Disk.entry? (disk text) ([] ++ [aJs.copy]) = none := rfl

theorem plain : (disk text).Plain (copyPlace [aJs]) := by
  show Disk.Plain _ (copyPlace ([] ++ [aJs]))
  rw [copyPlace_concat]
  constructor
  · rintro target ⟨⟩
  · rintro ⟨⟩

/-- The file can be replaced by a copy. -/
theorem exists_written (new : String) :
    ∃ w', World.runScript (.quiet []) (writeSource path new true) (.start (disk text)) =
      (.ok (.ok ()), w') := by
  have copyable : Copyable [] aJs := by
    refine ⟨Disk.checkPath_eq_ok_iff.2 (by decide), Disk.checkPath_eq_ok_iff.2 ?_, by decide⟩
    decide
  have holds : Holds [] aJs text.toUTF8 (0o644 &&& Disk.modeMask) (disk text) :=
    ⟨rfl, Disk.view_eq_none_iff.2 (vacant text)⟩
  have frame : Frame {x | x = [] ++ [aJs.copy]} (disk text) (disk text) := by
    refine .refl fun x hx => ?_
    rw [show x = _ from hx]
    exact Disk.alone_of_vacant (vacant text)
  have mine : [] ++ [if true then aJs.copy else aJs] ∈ {x | x = [] ++ [aJs.copy]} := rfl
  have gives := writeSource_gives (h := .quiet []) (rooted text) rfl (names text) mine
    (fun _ => copyable) (fun _ => rfl) holds frame new
  obtain ⟨result, ran, rfl, -⟩ := gives.runScript (w := .start (disk text)) frame
  exact ⟨_, Prod.ext ran rfl⟩

/-- What is swept out of `/a.js` leaves a text that is read again. -/
theorem reread_one_source :
    ∃ w', World.runScript (.quiet []) (writeSource path "x" true)
        (.start (disk "console.log(1);x")) = (.ok (.ok ()), w') ∧
      (World.runScript (.quiet []) (readSource path 100) w').1 = .ok (.ok "x") := by
  have modified : (CallPattern.standard.sweep "console.log(1);x").modified = "x" := by
    decide +kernel
  have plain_text : isBinary "x".toUTF8 = false := by decide +kernel
  obtain ⟨w', written⟩ := exists_written "console.log(1);x" "x"
  have accepted : admitted 100 "console.log(1);x".toUTF8 = .ok "console.log(1);x" :=
    admitted_eq_ok_iff.2 ⟨rfl, by decide +kernel, by decide +kernel⟩
  have read : (World.runScript (.quiet []) (readSource path 100)
      (.start (disk "console.log(1);x"))).1 = .ok (.ok "console.log(1);x") := by
    rw [runScript_readSource (bears _), accepted]
  have found := (names "console.log(1);x").find rfl
  obtain ⟨again, -⟩ := reread_of_written .standard (.quiet []) _ w' path [aJs] 0 100 true
    "console.log(1);x" .nil found (fun _ => plain _) read (modified ▸ written)
  rw [modified, plain_text] at again
  exact ⟨w', written, again⟩

end OneSource

/-! ### A link that leads back -/

namespace LinkBack

open OneSource (aJs path)

def back : Path := .ofString "a.js"

/-- The file `/a.js`, and at the place of its copy a link that leads back to it. -/
def disk : Disk where
  entries := [([aJs], .file 0), ([aJs.copy], .link back)]
  inode _ := ⟨"console.log(1);x".toUTF8, 0o644⟩
  nodup := by decide

theorem rooted : disk.Rooted ([] ++ [aJs]) := Disk.Rooted.nil.concat rfl (by decide)

theorem names : disk.Names [] path ([] ++ [aJs]) := by
  have check : Disk.checkPath path = .ok () := Disk.checkPath_eq_ok_iff.2 (by decide)
  exact .of_rooted rooted (List.cons_ne_nil _ _) (fun target link => by cases link) check

theorem components_back : back.components = [.down aJs] := by decide +kernel

/-- The copy's path leads to the file itself. -/
theorem names_copy : disk.Names [] (Place.path [aJs.copy]) ([] ++ [aJs]) := by
  refine ⟨Disk.checkPath_eq_ok_iff.2 (by decide), fun making => ?_⟩
  have components : (Place.path [aJs.copy]).components = [.down aJs.copy] :=
    Place.components_path (List.cons_ne_nil _ _)
  show Disk.Leads disk making _ [] (Place.path [aJs.copy]).components _
  rw [components]
  refine .follow rfl (by simp) (by decide) rfl ?_
  rw [if_neg (by decide +kernel), components_back]
  exact .down rfl (by decide) fun _ link => by cases link

/-- The file with what was written to it through the link. -/
def put : Disk := disk.setInode 0 ⟨"x".toUTF8, 0o644⟩

theorem names_copy_put : put.Names [] (Place.path [aJs.copy]) ([] ++ [aJs]) := by
  have frame : Frame ∅ disk disk := .refl fun _ hy => hy.elim
  exact names_copy.of_frame (frame.setInode 0 _)

/-- And with its permissions set to what they are. -/
def written : Disk := put.setInode 0 ⟨"x".toUTF8, 0o644⟩

/-- And the link in the place of the file. -/
def looped : Disk := (written.erase [aJs.copy]).insert [aJs] (.link back)

theorem rename_copy : written.rename [] (Place.path [aJs.copy]) path = .ok looped := by
  have isDir : written.entry? [] = some .dir := rfl
  have source : written.findName [] (Place.path [aJs.copy]) = .ok ([] ++ [aJs.copy]) :=
    (Disk.findName_path_iff [] .nil isDir).2
      ⟨Disk.checkPath_eq_ok_iff.2 (by decide), by decide, rfl⟩
  have goal : written.findName [] path = .ok ([] ++ [aJs]) :=
    (Disk.findName_path_iff [] .nil isDir).2
      ⟨Disk.checkPath_eq_ok_iff.2 (by decide), by decide, rfl⟩
  rw [Disk.rename, source, goal]
  rfl

/-- A link that leads to itself is followed until there have been too many. -/
theorem locate_looped (links : Nat) :
    looped.locate false links [] [.down aJs] = .error .tooManyLinks := by
  have isDir : looped.entry? [] = some .dir := rfl
  have link : looped.entry? ([] ++ [aJs]) = some (.link back) := rfl
  have short : ¬ maxName < aJs.bytes.length := by decide
  have not_absolute : ¬ back.isAbsolute = true := by decide +kernel
  induction links with
  | zero =>
    rw [Disk.locate, if_neg (by simp), if_neg short, link]
    exact isDir
  | succ links ih =>
    rw [Disk.locate, if_neg (by simp), if_neg short, link]
    · show looped.locate false links (if back.isAbsolute then [] else []) (back.components ++ []) = _
      rw [if_neg not_absolute, components_back]
      exact ih
    · exact isDir

theorem find_looped : looped.find [] path = .error .tooManyLinks := by
  have check : Disk.checkPath path = .ok () := Disk.checkPath_eq_ok_iff.2 (by decide)
  have components : path.components = [.down aJs] := Place.components_path (List.cons_ne_nil _ _)
  have origin : Disk.origin [] path = [] := by decide +kernel
  rw [Disk.find, check, components, origin]
  show (looped.locate false maxLinks [] [.down aJs]).bind _ = _
  rw [locate_looped]
  rfl

/-- What a write to `/a.js` by a copy does. -/
theorem writeSource_ends : Script.Ends (.quiet []) (writeSource path "x" true) (.start disk)
    (.ok ()) (.start looped) := by
  have at_file : disk.entry? ([] ++ [aJs]) = some (.file 0) := rfl
  have resolved : disk.resolve [] path = .ok [aJs] :=
    (names.resolve_eq at_file).trans (if_neg (by decide))
  have looked := names.stat_file at_file
  have put := names_copy.write_file at_file "x".toUTF8
  have permitted := names_copy_put.chmod_file (n := 0) rfl 0o644
  have replaced : Script.Ends (.quiet [])
      (replaceFile path (Place.path [aJs.copy]) "x".toUTF8) (.start disk) (.ok ())
      (.start looped) := by
    refine .ask rfl (congrArg (·, _) looked) (.ask rfl (congrArg (World.commit _) put) ?_)
    refine .ask rfl (congrArg (World.commit _) permitted) ?_
    exact .ask rfl (congrArg (World.commit _) rename_copy) .done
  have copied : Script.Ends (.quiet []) (writeByCopy path "x".toUTF8) (.start disk) (.ok ())
      (.start looped) := .ask rfl (congrArg (·, _) resolved) (replaced.bind .done)
  exact copied.bind .done

/-- **A link that leads back**: `/a.js` is read and swept, and its text written through the link.
    Then the link is moved to the place of the file, where it leads to itself, and nothing is found
    there any more. -/
theorem not_reread_through_link :
    ∃ w', (World.runScript (.quiet []) (readSource path 100) (.start disk)).1 =
        .ok (.ok "console.log(1);x") ∧
      World.runScript (.quiet []) (writeSource path
        (CallPattern.standard.sweep "console.log(1);x").modified true) (.start disk) =
          (.ok (.ok ()), w') ∧
      (World.runScript (.quiet []) (readSource path 100) w').1 = .ok (.error (.notFound path)) := by
  have modified : (CallPattern.standard.sweep "console.log(1);x").modified = "x" := by
    decide +kernel
  have accepted : admitted 100 "console.log(1);x".toUTF8 = .ok "console.log(1);x" :=
    admitted_eq_ok_iff.2 ⟨rfl, by decide +kernel, by decide +kernel⟩
  have bears : (World.start disk).disk.Bears [] path ([] ++ [aJs]) "console.log(1);x".toUTF8 :=
    ⟨names, 0, rfl, rfl⟩
  have lost : (World.start looped).answer (.quiet []) (.stat path) =
      (.error .tooManyLinks, .start looped) := by
    show (looped.stat [] path, _) = _
    rw [Disk.stat, find_looped]
    rfl
  refine ⟨.start looped, ?_, ?_, ?_⟩
  · rw [runScript_readSource (h := .quiet []) bears, accepted]
  · rw [modified]
    exact writeSource_ends.runScript
  · have reread : Script.Ends (.quiet []) (readSource path 100) (.start looped)
        (.error (.notFound path)) (.start looped) := .ask rfl lost .done
    rw [reread.runScript]

end LinkBack

/-! ## A NUL that moves up -/

namespace NulBehind

open OneSource (path disk)

/-- What stands behind the call. -/
def rest (k : Nat) : List Char := List.replicate k 'x' ++ ['\x00']

def call : List Char := "console.log()".toList

/-- A call, some filler and a NUL. -/
def text (k : Nat) : String := String.ofList (call ++ rest k)

theorem kept_rest (k : Nat) : CallPattern.standard.kept (rest k) = rest k := by
  induction k with
  | zero =>
    have no_call : CallPattern.standard.matchAt ['\x00'] = none := rfl
    show CallPattern.standard.kept ['\x00'] = _
    rw [CallPattern.kept_of_none no_call, CallPattern.kept_nil]
    rfl
  | succ k ih =>
    have no_call : CallPattern.standard.matchAt ('x' :: rest k) = none := rfl
    show CallPattern.standard.kept ('x' :: rest k) = 'x' :: rest k
    rw [CallPattern.kept_of_none no_call, ih]

variable {k : Nat}

theorem modified_eq (filled : 0 < k) :
    (CallPattern.standard.sweep (text k)).modified = String.ofList (rest k) := by
  obtain ⟨k, rfl⟩ := Nat.exists_eq_add_of_lt filled
  rw [Nat.zero_add]
  have found : CallPattern.standard.matchAt (call ++ rest (k + 1)) =
      some (13, rest (k + 1)) := rfl
  rw [← String.toList_inj, CallPattern.toList_modified, text, String.toList_ofList,
    String.toList_ofList]
  exact (CallPattern.kept_of_match found).trans (kept_rest (k + 1))

theorem encode_rest (k : Nat) :
    (rest k).flatMap String.utf8EncodeChar = List.replicate k 0x78 ++ [0] := by
  induction k with
  | zero => rfl
  | succ k ih =>
    show String.utf8EncodeChar 'x' ++ (rest k).flatMap String.utf8EncodeChar = _
    rw [ih]
    rfl

/-- The bytes of the call. -/
def callBytes : List UInt8 := call.flatMap String.utf8EncodeChar

theorem length_callBytes : callBytes.length = 13 := by decide

theorem encode_text (k : Nat) :
    Text.encode (text k) = callBytes ++ List.replicate k 0x78 ++ [0] := by
  rw [Text.encode_eq_flatMap, text, String.toList_ofList, List.flatMap_append, encode_rest,
    List.append_assoc]
  rfl

theorem size_text (k : Nat) : (text k).toUTF8.size = k + 14 := by
  rw [← Text.length_encode, encode_text, List.length_append, List.length_append,
    List.length_replicate, length_callBytes, List.length_singleton]
  omega

/-- With the call in front, the NUL is not among the first bytes. -/
theorem isBinary_text (far : sniffLength ≤ 13 + k) : isBinary (text k).toUTF8 = false := by
  rw [← Bool.not_eq_true, isBinary_iff, encode_text]
  intro among
  have long : sniffLength ≤ (callBytes ++ List.replicate k 0x78).length := by
    rwa [List.length_append, List.length_replicate, length_callBytes]
  rw [List.take_append_of_le_length long] at among
  rcases List.mem_append.1 (List.mem_of_mem_take among) with within | filler
  · exact absurd within (by decide)
  · exact absurd (List.eq_of_mem_replicate filler) (by decide)

/-- Without it, it is. -/
theorem isBinary_modified (filled : 0 < k) (near : k < sniffLength) :
    isBinary (CallPattern.standard.sweep (text k)).modified.toUTF8 = true := by
  have short : (List.replicate k (0x78 : UInt8) ++ [0]).length ≤ sniffLength := by
    rw [List.length_append, List.length_replicate, List.length_singleton]
    omega
  rw [isBinary_iff, modified_eq filled, Text.encode_eq_flatMap, String.toList_ofList, encode_rest,
    List.take_of_length_le short]
  exact List.mem_append_right _ (List.mem_singleton.2 rfl)

/-- **A NUL that moves up**: a file is read, swept and written back, and is then refused. -/
theorem reread_binary :
    ∃ w', (World.runScript (.quiet []) (readSource path 9000) (.start (disk (text 8180)))).1 =
        .ok (.ok (text 8180)) ∧
      World.runScript (.quiet [])
        (writeSource path (CallPattern.standard.sweep (text 8180)).modified true)
        (.start (disk (text 8180))) = (.ok (.ok ()), w') ∧
      (World.runScript (.quiet []) (readSource path 9000) w').1 = .ok (.error .binary) := by
  have far : sniffLength ≤ 13 + 8180 := by decide
  have near : 8180 < sniffLength := by decide
  generalize size : 8180 = k at far near
  have accepted : admitted 9000 (text k).toUTF8 = .ok (text k) := by
    refine admitted_eq_ok_iff.2 ⟨rfl, ?_, isBinary_text far⟩
    rw [size_text]
    omega
  obtain ⟨w', written⟩ :=
    OneSource.exists_written (text k) (CallPattern.standard.sweep (text k)).modified
  have bears := writeSource_bears (OneSource.names (text k)) rfl (OneSource.rooted (text k))
    (fun _ => OneSource.plain (text k)) written
  refine ⟨w', ?_, written, ?_⟩
  · rw [runScript_readSource (OneSource.bears (text k)), accepted]
  · rw [runScript_readSource bears, (admitted_modified _ accepted).1,
      isBinary_modified (by omega) near]
    rfl

end NulBehind

end CallSweep
