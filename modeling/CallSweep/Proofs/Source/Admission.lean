/-
  What reading a source file comes to.

  `readSource` looks at one thing after the other and stops at the first that is wrong.  Here it is
  said without the order of the steps what can be wrong with a path.

  1. **One reading** (`runScript_readSource_eq`) — the result is a function of the disk, and nothing
     in the world has changed behind it.

  2. **Objections** (`Objection`) — all that can be said against a path, each by itself; there is at
     most one of each rank.

  3. **Acceptance** (`readingOf_eq_ok_iff`) — a text comes out if nothing can be said against the
     path, and then it is the file's.

  4. **Admission** (`readSource_admits`) — together with the errors, which are the objections of the
     least rank.
-/
import CallSweep.Proofs.Source.Reread

namespace CallSweep

/-! ## One reading -/

/-- What comes out when a source file is read. -/
def readingOf (d : Disk) (cwd : Place) (p : Path) (limit : Nat) : Except SourceError String :=
  match d.stat cwd p with
  | .error _ => .error (.notFound p)
  | .ok stat =>
    if limit < stat.size then .error (.tooLarge stat.size limit)
    else
      match d.read cwd p with
      | .error e => .error (.system e)
      | .ok bytes => plainText bytes

section

variable {h : Host} {w : World} {d : Disk} {cwd : Place} {p : Path} {limit : Nat}
  {bytes : ByteArray}

/-- A reading changes nothing. -/
theorem runScript_readSource_eq :
    World.runScript h (readSource p limit) w = (.ok (readingOf w.disk h.cwd p limit), w) := by
  unfold readSource readingOf
  rw [World.runScript_ask_of_free rfl]
  dsimp only [World.answer]
  cases w.disk.stat h.cwd p with
  | error e => rfl
  | ok stat =>
    dsimp only
    split
    · rfl
    · rw [World.runScript_ask_of_free rfl]
      dsimp only [World.answer]
      cases w.disk.read h.cwd p <;> rfl

theorem Disk.stat_eq_error_iff {e : OsError} :
    d.stat cwd p = .error e ↔ d.find cwd p = .error e := by
  unfold Disk.stat
  cases d.find cwd p with
  | error e' => constructor <;> exact fun same => by cases same; rfl
  | ok there =>
    obtain ⟨place, entry⟩ := there
    refine iff_of_false ?_ nofun
    cases entry <;> exact nofun

/-- The size of a file is known before it is read. -/
theorem Disk.exists_stat_of_read (read : d.read cwd p = .ok bytes) :
    ∃ stat, d.stat cwd p = .ok stat ∧ stat.size = bytes.size := by
  unfold Disk.stat
  unfold Disk.read at read
  cases found : d.find cwd p with
  | error e =>
    rw [found] at read
    cases read
  | ok there =>
    obtain ⟨place, entry⟩ := there
    simp only [found, bind, Except.bind] at read ⊢
    cases entry with
    | file n | nullDevice =>
      cases read
      exact ⟨_, rfl, rfl⟩
    | dir | link target | socket => cases read

/-! ## Objections -/

/-- Whether there is a NUL among the first bytes that are looked at. -/
def NulFirst (bytes : ByteArray) : Prop :=
  ∃ i < min bytes.size 8192, bytes.data.toList[i]? = some 0

theorem isBinary_eq_true_iff : isBinary bytes = true ↔ NulFirst bytes := by
  rw [isBinary, List.contains_iff_mem, List.mem_iff_getElem?]
  refine exists_congr fun i => ?_
  rw [List.getElem?_take, Option.ite_none_right_eq_some, Nat.lt_min]
  refine and_congr_left fun there => ?_
  have inside : i < bytes.size := (List.getElem?_eq_some_iff.1 there).1
  exact (and_iff_right inside).symm

/-- What can be said against a path as a source file of at most `limit` bytes. -/
inductive Objection (d : Disk) (cwd : Place) (p : Path) (limit : Nat) : SourceError → Prop where
  /-- It leads nowhere. -/
  | lost {e : OsError} (find : d.find cwd p = .error e) : Objection d cwd p limit (.notFound p)
  /-- What is there is too large. -/
  | large {stat : Stat} (looked : d.stat cwd p = .ok stat) (large : limit < stat.size) :
    Objection d cwd p limit (.tooLarge stat.size limit)
  /-- It cannot be read. -/
  | unread {e : OsError} (read : d.read cwd p = .error e) : Objection d cwd p limit (.system e)
  /-- It can be read, and there is a NUL among the first bytes. -/
  | nul {bytes : ByteArray} (read : d.read cwd p = .ok bytes) (nul : NulFirst bytes) :
    Objection d cwd p limit .binary
  /-- It can be read, and it is no text. -/
  | notText {bytes : ByteArray} (read : d.read cwd p = .ok bytes) (other : ¬bytes.IsValidUTF8) :
    Objection d cwd p limit .encoding

/-- Which of two errors goes first. -/
def SourceError.rank : SourceError → Nat
  | .notFound _ => 0
  | .tooLarge _ _ => 1
  | .system _ => 2
  | .binary => 3
  | .encoding => 4

namespace Objection

variable {e e' : SourceError}

/-- There is one objection of a rank at most. -/
theorem eq_of_rank (one : Objection d cwd p limit e) (two : Objection d cwd p limit e')
    (same : e.rank = e'.rank) : e = e' := by
  cases one with
  | lost =>
    cases two <;> first | rfl | exact nomatch same
  | large looked =>
    cases two with
    | large looked' =>
      cases looked.symm.trans looked'
      rfl
    | lost | unread | nul | notText => exact nomatch same
  | unread read =>
    cases two with
    | unread read' =>
      cases read.symm.trans read'
      rfl
    | lost | large | nul | notText => exact nomatch same
  | nul =>
    cases two <;> first | rfl | exact nomatch same
  | notText =>
    cases two <;> first | rfl | exact nomatch same

/-! What has been looked at and was in order leaves only errors of a higher rank. -/

variable {stat : Stat}

theorem one_le_rank (looked : d.stat cwd p = .ok stat) (found : Objection d cwd p limit e) :
    1 ≤ e.rank := by
  cases found with
  | lost find => cases looked.symm.trans (Disk.stat_eq_error_iff.2 find)
  | large | unread | nul | notText => simp [SourceError.rank]

theorem two_le_rank (looked : d.stat cwd p = .ok stat) (small : ¬limit < stat.size)
    (found : Objection d cwd p limit e) : 2 ≤ e.rank := by
  refine Nat.lt_of_le_of_ne (one_le_rank looked found) fun same => ?_
  cases found with
  | large looked' large =>
    cases looked.symm.trans looked'
    exact small large
  | lost | unread | nul | notText => cases same

theorem three_le_rank (read : d.read cwd p = .ok bytes) (small : ¬limit < bytes.size)
    (found : Objection d cwd p limit e) : 3 ≤ e.rank := by
  obtain ⟨stat, looked, size⟩ := Disk.exists_stat_of_read read
  refine Nat.lt_of_le_of_ne (two_le_rank looked (size ▸ small) found) fun same => ?_
  cases found with
  | unread failed => cases read.symm.trans failed
  | lost | large | nul | notText => cases same

theorem four_le_rank (read : d.read cwd p = .ok bytes) (small : ¬limit < bytes.size)
    (plain : ¬NulFirst bytes) (found : Objection d cwd p limit e) : 4 ≤ e.rank := by
  refine Nat.lt_of_le_of_ne (three_le_rank read small found) fun same => ?_
  cases found with
  | nul read' nul =>
    cases read.symm.trans read'
    exact plain nul
  | lost | large | unread | notText => cases same

theorem not_of_plain (read : d.read cwd p = .ok bytes) (small : ¬limit < bytes.size)
    (plain : ¬NulFirst bytes) (text : bytes.IsValidUTF8) : ¬Objection d cwd p limit e := by
  intro found
  have last := four_le_rank read small plain found
  cases found with
  | notText read' other =>
    cases read.symm.trans read'
    exact other text
  | lost | large | unread | nul => simp [SourceError.rank] at last

end Objection

/-! ## Acceptance -/

theorem Text.fromUTF8?_eq_none_iff : String.fromUTF8? bytes = none ↔ ¬bytes.IsValidUTF8 := by
  unfold String.fromUTF8?
  split <;> simp [*]

theorem readingOf_of_read (read : d.read cwd p = .ok bytes) :
    readingOf d cwd p limit = admitted limit bytes := by
  obtain ⟨stat, looked, size⟩ := Disk.exists_stat_of_read read
  simp only [readingOf, looked, size, read, admitted]

/-- **Acceptance.**  A text comes out if the file can be read and is its bytes, if they are not too
    many and no NUL is among the first of them. -/
theorem readingOf_eq_ok_iff {text : String} :
    readingOf d cwd p limit = .ok text ↔
      d.read cwd p = .ok text.toUTF8 ∧ text.toUTF8.size ≤ limit ∧ ¬NulFirst text.toUTF8 := by
  cases read : d.read cwd p with
  | error e =>
    refine iff_of_false (fun accepted => ?_) nofun
    unfold readingOf at accepted
    split at accepted
    · cases accepted
    split at accepted
    · cases accepted
    rw [read] at accepted
    cases accepted
  | ok bytes =>
    rw [readingOf_of_read read, admitted_eq_ok_iff, ← Bool.not_eq_true, isBinary_eq_true_iff,
      Except.ok.injEq]
    refine and_congr_right fun same => ?_
    rw [same]

/-- Where no text comes out, it is for the first thing that is wrong. -/
theorem objection_of_readingOf {e : SourceError} (refused : readingOf d cwd p limit = .error e) :
    Objection d cwd p limit e ∧ ∀ e', Objection d cwd p limit e' → e.rank ≤ e'.rank := by
  unfold readingOf at refused
  split at refused
  · next looked =>
    cases refused
    exact ⟨.lost (Disk.stat_eq_error_iff.1 looked), fun _ _ => Nat.zero_le _⟩
  next stat looked =>
  split at refused
  · next large =>
    cases refused
    exact ⟨.large looked large, fun _ => Objection.one_le_rank looked⟩
  next small =>
  split at refused
  · next read =>
    cases refused
    exact ⟨.unread read, fun _ => Objection.two_le_rank looked small⟩
  next bytes read =>
  obtain ⟨stat', looked', size⟩ := Disk.exists_stat_of_read read
  cases looked.symm.trans looked'
  rw [size] at small
  unfold plainText at refused
  split at refused
  · next binary =>
    cases refused
    exact ⟨.nul read (isBinary_eq_true_iff.1 binary), fun _ => Objection.three_le_rank read small⟩
  next plain =>
  split at refused
  · cases refused
  · next other =>
    cases refused
    exact ⟨.notText read (Text.fromUTF8?_eq_none_iff.1 other),
      fun _ => Objection.four_le_rank read small (mt isBinary_eq_true_iff.2 plain)⟩

theorem readingOf_eq_error_iff {e : SourceError} :
    readingOf d cwd p limit = .error e ↔
      Objection d cwd p limit e ∧ ∀ e', Objection d cwd p limit e' → e.rank ≤ e'.rank := by
  refine ⟨objection_of_readingOf, ?_⟩
  rintro ⟨found, first⟩
  cases result : readingOf d cwd p limit with
  | ok text =>
    obtain ⟨read, small, plain⟩ := readingOf_eq_ok_iff.1 result
    exact absurd found (Objection.not_of_plain read (Nat.not_lt.2 small) plain text.isValidUTF8)
  | error e' =>
    obtain ⟨found', first'⟩ := objection_of_readingOf result
    rw [found'.eq_of_rank found (Nat.le_antisymm (first' e found) (first e' found'))]

end

/-! ## Admission -/

/-- **Admission.**  Reading a source file comes to an end and changes nothing.  A text comes out
    exactly if the path leads to a file that can be read, has at most `limit` bytes, has no NUL among
    the first 8192 of them and is UTF-8; and the text is the file's, byte by byte.  Otherwise the
    error is the first of all objections to the path. -/
theorem readSource_admits (h : Host) (w : World) (p : Path) (limit : Nat) :
    ∃ result, World.runScript h (readSource p limit) w = (.ok result, w) ∧
      ((∃ text, result = .ok text) ↔
        ∃ bytes, w.disk.read h.cwd p = .ok bytes ∧ bytes.size ≤ limit ∧ ¬NulFirst bytes ∧
          bytes.IsValidUTF8) ∧
      (∀ text, result = .ok text → w.disk.read h.cwd p = .ok text.toUTF8) ∧
      ∀ e, result = .error e ↔ Objection w.disk h.cwd p limit e ∧
        ∀ e', Objection w.disk h.cwd p limit e' → e.rank ≤ e'.rank := by
  refine ⟨readingOf w.disk h.cwd p limit, runScript_readSource_eq, ?_,
    fun text accepted => (readingOf_eq_ok_iff.1 accepted).1, fun e => readingOf_eq_error_iff⟩
  constructor
  · rintro ⟨text, accepted⟩
    obtain ⟨read, small, plain⟩ := readingOf_eq_ok_iff.1 accepted
    exact ⟨_, read, small, plain, text.isValidUTF8⟩
  · rintro ⟨bytes, read, small, plain, valid⟩
    exact ⟨⟨bytes, valid⟩, readingOf_eq_ok_iff.2 ⟨read, small, plain⟩⟩

namespace OneSource

/-- The file `/a.js` is admitted under a limit of just its size, and is too large for a lower one. -/
theorem readSource_admits_one_source :
    World.runScript (.quiet []) (readSource path 3) (.start (disk "x\r\n")) =
        (.ok (.ok "x\r\n"), .start (disk "x\r\n")) ∧
      World.runScript (.quiet []) (readSource path 2) (.start (disk "x\r\n")) =
        (.ok (.error (.tooLarge 3 2)), .start (disk "x\r\n")) := by
  have read : (disk "x\r\n").read [] path = .ok "x\r\n".toUTF8 := (names _).read_file rfl
  have looked : (disk "x\r\n").stat [] path = .ok ⟨.file, 3, 0o644⟩ := (names _).stat_file rfl
  have size : "x\r\n".toUTF8.size = 3 := by decide +kernel
  have plain : ¬NulFirst "x\r\n".toUTF8 := by
    rw [← isBinary_eq_true_iff]
    decide +kernel
  constructor
  · obtain ⟨_, ran, accepted, whole, -⟩ :=
      readSource_admits (.quiet []) (.start (disk "x\r\n")) path 3
    obtain ⟨text, rfl⟩ := accepted.2 ⟨_, read, size.le, plain, String.isValidUTF8 _⟩
    have same : "x\r\n".toUTF8 = text.toUTF8 := Except.ok.inj (read.symm.trans (whole text rfl))
    rw [ran, String.toByteArray_inj.1 same]
  · obtain ⟨_, ran, -, -, refused⟩ :=
      readSource_admits (.quiet []) (.start (disk "x\r\n")) path 2
    rw [ran, (refused (.tooLarge 3 2)).2
      ⟨.large looked (by decide), fun _ => Objection.one_le_rank looked⟩]

end OneSource

end CallSweep
