/-
  Runs in which the system lets requests down.

  `World.answer` fails a request for what the disk holds, and for nothing else.  A system has more
  reasons: a right is missing, the medium is full, a device breaks.  The module says what may be
  answered when any request to the file system may fail at any time.

  1. **Failures** — `Request.failure?` is the answer of a request that fails, if it can.

  2. **Writes** (`Disk.Writes`) — a write may take away from a file the permission to run in the
     name of its owner or group.

  3. **Answers** (`World.MayAnswer`) — a request is met, or it fails and nothing has happened.  A
     write may also be cut short: the file has been made or emptied, and some of the bytes are
     there.  Of an entry that comes up in a listing the kind may remain untold.  `Host.faulty` is
     the system that answers like that.

  4. **Ends** (`Script.MayEnd`) — a script each of whose requests is answered like that, with the
     acts it came to, its result and the world that it leaves.  The runs without failures are among
     them (`Script.exists_mayEnd_of_runScript`).
-/
import CallSweep.Proofs.Run.Scripts
import CallSweep.Proofs.Run.Trace

namespace CallSweep

/-! ## Failures -/

/-- The answer of a request to the file system that fails. -/
def Request.failure? (e : OsError) : (r : Request) → Option r.Answer
  | .stat _ => some (.error e)
  | .list _ => some (.error e)
  | .next _ _ => some (.error e)
  | .read _ => some (.error e)
  | .resolve _ => some (.error e)
  | .write _ _ => some (.error e)
  | .chmod _ _ => some (.error e)
  | .rename _ _ => some (.error e)
  | .remove _ => some (.error e)
  | .count _ | .tally | .note _ | .complaints | .print _ _ | .exit _ => none

/-! ## Writes -/

namespace Disk

/-- The permission bits but for one or both of those that let a file run in the name of its owner
    or of its group. -/
def plainMasks : List Nat := [0o3777, 0o5777, 0o1777]

/-- What a write may leave: the bytes are there, and some permissions may be gone. -/
inductive Writes (d : Disk) (cwd : Place) (p : Path) (bytes : ByteArray) : Disk → Prop
  | whole {d' : Disk} (written : d.write cwd p bytes = .ok d') : Writes d cwd p bytes d'
  | stripped {d' : Disk} {x : Place} {n mask : Nat} (written : d.write cwd p bytes = .ok d')
      (file : d'.find cwd p = .ok (x, .file n)) (plain : mask ∈ plainMasks) :
      Writes d cwd p bytes (d'.setInode n { d'.inode n with mode := (d'.inode n).mode &&& mask })

end Disk

/-! ## Answers -/

/-- A request may be answered so, and the world is another one then. -/
inductive World.MayAnswer (h : Host) (w : World) : (r : Request) → r.Answer → World → Prop
  | met {r : Request} {answer : r.Answer} {w' : World} (free : World.refusal h r = none)
      (answered : w.answer h r = (answer, w')) : MayAnswer h w r answer w'
  /-- The system fails the request. -/
  | failed {r : Request} {answer : r.Answer} (e : OsError) (fails : r.failure? e = some answer) :
      MayAnswer h w r answer w
  /-- The file is written, and some permissions may be gone. -/
  | written {p : Path} {bytes : ByteArray} {disk : Disk}
      (writes : w.disk.Writes h.cwd p bytes disk) :
      MayAnswer h w (.write p bytes) (.ok ()) { w with disk }
  /-- The system breaks a write off. -/
  | cutShort {p : Path} {bytes part : ByteArray} {disk : Disk} (e : OsError)
      (begun : part.data.toList <+: bytes.data.toList)
      (writes : w.disk.Writes h.cwd p part disk) :
      MayAnswer h w (.write p bytes) (.error e) { w with disk }
  /-- An entry comes up, and of what kind it is cannot be told. -/
  | untold {p : Path} {l : Listing p} {name : Name} {kind : FileKind} {rest : l.Shorter}
      (e : OsError) (comes : l.next? = some ((name, kind), rest)) :
      MayAnswer h w (.next p l) (.ok (some ((name, .error e), rest))) w

/-- Ways in which a listing may go on: with its next entry, if anything. -/
inductive Listing.Goes {p : Path} (l : Listing p) :
    Except OsError (Option ((Name × Except OsError FileKind) × l.Shorter)) → Prop
  | ended (none_ : l.next? = none) : Goes l (.ok none)
  | entry {name : Name} {kind : FileKind} {rest : l.Shorter}
      (comes : l.next? = some ((name, kind), rest)) : Goes l (.ok (some ((name, .ok kind), rest)))
  | untold {name : Name} {kind : FileKind} {rest : l.Shorter} (e : OsError)
      (comes : l.next? = some ((name, kind), rest)) :
      Goes l (.ok (some ((name, .error e), rest)))
  | broken (e : OsError) : Goes l (.error e)

/-- The system that may let any request to the file system down. -/
def Host.faulty (h : Host) : System where
  host := h
  answers := World.MayAnswer h
  total _ _ free := ⟨_, _, .met free rfl⟩

namespace World.MayAnswer

variable {h : Host} {w w' : World} {p q : Path} {bytes : ByteArray} {mode : Nat}

theorem of_book {r : Request} {a : r.Answer} (book : r.isBook = true)
    (may : MayAnswer h w r a w') : w.answer h r = (a, w') := by
  cases may with
  | met free answered => exact answered
  | failed e fails =>
    cases r with
    | count _ | tally | note _ | complaints | print _ _ | exit _ => cases fails
    | _ => cases book
  | written _ | cutShort _ _ _ | untold _ _ => cases book

/-! ### Looking -/

theorem of_stat {answer : Except OsError Stat} (may : MayAnswer h w (.stat p) answer w') :
    w' = w ∧ ∀ stat, answer = .ok stat → w.disk.stat h.cwd p = .ok stat := by
  cases may with
  | met free answered =>
    cases answered
    exact ⟨rfl, fun stat ok => ok⟩
  | failed e fails =>
    cases fails
    exact ⟨rfl, fun stat ok => by cases ok⟩

theorem of_read {answer : Except OsError ByteArray} (may : MayAnswer h w (.read p) answer w') :
    w' = w ∧ ∀ bytes, answer = .ok bytes → w.disk.read h.cwd p = .ok bytes := by
  cases may with
  | met free answered =>
    cases answered
    exact ⟨rfl, fun bytes ok => ok⟩
  | failed e fails =>
    cases fails
    exact ⟨rfl, fun bytes ok => by cases ok⟩

theorem of_resolve {answer : Except OsError Place} (may : MayAnswer h w (.resolve p) answer w') :
    w' = w ∧ ∀ x, answer = .ok x → w.disk.resolve h.cwd p = .ok x := by
  cases may with
  | met free answered =>
    cases answered
    exact ⟨rfl, fun x ok => ok⟩
  | failed e fails =>
    cases fails
    exact ⟨rfl, fun x ok => by cases ok⟩

/-! ### Changing -/

theorem eq_ok_of_commit {result : Except OsError Disk}
    (committed : w.commit result = (.ok (), w')) : result = .ok w'.disk := by
  cases result with
  | ok d =>
    cases committed
    rfl
  | error e => cases committed

theorem eq_of_commit_error {result : Except OsError Disk} {e : OsError}
    (committed : w.commit result = (.error e, w')) : w' = w := by
  cases result with
  | ok d => cases committed
  | error e =>
    cases committed
    rfl

/-- A write that succeeds is whole. -/
theorem of_write_ok (may : MayAnswer h w (.write p bytes) (.ok ()) w') :
    w.disk.Writes h.cwd p bytes w'.disk := by
  cases may with
  | met free answered => exact .whole (eq_ok_of_commit answered)
  | failed e fails => cases fails
  | written writes => exact writes

/-- A write that fails has done nothing, or the beginning of it. -/
theorem of_write_error {e : OsError} (may : MayAnswer h w (.write p bytes) (.error e) w') :
    w'.disk = w.disk ∨ ∃ part : ByteArray, part.data.toList <+: bytes.data.toList ∧
      w.disk.Writes h.cwd p part w'.disk := by
  cases may with
  | met free answered => exact .inl (congrArg disk (eq_of_commit_error answered))
  | failed e fails => exact .inl rfl
  | cutShort e begun writes => exact .inr ⟨_, begun, writes⟩

theorem of_chmod_ok (may : MayAnswer h w (.chmod p mode) (.ok ()) w') :
    w.disk.chmod h.cwd p mode = .ok w'.disk := by
  cases may with
  | met free answered => exact eq_ok_of_commit answered
  | failed e fails => cases fails

theorem of_chmod_error {e : OsError} (may : MayAnswer h w (.chmod p mode) (.error e) w') :
    w' = w := by
  cases may with
  | met free answered => exact eq_of_commit_error answered
  | failed e fails => rfl

theorem of_rename_ok (may : MayAnswer h w (.rename p q) (.ok ()) w') :
    w.disk.rename h.cwd p q = .ok w'.disk := by
  cases may with
  | met free answered => exact eq_ok_of_commit answered
  | failed e fails => cases fails

theorem of_rename_error {e : OsError} (may : MayAnswer h w (.rename p q) (.error e) w') :
    w' = w := by
  cases may with
  | met free answered => exact eq_of_commit_error answered
  | failed e fails => rfl

theorem of_remove_ok (may : MayAnswer h w (.remove p) (.ok ()) w') :
    w.disk.remove h.cwd p = .ok w'.disk := by
  cases may with
  | met free answered => exact eq_ok_of_commit answered
  | failed e fails => cases fails

theorem of_remove_error {e : OsError} (may : MayAnswer h w (.remove p) (.error e) w') :
    w' = w := by
  cases may with
  | met free answered => exact eq_of_commit_error answered
  | failed e fails => rfl

/-! ### Listings -/

/-- A listing goes on with its next entry, if it does. -/
theorem of_next {l : Listing p} {answer : (Request.next p l).Answer}
    (may : MayAnswer h w (.next p l) answer w') : l.Goes answer := by
  cases may with
  | met free answered =>
    cases answered
    show l.Goes (.ok (l.next?.map _))
    cases comes : l.next? with
    | none => exact .ended comes
    | some next => exact .entry comes
  | failed e fails =>
    cases fails
    exact .broken e
  | untold e comes => exact .untold e comes

end World.MayAnswer

theorem Host.faulty_honest (h : Host) : h.faulty.Honest where
  look {w r a w'} look may := by
    cases may with
    | met free answered => exact h.system_honest.look look answered
    | failed e fails => rfl
    | written _ | cutShort _ _ _ => cases look
    | untold e comes => rfl
  change {w r a w'} change may := by
    cases may with
    | met free answered => exact h.system_honest.change change answered
    | failed e fails => exact ⟨w.disk, rfl⟩
    | written _ | cutShort _ _ _ => exact ⟨_, rfl⟩
    | untold e comes => cases change
  book book may := may.of_book book

/-! ## Fair systems -/

/-- A system that may fail any request, and may break a listing off.  What it does not fail it meets
    as the disk has it; a listing holds the entries that are there when it is opened. -/
structure System.Fair (S : System) : Prop extends S.Honest where
  may : ∀ {w r a w'}, r.isListing = false → World.refusal S.host r = none →
    S.answers w r a w' → World.MayAnswer S.host w r a w'
  lists : ∀ {w p} {l : Listing p} {w'}, S.answers w (.list p) (.ok l) w' → ∃ dir,
    w.disk.find S.host.cwd p = .ok (dir, .dir) ∧ l.entries = w.disk.children dir
  nexts : ∀ {w p} {l : Listing p} {a w'}, S.answers w (.next p l) a w' → l.Goes a

/-- What is listed are the entries of a directory that is found. -/
theorem Disk.find_of_list {d : Disk} {cwd : Place} {p : Path} {l : Listing p}
    (listed : d.list cwd p = .ok l) : ∃ dir, d.find cwd p = .ok (dir, .dir) ∧
      l.entries = d.children dir := by
  unfold Disk.list at listed
  split at listed
  · split at listed
    · rename_i dir found
      cases listed
      exact ⟨dir, found, rfl⟩
    · cases listed
    · cases listed
  · cases listed

theorem World.MayAnswer.of_list {h : Host} {w w' : World} {p : Path} {l : Listing p}
    (may : MayAnswer h w (.list p) (.ok l) w') : ∃ dir,
      w.disk.find h.cwd p = .ok (dir, .dir) ∧ l.entries = w.disk.children dir := by
  cases may with
  | met free answered =>
    have listed : w.disk.list h.cwd p = .ok l := congrArg Prod.fst answered
    exact Disk.find_of_list listed
  | failed e fails => cases fails

theorem Host.faulty_fair (h : Host) : h.faulty.Fair where
  toHonest := h.faulty_honest
  may _ _ may := may
  lists may := World.MayAnswer.of_list may
  nexts may := may.of_next

/-- What the system of a host answers is among what may be answered. -/
theorem Host.system_fair (h : Host) : h.system.Fair where
  toHonest := h.system_honest
  may _ free answered := .met free answered
  lists answered := h.faulty_fair.lists (.met rfl answered)
  nexts answered := World.MayAnswer.of_next (h := h) (.met rfl answered)

/-! ## Ends -/

namespace Script

variable {α β : Type} {h : Host}

/-- A script may come to an end so: it does these acts, has this result and leaves this world. -/
inductive MayEnd (h : Host) : Script α → World → List Act → α → World → Prop
  | done {a : α} {w : World} : MayEnd h (.done a) w [] a w
  | ask {r : Request} {next : r.Answer → Script α} {answer : r.Answer} {w w₁ w' : World}
      {T : List Act} {a : α} (may : World.MayAnswer h w r answer w₁)
      (rest : MayEnd h (next answer) w₁ T a w') :
      MayEnd h (.ask r next) w (.asked r answer :: T) a w'

namespace MayEnd

variable {s : Script α} {f : α → Script β} {w w' : World} {T : List Act} {b : β}

/-- A script of two parts: the second begins where the first one ends. -/
theorem of_bind (ends : (s.bind f).MayEnd h w T b w') :
    ∃ a w₁ T₁ T₂, T = T₁ ++ T₂ ∧ s.MayEnd h w T₁ a w₁ ∧ (f a).MayEnd h w₁ T₂ b w' := by
  induction s generalizing w T with
  | done a => exact ⟨a, w, [], T, rfl, .done, ends⟩
  | ask r next ih =>
    cases ends with
    | ask may rest =>
      obtain ⟨a, w₁, T₁, T₂, rfl, first, second⟩ := ih _ rest
      exact ⟨a, w₁, _, T₂, rfl, .ask may first, second⟩

theorem bind {a : α} {w₁ : World} {T' : List Act} (first : s.MayEnd h w T a w₁)
    (second : (f a).MayEnd h w₁ T' b w') : (s.bind f).MayEnd h w (T ++ T') b w' := by
  induction first with
  | done => exact second
  | ask may _ ih => exact .ask may (ih second)

end MayEnd

/-- What a script comes to when nothing fails but for what the disk holds, it may come to. -/
theorem exists_mayEnd_of_runScript {s : Script α} {w w' : World} {a : α}
    (ran : World.runScript h s w = (.ok a, w')) : ∃ T, s.MayEnd h w T a w' := by
  induction s generalizing w with
  | done a =>
    cases ran
    exact ⟨[], .done⟩
  | ask r next ih =>
    cases free : World.refusal h r with
    | none =>
      rw [World.runScript_ask_of_free free] at ran
      obtain ⟨T, ends⟩ := ih _ ran
      exact ⟨_, .ask (.met free rfl) ends⟩
    | some report =>
      rw [World.runScript_ask_of_refused free] at ran
      cases ran

end Script

end CallSweep
