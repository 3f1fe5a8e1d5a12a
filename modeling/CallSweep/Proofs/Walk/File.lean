/-
  The sweep of one file while others are swept, under a system that may fail any request.

  1. **The file by itself** — `Walk.foundText?` is the text of a file in which there are calls; the
     run rewrites such files, unless it is dry (`Walk.Rewrites`).

  2. **The way must be clear** (`Walk.Clear`) — where a file is to be rewritten, nothing or a
     directory stands at its copy's place; and a file that is overwritten in place has no other
     name.  A directory only makes the write fail.  All else that may stand at the copy's place is
     written to, moved or taken away.

  3. **What becomes of it** (`Walk.Swept`) — the file is left alone, or rewritten, or a write has
     failed.  The task of the file owns the file's place, and its copy's if the file is to be
     rewritten (`Walk.part`); whatever its siblings do, it leaves there what its fate says
     (`Walk.sweepFile_owns`).
-/
import CallSweep.Proofs.Source.Amid
import CallSweep.Proofs.Walk.Leads

namespace CallSweep

open Disk (AgreeOn Frame Rooted Names)
open Crew (Did)

namespace Walk

/-! ## A file by itself -/

/-- The text of a file in which there are calls. -/
def foundText? (plan : Plan) (d : Disk) (x : Place) : Option String :=
  match d.view x with
  | some (.file bytes _) =>
    match admitted plan.maxFileSize bytes with
    | .ok text => if (plan.pattern.sweep text).isUnchanged then none else some text
    | .error _ => none
  | _ => none

/-- Whether a file is rewritten, or at least tried to be. -/
def Rewrites (plan : Plan) (d : Disk) (x : Place) : Prop :=
  plan.dryRun = false ∧ (foundText? plan d x).isSome

/-- Whether nothing is in the way of a rewrite that the rewrite would take for its own. -/
def Clear (plan : Plan) (d : Disk) (x : Place) : Prop :=
  Rewrites plan d x →
    (d.entry? (copyPlace x) = none ∨ d.entry? (copyPlace x) = some .dir) ∧
      (plan.atomicWrite = false → d.Alone x)

/-- The places that the task of a file owns. -/
def part (plan : Plan) (d : Disk) (x : Place) : Set Place :=
  {y | y = x ∨ Rewrites plan d x ∧ y = copyPlace x}

section

variable {plan : Plan} {d : Disk} {dir x y : Place} {name : Name} {bytes : ByteArray}
  {permissions : Nat} {text : String}

theorem mem_part (plan : Plan) (d : Disk) (x : Place) : x ∈ part plan d x := .inl rfl

theorem part_of_rewrites (rewrites : Rewrites plan d (dir ++ [name])) :
    part plan d (dir ++ [name]) = twoPlaces dir name := by
  ext y
  rw [part, copyPlace_concat]
  constructor
  · rintro (rfl | ⟨-, rfl⟩)
    · exact .inl rfl
    · exact .inr rfl
  · rintro (rfl | rfl)
    · exact .inl rfl
    · exact .inr ⟨rewrites, rfl⟩

theorem foundText?_eq_some (shown : d.view x = some (.file bytes permissions))
    (read : admitted plan.maxFileSize bytes = .ok text)
    (changed : (plan.pattern.sweep text).isUnchanged = false) :
    foundText? plan d x = some text := by
  rw [foundText?, shown]
  dsimp only
  rw [read]
  exact if_neg (by simp [changed])

end

/-! ## What becomes of it -/

/-- What stands at the place of a file when it has been swept, given what that came to and what was
    done. -/
inductive Swept (plan : Plan) (f : Path) (T : List Act) (old : ByteArray) (permissions : Nat) :
    Except Failure Nat → Node → Prop
  /-- The file is not admitted, or a look at it has failed. -/
  | unread {e : SourceError} (why : admitted plan.maxFileSize old = .error e ∨ Denied f T) :
      Swept plan f T old permissions (.error (.read f e)) (.file old permissions)
  | unchanged {text : String} (read : admitted plan.maxFileSize old = .ok text)
      (same : (plan.pattern.sweep text).isUnchanged = true) :
      Swept plan f T old permissions (.ok 0) (.file old permissions)
  | rewritten {text : String} {mode : Nat} (read : admitted plan.maxFileSize old = .ok text)
      (differs : (plan.pattern.sweep text).isUnchanged = false)
      (kept : KeptMode plan.atomicWrite permissions mode) :
      Swept plan f T old permissions (.ok (plan.pattern.sweep text).count)
        (.file (plan.pattern.sweep text).modified.toUTF8 mode)
  /-- A write has failed, and may have been cut short if it was one in place. -/
  | unwritten {text : String} {e : SourceError} {node : Node}
      (read : admitted plan.maxFileSize old = .ok text)
      (differs : (plan.pattern.sweep text).isUnchanged = false)
      (left : Rewritten plan.atomicWrite old permissions
        (plan.pattern.sweep text).modified.toUTF8 (.error e : Except SourceError Unit) node) :
      Swept plan f T old permissions (.error (.write f e)) node

section

variable {plan : Plan} {S : System} {I : Disk → Prop} {region : Set Place} {d₀ d d' : Disk}
  {f : Path} {dir : Place} {name : Name} {old : ByteArray} {permissions : Nat} {T T' : List Act}

theorem Denied.mono (sub : T ⊆ T') : Denied f T → Denied f T'
  | ⟨e, denied⟩ => ⟨e, denied.imp (fun mem => sub mem) fun mem => sub mem⟩

theorem Swept.mono {result : Except Failure Nat} {node : Node} (sub : T ⊆ T')
    (swept : Swept plan f T old permissions result node) :
    Swept plan f T' old permissions result node := by
  cases swept with
  | unread why => exact .unread (why.imp_right (Denied.mono sub))
  | unchanged read same => exact .unchanged read same
  | rewritten read differs kept => exact .rewritten read differs kept
  | unwritten read differs left => exact .unwritten read differs left

/-- What is left of a file, and at its copy's place. -/
def Left (plan : Plan) (S : System) (d₀ : Disk) (f : Path) (dir : Place) (name : Name)
    (old : ByteArray) (permissions : Nat) (T : List Act) (result : Except Failure Nat) (d : Disk) :
    Prop :=
  ∃ node, Swept plan f T old permissions result node ∧ d.view (dir ++ [name]) = some node ∧
    (Rewrites plan d₀ (dir ++ [name]) →
      d.view (dir ++ [name.copy]) = d₀.view (dir ++ [name.copy]) ∨
        CopyStays S (dir ++ [name.copy]) T)

/-- The sweep of a file that its path leads to. -/
theorem sweepFile_owns (fair : S.Fair) (live : plan.dryRun = false)
    (names : d₀.Names S.host.cwd f (dir ++ [name])) (rooted : d₀.Rooted (dir ++ [name]))
    (clear : Clear plan d₀ (dir ++ [name]))
    (shown₀ : d₀.view (dir ++ [name]) = some (.file old permissions)) :
    (sweepFile plan f).Owns S (Frame {x | d₀.Alone x} d₀) (part plan d₀ (dir ++ [name]))
      (Left plan S d₀ f dir name old permissions) [] d₀ := by
  have own := mem_part plan d₀ (dir ++ [name])
  have isDir := (rooted dir name [] rfl).1
  have left {T : List Act} {result : Except Failure Nat} {d : Disk}
      (agree : AgreeOn (part plan d₀ (dir ++ [name])) d₀ d)
      (swept : Swept plan f T old permissions result (.file old permissions)) :
      Left plan S d₀ f dir name old permissions T result d :=
    ⟨_, swept, (agree _ own).trans shown₀, fun rewrites =>
      .inl (agree _ (.inr ⟨rewrites, (copyPlace_concat dir name).symm⟩))⟩
  refine .book fair.toHonest rfl fun _ d₁ f₁ agree₁ => ?_
  refine (readSource_owns fair (fun _ => id) names own ((agree₁ _ own).trans shown₀) _).bind f₁ ?_
  rintro T result d₂ f₂ ⟨agree₂, read⟩
  have agree := agree₁.trans agree₂
  cases result with
  | error e =>
    refine left agree (.unread ?_)
    exact read.imp Eq.symm And.right
  | ok text =>
    have read : admitted plan.maxFileSize old = .ok text := by
      rcases read with read | ⟨⟨e, failed⟩, -⟩
      · exact read.symm
      · cases failed
    show Script.Owns S _ _ _ (if (plan.pattern.sweep text).isUnchanged then _ else
      (replace plan f text (plan.pattern.sweep text).modified).bind _) _ _
    cases differs : (plan.pattern.sweep text).isUnchanged with
    | true =>
      rw [if_pos rfl]
      exact left agree (.unchanged read differs)
    | false =>
      have rewrites : Rewrites plan d₀ (dir ++ [name]) :=
        ⟨live, by rw [foundText?_eq_some shown₀ read differs]; rfl⟩
      obtain ⟨beside, alone⟩ := clear rewrites
      rw [copyPlace_concat, ← Disk.view_eq_none_iff, ← Disk.view_eq_dir_iff] at beside
      rw [if_neg Bool.false_ne_true, replace_of_live live, Script.bind_assoc]
      rw [part_of_rewrites rewrites] at agree ⊢
      have shown : Shows dir name (some (.file old permissions)) (d₀.view (dir ++ [name.copy])) d₂ :=
        ⟨(agree _ (.inl rfl)).trans shown₀, agree _ (.inr rfl)⟩
      refine (writeSource_owns fair rooted isDir names alone (fun vacant => ?_) beside shown f₂
        _).bind f₂ ?_
      · exact Disk.alone_of_vacant (Disk.view_eq_none_iff.1 vacant)
      · rintro T' result d₃ f₃ ⟨node, copy', rewritten, shown', stays⟩
        cases result with
        | error e =>
          exact ⟨node, .unwritten read differs rewritten, shown'.1, fun _ =>
            stays.imp_left fun same => shown'.2.trans same⟩
        | ok u =>
          -- the counts and the event behind the write
          refine .book fair.toHonest rfl fun _ d₄ _ agree₄ => ?_
          refine .book fair.toHonest rfl fun _ d₅ _ agree₅ => ?_
          have shown'' := (shown'.of_agree agree₄).of_agree agree₅
          cases rewritten with
          | whole kept =>
            refine ⟨_, .rewritten read differs kept, shown''.1, fun _ => ?_⟩
            refine stays.imp (fun same => shown''.2.trans same) fun stays => ?_
            exact (stays.mono (List.subset_append_left _ _)).mono (List.subset_append_left _ _)

/-- The sweep of a file whose path leads nowhere. -/
theorem sweepFile_owns_lost (fair : S.Fair)
    (lost : ∀ d', I d' → ∀ y e, d'.find S.host.cwd f ≠ .ok (y, e)) :
    (sweepFile plan f).Owns S I region (fun T result d' => AgreeOn region d d' ∧
      (∃ e, result = .error (.read f e)) ∧ Denied f T) T d := by
  refine .book fair.toHonest rfl fun _ d₁ i₁ agree₁ => ?_
  refine (readSource_owns_lost fair lost _).bind i₁ ?_
  rintro T result d₂ i₂ ⟨agree₂, ⟨e, rfl⟩, denied⟩
  exact ⟨agree₁.trans agree₂, ⟨e, rfl⟩, denied⟩

/-- The task of a file keeps to what its sweep keeps to. -/
theorem processFile_owns {Q : List Act → Except Failure Nat → Disk → Prop} (fair : S.Fair)
    (owns : (sweepFile plan f).Owns S I region Q T d) (i : I d) :
    (processFile plan f).Owns S I region (fun _ _ _ => True) T d := by
  refine owns.bind i fun T result d' i' _ => ?_
  cases result with
  | ok n => trivial
  | error failure =>
    refine .of_still fair.toHonest ?_
    exact ((fail_books failure).mono fun _ => Request.isChange_of_book).bind fun _ => trivial

/-- The fate of a file that was swept and its acts among others, when its task has ended and the run
    is not dry. -/
theorem exists_result {Q : List Act → Except Failure Nat → Disk → Prop} (fair : S.Fair)
    (live : plan.dryRun = false) {s : Handed} {y : Option (Option Nat)} {rest : List Act}
    (plays : (processFile plan s.path).Plays T y) (acts : s.acts = T ++ rest)
    (still : ∀ act ∈ rest, act.Asks fun r => r.isChange = false)
    (owns : (sweepFile plan s.path).Owns S I region Q [] d)
    (among : Among S I region d s.acts d') :
    ∃ result T₁ d'', s.fate plan = some result ∧ T₁ ⊆ s.acts ∧ Q T₁ result d'' ∧
      AgreeOn region d'' d' := by
  obtain ⟨T₁, T₂, x, rfl, swept, books, -, -⟩ := processFile_split discreet_sums plays
  obtain ⟨read, -, -, -, -, fits, -⟩ := sweepFile_plays discreet_sums swept
  rw [acts, List.append_assoc] at among
  -- only the diff of a dry run can be refused
  obtain ⟨result, rfl⟩ : ∃ result, x = some result := by
    cases fits with
    | cut _ dry => cases live.symm.trans dry
    | _ => exact ⟨_, rfl⟩
  obtain ⟨d'', holds, later⟩ := owns.result swept rfl among
  refine ⟨result, T₁, d'', ?_, ?_, holds, later.agree fair.toHonest ?_⟩
  · rw [Handed.fate, acts, List.append_assoc]
    exact swept.replay?_append _
  · rw [acts, List.append_assoc]
    exact List.subset_append_left _ _
  · exact List.forall_mem_append.2
      ⟨fun act mem => (books act mem).mono fun _ => Request.isChange_of_book, still⟩

end

end Walk

end CallSweep
