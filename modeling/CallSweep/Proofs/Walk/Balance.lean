/-
  The books of a walk balance.

  A walk counts at one place and tells at another, and its tasks take turns.  Whatever their order,
  and whatever the file system answers, at the end the counts are those of the files that were handed
  to the sweep, and the messages those of the counts.

  1. **Directories** (`directory_accounts`) — by induction on the trace, since the traces of the tasks
     are parts of it: the files that were handed over are accounted for, each by its own task.  This
     needs that no task was broken off.

  2. **Roots** (`Walked.closed`) — a walk that comes to its end closes with one message about its
     root, or with the failure of that.

  3. **Counts** (`Fate.length_eq`) — every file has one of four fates, and the counts are those of the
     fates.

  4. **The balance** (`walk_balances`) — the sum over the files, read off count by count.
-/
import CallSweep.Proofs.Run.Faults
import CallSweep.Proofs.Walk.Leads

namespace CallSweep

open Script (Plays)
open Crew (Did)

namespace Walk

section

variable {M : Type} [AddCommMonoid M] {b : Ledger M} {plan : Plan} {p q : Path} {T : List Act}

/-! ## Directories -/

/-- Some files are accounted for: of each it is told what was read and what became of it, and
    nothing is entered but what that comes to, the troubles, and tasks that crashed. -/
structure Accounted (b : Ledger M) (plan : Plan) (ss : List Handed) (T : List Act) : Prop where
  settled : ∀ s ∈ ss, s.Settled plan
  entered : ∃ told, spent b T = (ss.map (Handed.entry b plan)).sum +
      (troubleEntry b (troubles T) + crashEntry b told) ∧ (told ≠ [] → Refusing T)
  cut : ∀ s ∈ ss, s.fate plan = none → Refusing T

theorem crashEntry_append (reports reports' : List String) :
    crashEntry b (reports ++ reports') = crashEntry b reports + crashEntry b reports' := by
  rw [crashEntry, List.map_append, List.sum_append]
  rfl

namespace Accounted

/-- Parts that are accounted for, each for itself. -/
theorem flatMap {ι : Type} {items : List ι} {handed : ι → List Handed} {acts : ι → List Act}
    (each : ∀ e ∈ items, Accounted b plan (handed e) (acts e)) :
    (∃ told, (items.map fun e => spent b (acts e)).sum =
      ((items.flatMap handed).map (Handed.entry b plan)).sum +
        (troubleEntry b (items.flatMap fun e => troubles (acts e)) + crashEntry b told) ∧
      (told ≠ [] → ∃ e ∈ items, Refusing (acts e))) ∧
    ∀ s ∈ items.flatMap handed, s.Settled plan ∧
      (s.fate plan = none → ∃ e ∈ items, Refusing (acts e)) := by
  constructor
  · induction items with
    | nil => exact ⟨[], (zero_add _).symm.trans (congrArg _ (zero_add _).symm), fun ne => absurd rfl ne⟩
    | cons e items ih =>
      obtain ⟨told₁, first, refusing₁⟩ := (each e List.mem_cons_self).entered
      obtain ⟨told₂, rest, refusing₂⟩ := ih fun e' mem => each e' (List.mem_cons_of_mem e mem)
      refine ⟨told₁ ++ told₂, ?_, fun ne => ?_⟩
      · rw [List.map_cons, List.sum_cons, first, rest, List.flatMap_cons, List.flatMap_cons,
          List.map_append, List.sum_append, troubleEntry_append, crashEntry_append,
          add_add_add_comm, add_add_add_comm (troubleEntry b _)]
      · by_cases none_ : told₁ = []
        · obtain ⟨e', mem, refusing⟩ := refusing₂ (by simpa [none_] using ne)
          exact ⟨e', List.mem_cons_of_mem e mem, refusing⟩
        · exact ⟨e, List.mem_cons_self, refusing₁ none_⟩
  · intro s mem
    obtain ⟨e, he, hs⟩ := List.mem_flatMap.1 mem
    exact ⟨(each e he).settled s hs, fun cut => ⟨e, he, (each e he).cut s hs cut⟩⟩

end Accounted

/-- The task of a file accounts for it, whatever comes after it. -/
theorem file_accounts (discreet : b.Discreet) {y : Option (Option Nat)}
    (admitted : plan.extensions.admits p = true) (plays : (processFile plan p).Plays T y)
    (rest : List Act) :
    Accounted b plan [⟨p, T ++ rest⟩] T ∧
      ∀ removed, y = some removed → (Handed.fate plan ⟨p, T ++ rest⟩).failed = removed.isNone := by
  obtain ⟨settled, entered, cut, failed⟩ := processFile_plays discreet admitted plays
    (s := ⟨p, T ++ rest⟩) rfl rfl
  have quiet := (quiet_of_plays (processFile_unlisted _ _) plays).troubles_eq
  refine ⟨⟨fun s mem => ?_, ⟨[], ?_, fun ne => absurd rfl ne⟩, fun s mem => ?_⟩, failed⟩
  · rwa [List.mem_singleton.1 mem]
  · rw [quiet, entered]
    exact (add_zero _).symm.trans (congrArg₂ _ List.sum_singleton.symm (zero_add _).symm)
  · rwa [List.mem_singleton.1 mem]

/-- The task of an entry, given that the walks of directories account for their files. -/
theorem task_accounts (discreet : b.Discreet) {e : Name × FileKind} {job : Job} {c : Crew}
    (made : task plan p e = some job) (did : Did (.start job) T c) (ended : c.Ended)
    (sub : Did (.start (directory plan (p.child e.1))) T c →
      Accounted b plan (handedIn plan (p.child e.1) T) T) :
    Accounted b plan (handedBy plan p e T) T := by
  obtain ⟨name, kind⟩ := e
  cases kind with
  | directory =>
    obtain ⟨-, same⟩ := Option.ite_none_left_eq_some.1 made
    cases same
    exact sub did
  | file =>
    obtain ⟨admitted, same⟩ := Option.ite_none_right_eq_some.1 made
    cases same
    obtain ⟨y, plays⟩ := exists_plays did ended
    have accounted := (file_accounts discreet admitted plays []).1
    rwa [List.append_nil] at accounted
  | other => cases made

/-- **Directories**: the walk of a directory accounts for the files that it handed over. -/
theorem directory_accounts (discreet : b.Discreet) {crew : Crew}
    (did : Did (.start (directory plan p)) T crew) (finished : crew.Finished) :
    Accounted b plan (handedIn plan p T) T := by
  induction size : T.length using Nat.strongRecOn generalizing p T crew with
  | ind n ih =>
  subst size
  obtain ⟨lead, tasks⟩ := crew
  cases finished with
  | mk ended each =>
  rcases directory_leads did ended with ⟨e, T', x, rfl, -, -, plays⟩ | ⟨l, T', rfl, did, reading⟩
  · rw [handedIn_unlisted]
    have told := spent_fail discreet plays
    have no_troubles := (quiet_of_books (fail_books _) plays).troubles_eq
    have trouble : troubles (.asked (.list p) (.error e) :: T') = [.list p e] :=
      congrArg (Failure.list p e :: ·) no_troubles
    refine ⟨List.forall_mem_nil _, ⟨[], ?_, fun ne => absurd rfl ne⟩, List.forall_mem_nil _⟩
    rw [spent_cons, told, trouble]
    show 0 + failureEntry b (.list p e) = 0 + ((failureEntry b (.list p e) + 0) + 0)
    rw [add_zero, add_zero]
  · have led := reading.led discreet ended
    have length := length_tasks_eq did led
    obtain ⟨own_told, own_entered, crashed⟩ := led.entered
    have each : ∀ x ∈ (callers plan p T').zipIdx,
        Accounted b plan (handedBy plan p x.1 (within x.2 T')) (within x.2 T') := by
      rintro ⟨e, i⟩ mem
      obtain ⟨job, c, made, at_c, did'⟩ :=
        exists_task did led (List.mem_zipIdx_iff_getElem?.1 mem)
      have finished := each c (List.mem_of_getElem? at_c)
      refine task_accounts discreet made did' finished.ended fun did'' => ?_
      have shorter : (within i T').length < (.asked (.list p) (.ok l) :: T' : List Act).length :=
        Nat.lt_succ_of_le (length_within_le i T')
      exact ih _ shorter did'' finished rfl
    obtain ⟨⟨told, parts, refusing⟩, settled⟩ := Accounted.flatMap each
    have refusing' : (∃ e ∈ (callers plan p T').zipIdx, Refusing (within e.2 T')) →
        Refusing (.asked (.list p) (.ok l) :: T') := by
      rintro ⟨e, -, refusing⟩
      exact refusing.of_within.mono (List.subset_cons_self _ _)
    have marked (i : Nat) (act : Act) (mem : .inside i act ∈ T') :
        i < (callers plan p T').length := length ▸ did.lt_of_mem mem
    -- the files are those of the tasks, one after the other
    rw [handedIn_listed]
    refine ⟨fun s mem => (settled s mem).1, ⟨own_told ++ told, ?_, fun ne => ?_⟩,
      fun s mem cut => refusing' ((settled s mem).2 cut)⟩
    · have all := perm_own_append_within (f := Act.trouble?) (fun _ _ => rfl) marked
      have troubles_eq : troubleEntry b (troubles T') = troubleEntry b (troubles (own T')) +
          troubleEntry b ((callers plan p T').zipIdx.flatMap fun x => troubles (within x.2 T')) := by
        rw [← troubleEntry_append, List.flatMap_def, map_zipIdx _ fun i => troubles (within i T'),
          ← List.flatMap_def]
        exact (all.map _).sum_eq
      rw [map_zipIdx _ fun i => spent b (within i T')] at parts
      rw [spent_cons, spent_eq_own_add_within b marked, own_entered, parts,
        show troubles (_ :: T') = troubles T' from rfl, troubles_eq, crashEntry_append]
      show 0 + _ = _
      abel
    · by_cases none_ : own_told = []
      · exact refusing' (refusing (by simpa [none_] using ne))
      · obtain ⟨reports, some_, joined⟩ := crashed none_
        exact (refusing_of_joined did led some_ joined).mono (List.subset_cons_self _ _)

/-! ## Roots -/

/-- Whether a file or path that a walk was asked for failed itself: it could not be looked at, or it
    is an eligible file of which the sweep failed. -/
def rootFailed (plan : Plan) (ss : List Handed) : List Act → Bool
  | .asked (.stat _) (.error _) :: _ => true
  | .asked (.stat _) (.ok stat) :: _ => stat.kind = .file && ss.any fun s => (s.fate plan).failed
  | _ => false

/-- What is entered for the message that closes a walk, if there is one. -/
def closingEntry (b : Ledger M) : Option String → M
  | some text => b.note (.message (.info text))
  | none => 0

/-- A walk accounts for its files, and closes with a message about its root unless that failed. -/
structure Closed (b : Ledger M) (plan : Plan) (q : Path) (ss : List Handed) (T : List Act) :
    Prop where
  settled : ∀ s ∈ ss, s.Settled plan
  entered : ∃ told closing, spent b T = (ss.map (Handed.entry b plan)).sum +
      (troubleEntry b (troublesFrom q T) + crashEntry b told) + closingEntry b closing ∧
    (told ≠ [] → Refusing T) ∧ closing.isNone = rootFailed plan ss T ∧
    ∀ text ∈ closing, tellsDiff text = false
  cut : ∀ s ∈ ss, s.fate plan = none → Refusing T

theorem Accounted.nil : Accounted b plan [] [] where
  settled := List.forall_mem_nil _
  entered := ⟨[], (zero_add _).symm.trans (congrArg _ (zero_add _).symm), fun ne => absurd rfl ne⟩
  cut := List.forall_mem_nil _

/-- What is accounted for, and the closing message behind it. -/
theorem Accounted.closed {ss : List Handed} {stat : Stat} {T₁ T₂ : List Act}
    {closing : Option String} (accounted : Accounted b plan ss T₁) (quiet : troubles T₂ = [])
    (last : spent b T₂ = closingEntry b closing)
    (root : closing.isNone = rootFailed plan ss (.asked (.stat q) (.ok stat) :: (T₁ ++ T₂)))
    (other : ∀ text ∈ closing, tellsDiff text = false) :
    Closed b plan q ss (.asked (.stat q) (.ok stat) :: (T₁ ++ T₂)) := by
  have refusing : Refusing T₁ → Refusing (.asked (.stat q) (.ok stat) :: (T₁ ++ T₂)) :=
    Refusing.mono fun act mem => List.mem_cons_of_mem _ (List.mem_append_left _ mem)
  obtain ⟨told, entered, crashed⟩ := accounted.entered
  refine ⟨accounted.settled, ⟨told, closing, ?_, refusing ∘ crashed, root, other⟩,
    fun s mem cut => refusing (accounted.cut s mem cut)⟩
  rw [spent_cons, spent_append, entered, last]
  show 0 + _ = _ + (troubleEntry b (troubles (T₁ ++ T₂)) + _) + _
  rw [troubles_append, quiet, List.append_nil, zero_add]

theorem spent_tell {text : String} (plays : (tell (.info text)).Plays T (some ())) :
    troubles T = [] ∧ spent b T = closingEntry b (some text) :=
  ⟨(quiet_of_books (tell_books _) plays).troubles_eq,
    plays.spent_eq (Script.Costs.request (.note (.message (.info text))))⟩

theorem tellsDiff_verb (plan : Plan) (rest : String) : tellsDiff (verb plan ++ rest) = false := by
  unfold tellsDiff verb
  split
  · exact begins_append_of_apart (by decide) _
  · exact begins_append_of_apart (by decide) _

/-- A walk of which the root is a file. -/
theorem file_closed (discreet : b.Discreet) {stat : Stat} (isFile : stat.kind = .file)
    (plays : (file plan q).Plays T (some ())) :
    Closed b plan q (if plan.extensions.admits q then [⟨q, T⟩] else [])
      (.asked (.stat q) (.ok stat) :: T) := by
  obtain ⟨kind, size, mode⟩ := stat
  cases isFile
  cases admitted : plan.extensions.admits q with
  | false =>
    rw [file, if_neg (by simp [admitted])] at plays
    obtain ⟨quiet, last⟩ := spent_tell (b := b) plays
    have none_ : Accounted b plan [] [] := .nil
    refine none_.closed quiet last rfl ?_
    rintro text ⟨⟩
    exact begins_append_of_apart (by decide) _
  | true =>
    rw [file, if_pos admitted] at plays
    rw [if_pos rfl]
    rcases Plays.of_bind (s := processFile plan q) plays with ⟨y, T₁, T₂, rfl, first, last⟩ | ⟨-, cut⟩
    · obtain ⟨accounted, failed⟩ := file_accounts discreet admitted first T₂
      have root : rootFailed plan [⟨q, T₁ ++ T₂⟩]
          (.asked (.stat q) (.ok ⟨.file, size, mode⟩) :: (T₁ ++ T₂)) = y.isNone := by
        simp [rootFailed, failed y rfl]
      cases y with
      | some removed =>
        obtain ⟨quiet, last⟩ := spent_tell (b := b) last
        refine accounted.closed quiet last root.symm ?_
        rintro text ⟨⟩
        simp only [String.append_assoc]
        exact tellsDiff_verb _ _
      | none =>
        cases last
        have none_ : ∀ text ∈ (none : Option String), tellsDiff text = false := nofun
        exact accounted.closed rfl rfl root.symm none_
    · cases cut

/-- A walk of which the root is a directory. -/
theorem directory_closed (discreet : b.Discreet) {stat : Stat} (isDir : stat.kind = .directory)
    {T₁ T₂ : List Act} {crew : Crew} (did : Did (.start (directory plan q)) T₁ crew)
    (finished : crew.Finished) (plays : (tellSummary plan q).Plays T₂ (some ())) :
    Closed b plan q (handedIn plan q (T₁ ++ T₂)) (.asked (.stat q) (.ok stat) :: (T₁ ++ T₂)) := by
  have quiet := quiet_of_books (tellSummary_books plan q) plays
  have accounted := directory_accounts discreet did finished
  rw [handedIn_of_did did finished.ended quiet plays.within_eq_nil]
  obtain ⟨t, told⟩ : ∃ t, spent b T₂ = closingEntry b (some (summary plan q t)) := by
    cases plays with
    | @ask _ _ t _ _ plays =>
      cases plays with
      | ask plays =>
        cases plays
        refine ⟨t, ?_⟩
        rw [spent_cons, spent_cons, spent_nil, add_zero]
        exact zero_add _
  refine accounted.closed quiet.troubles_eq told ?_ ?_
  · obtain ⟨kind, size, mode⟩ := stat
    cases isDir
    rfl
  · rintro text ⟨⟩
    exact tellsDiff_summary plan q t

/-- A path that does not lead to a directory is accounted for. -/
theorem aside_closed (discreet : b.Discreet) {answer : Except OsError Stat}
    (other : ∀ stat, answer = .ok stat → stat.kind ≠ .directory)
    (plays : (aside plan q answer).Plays T (some ())) :
    Closed b plan q (handedFrom plan q (.asked (.stat q) answer :: T))
      (.asked (.stat q) answer :: T) := by
  rcases answer with e | ⟨kind, size, mode⟩
  · refine ⟨List.forall_mem_nil _, ⟨[], none, ?_, fun ne => absurd rfl ne, rfl, nofun⟩,
      List.forall_mem_nil _⟩
    rw [spent_cons, spent_fail discreet plays]
    show 0 + _ = 0 + (_ + 0 + 0) + 0
    simp only [zero_add, add_zero]
  · cases kind with
    | directory => exact absurd rfl (other _ rfl)
    | file => exact file_closed discreet rfl plays
    | other =>
      obtain ⟨quiet, last⟩ := spent_tell (b := b) plays
      have none_ : Accounted b plan [] [] := .nil
      refine none_.closed quiet last rfl ?_
      rintro text ⟨⟩
      exact begins_append_of_apart (by decide) _

/-- **Roots**: a walk that comes to its end accounts for its files and for its root, unless something
    was broken off. -/
theorem Walked.closed (walked : Walked plan q T crew) (discreet : b.Discreet) (done : crew.lead = .done)
    (finished : crew.Finished) : Closed b plan q (handedFrom plan q T) T := by
  cases walked with
  | aside other did =>
    obtain ⟨-, -, x, plays, whole⟩ := job_did did (List.forall_mem_nil _) finished.ended
    exact aside_closed discreet other (whole done ▸ plays)
  | broken _ _ crashed => cases done.symm.trans crashed
  | @summed stat _ _ _ isDir did _ x plays whole =>
    obtain ⟨lead, tasks⟩ := crew
    obtain ⟨kind, size, mode⟩ := stat
    cases isDir
    cases finished with
    | mk _ each => exact directory_closed discreet rfl did (.mk trivial each) (whole done ▸ plays)

end

/-! ## Counts -/

/-- How many diffs are shown for a file from which calls would go. -/
def shown (plan : Plan) : Nat := if plan.dryRun then 1 else 0

theorem shown_mul (plan : Plan) (n : Nat) : shown plan * n = if plan.dryRun then n else 0 := by
  unfold shown
  split
  · exact Nat.one_mul n
  · exact Nat.zero_mul n

/-- The counts and messages of a file. -/
def fateSums (plan : Plan) (x : Fate) : Sums :=
  (⟨1, x.changed.toNat, x.removed, x.failed.toNat⟩, x.failed.toNat,
    shown plan * (x.changed.toNat + x.isNone.toNat))

/-- The count and the message of a failure, be it of a file or not. -/
def failSums : Sums := (⟨0, 0, 0, 1⟩, 1, 0)

theorem sum_failSums {α : Type} (xs : List α) :
    (xs.map fun _ => failSums).sum = (⟨0, 0, 0, xs.length⟩, xs.length, 0) := by
  induction xs with
  | nil => rfl
  | cons x xs ih =>
    rw [List.map_cons, List.sum_cons, ih, failSums, Prod.mk_add_mk, Prod.mk_add_mk, Tally.mk_add_mk,
      List.length_cons, Nat.add_comm 1]

theorem sum_entry_sums {plan : Plan} {ss : List Handed} (settled : ∀ s ∈ ss, s.Settled plan) :
    (ss.map (Handed.entry sums plan)).sum = (ss.map fun s => fateSums plan (s.fate plan)).sum := by
  refine congrArg List.sum (List.map_congr_left fun s mem => ?_)
  obtain ⟨-, result, reading, fits⟩ := settled s mem
  rw [Handed.entry, reading]
  dsimp only
  generalize s.fate plan = x at fits
  cases fits with
  | unread e => rfl
  | unchanged same =>
    rw [fateEntry, changeEntry, if_pos same]
    rfl
  | unwritten differs live e =>
    rw [fateEntry, changeEntry, if_neg (by simp [differs]), diffEntry_of_live live, fateSums, shown,
      if_neg (by simp [live])]
    rfl
  | @changed text differs =>
    have pos := count_pos differs
    have told : diffEntry sums plan s.path text = (0, 0, shown plan) := by
      unfold diffEntry shown
      split
      · rfl
      · rfl
    rw [fateEntry, changeEntry, if_neg (by simp [differs]), told, doneEntry, if_neg pos.ne', fateSums,
      Fate.changed_ok, decide_eq_true pos]
    simp [sums, toldEntry, Note.errors, Note.infos, Tally.zero_def]
  | cut differs dry =>
    rw [fateEntry, changeEntry, if_neg (by simp [differs]), diffEntry, if_pos dry, fateSums, shown,
      if_pos dry]
    rfl


namespace Fate

variable (xs : List Fate)

/-- How many calls went from each of the files from which some did. -/
def strips : List Nat := (xs.filter changed).map removed

theorem one_le_of_mem_strips {n : Nat} (mem : n ∈ strips xs) : 1 ≤ n := by
  obtain ⟨x, hx, rfl⟩ := List.mem_map.1 mem
  exact of_decide_eq_true (List.mem_filter.1 hx).2

theorem length_strips_le : (strips xs).length ≤ (strips xs).sum :=
  List.length_le_sum_of_one_le _ fun _ => one_le_of_mem_strips xs

theorem length_strips_eq_zero_iff : (strips xs).length = 0 ↔ (strips xs).sum = 0 := by
  have le := length_strips_le xs
  constructor
  · intro none_
    rw [List.length_eq_zero_iff.1 none_, List.sum_nil]
  · omega

/-- Every file has one of the fates. -/
theorem length_eq : xs.length =
    (strips xs).length + xs.countP unchanged + xs.countP failed + xs.countP Option.isNone := by
  induction xs with
  | nil => rfl
  | cons x xs ih =>
    simp only [strips, List.length_map, List.filter_cons, List.countP_cons, List.length_cons] at ih ⊢
    rcases x with - | - | - | n <;> simp <;> omega

theorem sum_fateSums (plan : Plan) : (xs.map (fateSums plan)).sum =
    (⟨xs.length, (strips xs).length, (strips xs).sum, xs.countP failed⟩, xs.countP failed,
      shown plan * ((strips xs).length + xs.countP Option.isNone)) := by
  induction xs with
  | nil => rfl
  | cons x xs ih =>
    rw [List.map_cons, List.sum_cons, ih, fateSums, Prod.mk_add_mk, Prod.mk_add_mk, Tally.mk_add_mk]
    simp only [strips, List.filter_cons, List.countP_cons, List.length_cons]
    rcases x with - | - | - | n <;> simp [Nat.mul_add] <;> omega

end Fate

/-! ## The balance -/

/-- The tally grows by the counts. -/
theorem tally_eq_of_met {S : System} (honest : S.Honest) {w w' : World} {act : Act}
    (met : act.Met S w w') : w'.tally = w.tally + (act.cost sums).1 := by
  induction act with
  | asked r answer =>
    rcases r.isLook_or with look | change | book
    · rw [honest.look look met.2]
      cases r with
      | stat _ | list _ | next _ _ | read _ | resolve _ => exact (add_zero _).symm
      | _ => cases look
    · obtain ⟨disk, rfl⟩ := honest.change change met.2
      cases r with
      | write _ _ | chmod _ _ | rename _ _ | remove _ => exact (add_zero _).symm
      | _ => cases change
    · have after : (w.answer S.host r).2 = w' := congrArg Prod.snd (honest.book book met.2)
      rw [← after]
      cases r with
      | count t => rfl
      | note n => cases n <;> exact (add_zero _).symm
      | tally | complaints | print _ _ | exit _ => exact (add_zero _).symm
      | _ => cases book
  | refused m report =>
    rw [met.2]
    exact (add_zero _).symm
  | spawned _ | joined _ =>
    rw [show w' = w from met]
    exact (add_zero _).symm
  | inside i act ih => exact ih met

theorem tally_eq_of_mets {S : System} (honest : S.Honest) {w w' : World} {T : List Act}
    (mets : World.Mets S w T w') : w'.tally = w.tally + (spent sums T).1 := by
  induction mets with
  | nil => exact (add_zero _).symm
  | cons met _ ih => rw [ih, tally_eq_of_met honest met, add_assoc, spent_cons, Prod.fst_add]

theorem cost_sums (act : Act) : (act.cost sums).2 =
    ((Note.errors act.told?.toList).length, (Note.infos act.told?.toList).length) := by
  induction act with
  | asked r answer => cases r <;> rfl
  | inside i act ih => exact ih
  | _ => rfl

theorem spent_sums (T : List Act) :
    (spent sums T).2 = ((Note.errors (told T)).length, (Note.infos (told T)).length) := by
  induction T with
  | nil => rfl
  | cons act T ih =>
    rw [spent_cons, Prod.snd_add, cost_sums, ih, told_cons]
    simp only [Note.errors, Note.infos, List.filterMap_append, List.length_append, Prod.mk_add_mk]

def fates (plan : Plan) (ss : List Handed) : List Fate := ss.map (Handed.fate plan)

/-- The books of a walk balance: `ss` are the files that were handed over, `sent` is what was told,
    and `t` are the counts in the end. -/
structure Balanced (plan : Plan) (ss : List Handed) (sent : List Note) (rootFailed : Bool)
    (t : Tally) : Prop where
  settled : ∀ s ∈ ss, s.Settled plan
  failures : t.failures = (Note.errors sent).length
  handed : t.scanned = ss.length
  /-- A diff that is refused brings its task down before the change is counted. -/
  scanned : t.scanned = t.changed + (fates plan ss).countP Fate.unchanged +
    (fates plan ss).countP Fate.failed + (fates plan ss).countP Option.isNone
  changed : t.changed = (Fate.strips (fates plan ss)).length
  removals : t.removals = (Fate.strips (fates plan ss)).sum
  changed_le : t.changed ≤ t.removals
  changed_eq_zero : t.changed = 0 ↔ t.removals = 0
  infos : (Note.infos sent).length =
    (if plan.dryRun then t.changed + (fates plan ss).countP Option.isNone else 0) +
      if rootFailed then 0 else 1

theorem Closed.exists_spent {plan : Plan} {q : Path} {ss : List Handed} {T : List Act}
    (closed : Closed sums plan q ss T) : ∃ k : Nat, spent sums T =
      (⟨(fates plan ss).length, (Fate.strips (fates plan ss)).length,
        (Fate.strips (fates plan ss)).sum, (fates plan ss).countP Fate.failed + k⟩,
      (fates plan ss).countP Fate.failed + k,
      shown plan * ((Fate.strips (fates plan ss)).length + (fates plan ss).countP Option.isNone) +
        if rootFailed plan ss T then 0 else 1) := by
  obtain ⟨told, closing, entered, -, root, -⟩ := closed.entered
  have each : (ss.map fun s => fateSums plan (s.fate plan)) =
      (fates plan ss).map (fateSums plan) := by
    rw [fates, List.map_map]
    rfl
  have last : closingEntry sums closing = (0, 0, if rootFailed plan ss T then 0 else 1) := by
    rw [← root]
    cases closing <;> rfl
  have failures : troubleEntry sums (troublesFrom q T) + crashEntry sums told =
      (⟨0, 0, 0, (troublesFrom q T).length + told.length⟩,
        (troublesFrom q T).length + told.length, 0) :=
    congrArg₂ (· + ·) (sum_failSums (troublesFrom q T)) (sum_failSums told)
  refine ⟨(troublesFrom q T).length + told.length, ?_⟩
  rw [entered, sum_entry_sums closed.settled, each, Fate.sum_fateSums, failures, last]
  rfl

theorem Closed.balanced {plan : Plan} {q : Path} {ss : List Handed} {T : List Act} {t : Tally}
    (closed : Closed sums plan q ss T) (counted : t = (spent sums T).1) :
    Balanced plan ss (told T) (rootFailed plan ss T) t := by
  obtain ⟨k, all⟩ := closed.exists_spent
  -- the messages are those that were entered
  have sent := spent_sums T
  rw [all] at sent counted
  obtain ⟨errors, infos⟩ := Prod.mk.inj sent
  have length_fates : (fates plan ss).length = ss.length := List.length_map _
  subst counted
  exact {
    settled := closed.settled
    failures := errors
    handed := length_fates
    scanned := Fate.length_eq _
    changed := rfl
    removals := rfl
    changed_le := Fate.length_strips_le _
    changed_eq_zero := Fate.length_strips_eq_zero_iff _
    infos := by rw [← infos, shown_mul] }

theorem last_of_tellSummary {S : System} (honest : S.Honest) {w w' : World} {plan : Plan}
    {q : Path} {T : List Act} (plays : (tellSummary plan q).Plays T (some ()))
    (mets : World.Mets S w T w') :
    w'.notes.getLast? = some (.message (.info (summary plan q w'.tally))) := by
  cases plays with
  | ask plays =>
    cases plays with
    | ask plays =>
      cases plays
      cases mets with
      | cons asked mets =>
        cases mets with
        | cons told mets =>
          cases mets
          cases honest.book rfl asked.2
          cases honest.book rfl told.2
          exact List.getLast?_concat

end Walk

open Walk (Balanced handedFrom rootFailed summary)

/-- **The balance of a walk.**  Whatever the order of turns, and whatever the file system answers, a
    walk comes to an end.  Unless a message of its own brings it down, its books balance when nothing
    was broken off: the counts are those of the files that were handed to the sweep, and the messages
    are those of the counts.  After a directory the summary is the last thing told.

    Something is broken off only if the walk of a directory is refused a message: about its listing, or
    about a task that crashed. -/
theorem walk_balances (plan : Plan) {S : System} (honest : S.Honest) (d : Disk) (p : Path) :
    (walk plan S.host.cwd.path p).Ends S (fun T crew w =>
      let q := Path.absolute S.host.cwd.path p
      let ss := handedFrom plan q T
      (∃ m report, .refused m report ∈ T ∧ crew.report? = some report) ∨
      crew.report? = none ∧
        (crew.Finished → Balanced plan ss (told T) (rootFailed plan ss T) w.tally) ∧
        (∀ stat T', T = .asked (.stat q) (.ok stat) :: T' → stat.kind = .directory →
          w.notes.getLast? = some (.message (.info (summary plan q w.tally)))) ∧
        ((∀ f : Failure, f.isOfDirectory = true → S.host.refuses (.error f.message) = none) →
          crew.Finished) ∧
        ((∀ m, S.host.refuses m = none) →
          w.notes = told T ∧ (Walk.fates plan ss).countP Option.isNone = 0)) (.start d) := by
  refine Job.ends_of_traces fun T crew w did ended mets => ?_
  have walked := Walk.walked_of_did did ended
  have refuses {act : Act} {m : Message} (mem : act ∈ T) (refused : act.refused? = some m) :
      S.host.refuses m ≠ none := mets.refuses mem refused
  rcases walked.down ended with done | ⟨m, report, mem, crashed⟩
  · refine .inr ⟨congrArg Job.report? done, fun finished => ?_, ?_, fun taken => ?_, fun taken => ?_⟩
    · refine (walked.closed Walk.discreet_sums done finished).balanced ?_
      rw [Walk.tally_eq_of_mets honest mets]
      exact zero_add _
    · rintro stat T' rfl isDir
      obtain ⟨T₁, T₂, rfl, plays⟩ := walked.exists_summary done isDir
      cases mets with
      | cons _ mets =>
        obtain ⟨w₁, -, last⟩ := mets.of_append
        exact Walk.last_of_tellSummary honest plays last
    · refine walked.finished ended fun snapped => ?_
      obtain ⟨f, own, act, mem, refused⟩ := snapped.directoryRefused
      exact refuses mem refused (taken f own)
    · refine ⟨mets.notes_eq honest taken, ?_⟩
      have finished := walked.finished ended fun ⟨_, _, act, mem, refused⟩ =>
        refuses mem refused (taken _)
      refine List.countP_eq_zero.2 fun x mem cut => ?_
      obtain ⟨s, hs, rfl⟩ := List.mem_map.1 mem
      obtain ⟨act, mem, m, refused⟩ := (walked.closed Walk.discreet_sums done finished).cut s hs
        (Option.isNone_iff_eq_none.1 cut)
      exact refuses mem refused (taken m)
  · exact .inl ⟨m, report, mem, congrArg Job.report? crashed⟩

namespace OneFile

def dry : Plan := { plan with dryRun := true }

def diff : Message :=
  .info (Diff.unified (Place.path [src, aJs]).display source (dry.pattern.sweep source).modified)

/-- What the task of `/src/a.js` does in a dry run. -/
def fileActs : List Act :=
  .asked (.count ⟨1, 0, 0, 0⟩) () :: (looks ++ [.asked (.note (.message diff)) (),
    .asked (.count ⟨0, 1, 1, 0⟩) (),
    .asked (.note (.event (Walk.rewriteEvent dry (Place.path [src, aJs]) 1))) ()])

theorem plays_fileActs :
    (Walk.processFile dry (Place.path [src, aJs])).Plays fileActs (some (some 1)) := by
  have differs : ¬ (dry.pattern.sweep source).isUnchanged = true := by decide +kernel
  have one : (dry.pattern.sweep source).count = 1 := by decide +kernel
  have swept : (Walk.sweepFile dry (Place.path [src, aJs])).Plays fileActs (some (.ok 1)) := by
    refine .ask ?_
    change Plays ((readSource (Place.path [src, aJs]) dry.maxFileSize).bind _) _ _
    refine Plays.bind plays_looks ?_
    change Plays (if (dry.pattern.sweep source).isUnchanged then _ else _) _ _
    rw [if_neg differs, one]
    exact .ask (.ask (.ask .done))
  have whole : (Walk.processFile dry (Place.path [src, aJs])).Plays (fileActs ++ [])
      (some (some 1)) := Plays.bind swept .done
  exact whole

def broken : Failure := .list (Place.path [src]) .busy

/-- What a dry run over `/src` does when the listing breaks off behind `a.js`. -/
def trace : List Act :=
  opening dry ++ ([.asked (.next (Place.path [src]) behind.1) (.error .busy),
    .asked (.count ⟨0, 0, 0, 1⟩) (),
    .asked (.note (.event ⟨.walk, .debug, "traversal failure", [("event", "strip.failure")],
      ["error"]⟩)) (),
    .asked (.note (.message (.error broken.message))) ()] ++
  (fileActs.map (.inside 0) ++ [.joined [], .asked (.note (.event ⟨.walk, .debug,
      "directory done", [("event", "strip.dir.completed"),
        ("path", (Place.path [src]).display)], []⟩)) (),
    .asked .tally ⟨1, 1, 1, 1⟩,
    .asked (.note (.message (.info (summary dry (Place.path [src]) ⟨1, 1, 1, 1⟩)))) ()]))

def crew : Crew := ⟨.done, [⟨.done, []⟩]⟩

theorem did_trace : Did (.start (walk dry (Place.path []) (Path.ofString "src"))) trace crew := by
  refine (did_opening (by decide +kernel)).trans ?_
  rw [rest, Walk.entries]
  refine .head (.ask _) (.head (.ask _) (.head (.ask _) (.head (.ask _) ?_)))
  have task : Did (.start (task dry)) fileActs ⟨.done, []⟩ := Did.andThen plays_fileActs .refl
  have ended : ∀ c ∈ [(⟨.done, []⟩ : Crew)], c.Ended := by simp [Crew.Ended, Crew.lead, Job.Ended]
  exact (Did.inside id rfl task).trans (.head (.join ended (.refl _))
    (.head (.ask _) (.head (.ask _) (.head (.ask _) .refl))))

/-- The world after that. -/
def after : World := ⟨disk, ⟨1, 1, 1, 1⟩, told trace, [], 0⟩

theorem mets_trace : World.Mets (Host.quiet []).faulty (.start disk) trace after := by
  have asked {r : Request} {a : r.Answer} {w w' : World} (free : World.refusal (.quiet []) r = none)
      (answered : w.answer (.quiet []) r = (a, w')) :
      (Act.asked r a).Met (Host.quiet []).faulty w w' := ⟨free, .met free answered⟩
  refine (mets_opening rfl dry World.MayAnswer.met _ rfl).append ?_
  refine .cons ⟨rfl, .failed .busy rfl⟩ (.cons (asked rfl rfl) (.cons (asked rfl rfl) ?_))
  refine .cons (asked rfl rfl) (.cons (asked rfl rfl) ?_)
  refine .cons (asked rfl (congrArg (·, _) stat_aJs)) ?_
  refine .cons (asked rfl (congrArg (·, _) read_aJs)) (.cons (asked rfl rfl) ?_)
  refine .cons (asked rfl rfl) (.cons (asked rfl rfl) (.cons rfl (.cons (asked rfl rfl) ?_)))
  exact .cons (asked rfl rfl) (.cons (asked rfl rfl) .nil)

/-- A dry run over the tree of one file, of which the listing breaks off: one file and one call, the
    failure, and nothing else. -/
theorem walk_balances_broken_listing :
    (Host.quiet []).faulty.Honest ∧
      Did (.start (walk dry (Host.quiet []).cwd.path (Path.ofString "src"))) trace crew ∧
      World.Mets (Host.quiet []).faulty (.start disk) trace after ∧
      after.tally.scanned = (handedFrom dry (Place.path [src]) trace).length ∧
      (Note.errors after.notes).length = 1 ∧ (Note.infos after.notes).length = 2 ∧
      after.notes.getLast? =
        some (.message (.info (summary dry (Place.path [src]) ⟨1, 1, 1, 1⟩))) := by
  have absolute : Path.absolute (Host.quiet []).faulty.host.cwd.path (Path.ofString "src") =
      Place.path [src] := by decide +kernel
  have ends := walk_balances dry (Host.quiet []).faulty_honest disk (Path.ofString "src")
  obtain ⟨m, report, -, crashed⟩ | ⟨-, balanced, last, finished, whole⟩ :=
    ends.of_did did_trace trivial mets_trace
  · cases crashed
  · rw [absolute] at balanced last whole
    have books := balanced (finished fun _ _ => rfl)
    obtain ⟨arrived, none_⟩ := whole fun _ => rfl
    rw [arrived]
    refine ⟨(Host.quiet []).faulty_honest, did_trace, mets_trace, books.handed,
      books.failures.symm, ?_, arrived ▸ last _ _ rfl rfl⟩
    have root : rootFailed dry (handedFrom dry (Place.path [src]) trace) trace = false := rfl
    rw [books.infos, none_, root]
    rfl

end OneFile

end CallSweep
