/-
  Jobs side by side that keep out of each other's way.

  A job is given a region, a set of places that it alone changes.  What it finds there is what it
  left there, whatever the others do meanwhile; of the rest of the disk it may take for granted an
  invariant `I` that all keep.

  1. **Among others** (`Among`) — some acts are done, and before each of them others may have
     changed the disk, but neither on the region nor against `I`.

  2. **Keeping to a region** (`Job.KeepsTo`) — whatever a job does among others, it changes nothing
     outside its region, and keeps `I`.  A run of such a job by itself is one among others
     (`Among.of_mets`).

  3. **Tasks** (`Did.among_task`) — if the lead of a job leaves the disk as it is, and its tasks keep
     to parts of a region of which no two meet, then each task acts among others on its part, and
     what belongs to no part stays as it is.

  4. **Scripts** (`Script.Owns`) — a script that keeps to a region, with a property of its acts, its
     result and the disk that it leaves.
-/
import CallSweep.Proofs.Run.Requests

namespace CallSweep

open Disk (AgreeOn)
open Crew (Did Does)

variable {S : System} {I : Disk → Prop} {region part : Set Place} {d d' d'' : Disk} {T T' : List Act}
  {act : Act}

/-! ## Among others -/

/-- Some acts lead from one disk to another.  Before each of them, and in the end, others may have
    changed the disk, but not on the region. -/
inductive Among (S : System) (I : Disk → Prop) (region : Set Place) :
    Disk → List Act → Disk → Prop
  | refl {d d' : Disk} (kept : I d') (agree : AgreeOn region d d') : Among S I region d [] d'
  | head {d d' : Disk} {w w' : World} {act : Act} {T : List Act} (kept : I w.disk)
      (agree : AgreeOn region d w.disk) (met : act.Met S w w')
      (rest : Among S I region w'.disk T d') : Among S I region d (act :: T) d'

namespace Among

theorem kept (among : Among S I region d T d') : I d' := by
  induction among with
  | refl kept _ => exact kept
  | head _ _ _ _ ih => exact ih

theorem of_agree (agree : AgreeOn region d d') (among : Among S I region d' T d'') :
    Among S I region d T d'' := by
  cases among with
  | refl kept agree' => exact .refl kept (agree.trans agree')
  | head kept agree' met rest => exact .head kept (agree.trans agree') met rest

theorem later (among : Among S I region d T d') (kept : I d'') (agree : AgreeOn region d' d'') :
    Among S I region d T d'' := by
  induction among with
  | refl _ agree' => exact .refl kept (agree'.trans agree)
  | head kept' agree' met _ ih => exact .head kept' agree' met (ih agree)

theorem mono (sub : part ⊆ region) (among : Among S I region d T d') : Among S I part d T d' := by
  induction among with
  | refl kept agree => exact .refl kept (agree.mono sub)
  | head kept agree met _ ih => exact .head kept (agree.mono sub) met ih

theorem append (first : Among S I region d T d') (second : Among S I region d' T' d'') :
    Among S I region d (T ++ T') d'' := by
  induction first with
  | refl _ agree => exact second.of_agree agree
  | head kept agree met _ ih => exact .head kept agree met (ih second)

theorem of_append (among : Among S I region d (T ++ T') d') :
    ∃ d'', Among S I region d T d'' ∧ Among S I region d'' T' d' := by
  induction T generalizing d with
  | nil =>
    cases T' with
    | nil => exact ⟨d', among, .refl among.kept .refl⟩
    | cons act T' =>
      cases among with
      | head kept agree met rest => exact ⟨_, .refl kept agree, .head kept .refl met rest⟩
  | cons act T ih =>
    cases among with
    | head kept agree met rest =>
      obtain ⟨d'', first, second⟩ := ih rest
      exact ⟨d'', .head kept agree met first, second⟩

/-- The last of some acts. -/
theorem of_concat (among : Among S I region d (T ++ [act]) d') :
    ∃ w w' : World, Among S I region d T w.disk ∧ act.Met S w w' ∧ I d' ∧
      AgreeOn region w'.disk d' := by
  obtain ⟨d'', first, last⟩ := among.of_append
  cases last with
  | head kept agree met rest =>
    cases rest with
    | refl kept' agree' => exact ⟨_, _, first.later kept agree, met, kept', agree'⟩

theorem concat {w w' : World} (among : Among S I region d T w.disk) (met : act.Met S w w')
    (kept : I w'.disk) : Among S I region d (T ++ [act]) w'.disk :=
  among.append (.head among.kept .refl met (.refl kept .refl))

end Among

/-- An act that some world meets. -/
def Act.Possible (S : System) (act : Act) : Prop := ∃ w w', act.Met S w w'

theorem Among.possible (among : Among S I region d T d') : ∀ act ∈ T, act.Possible S := by
  induction among with
  | refl _ _ => exact List.forall_mem_nil _
  | head _ _ met _ ih => exact List.forall_mem_cons.2 ⟨⟨_, _, met⟩, ih⟩

theorem World.Mets.possible {w w' : World} (mets : Mets S w T w') :
    ∀ act ∈ T, act.Possible S := by
  induction mets with
  | nil => exact List.forall_mem_nil _
  | cons met _ ih => exact List.forall_mem_cons.2 ⟨⟨_, _, met⟩, ih⟩

/-! ### Acts that leave the disk alone -/

/-- What asks for no change leaves the disk as it is. -/
theorem Act.Met.disk_eq (honest : S.Honest) {w w' : World}
    (still : act.Asks fun r => r.isChange = false) (met : act.Met S w w') : w'.disk = w.disk := by
  induction act with
  | asked r a =>
    rcases r.isLook_or with look | change | book
    · rw [honest.look look met.2]
    · cases still.symm.trans change
    · have after : (w.answer S.host r).2 = w' := congrArg Prod.snd (honest.book book met.2)
      rw [← after]
      cases r with
      | note n => cases n <;> rfl
      | count _ | tally | complaints | print _ _ | exit _ => rfl
      | _ => cases book
  | refused m report => rw [met.2]
  | spawned _ | joined _ => rw [show w' = w from met]
  | inside i act ih => exact ih still met

theorem World.Mets.disk_eq (honest : S.Honest) {w w' : World}
    (still : ∀ act ∈ T, act.Asks fun r => r.isChange = false) (mets : Mets S w T w') :
    w'.disk = w.disk := by
  induction mets with
  | nil => rfl
  | cons met _ ih =>
    obtain ⟨here, rest⟩ := List.forall_mem_cons.1 still
    rw [ih rest, met.disk_eq honest here]

/-- Acts that ask for no change leave the region as it is. -/
theorem Among.agree (honest : S.Honest) (still : ∀ act ∈ T, act.Asks fun r => r.isChange = false)
    (among : Among S I region d T d') : AgreeOn region d d' := by
  induction among with
  | refl _ agree => exact agree
  | head _ agree met _ ih =>
    obtain ⟨here, rest⟩ := List.forall_mem_cons.1 still
    rw [met.disk_eq honest here] at ih
    exact agree.trans (ih rest)

/-! ## Keeping to a region -/

/-- A job, from a disk that looks like `d` on the region, changes nothing outside the region and
    keeps `I`. -/
def Job.KeepsTo (S : System) (I : Disk → Prop) (region : Set Place) (job : Job) (d : Disk) : Prop :=
  ∀ T crew w act crew' w', Did (.start job) T crew → Among S I region d T w.disk →
    Does crew act crew' → act.Met S w w' → I w'.disk ∧ AgreeOn regionᶜ w.disk w'.disk

namespace Crew.Did

variable {crew crew' : Crew}

theorem of_append (did : Did crew (T ++ T') crew') :
    ∃ crew₁, Did crew T crew₁ ∧ Did crew₁ T' crew' := by
  induction T generalizing crew with
  | nil => exact ⟨crew, .refl, did⟩
  | cons act T ih =>
    cases did with
    | head does did =>
      obtain ⟨crew₁, first, second⟩ := ih did
      exact ⟨crew₁, .head does first, second⟩

theorem of_concat (did : Did crew (T ++ [act]) crew') :
    ∃ crew₁, Did crew T crew₁ ∧ Does crew₁ act crew' := by
  obtain ⟨crew₁, first, last⟩ := did.of_append
  cases last with
  | head does rest =>
    cases rest
    exact ⟨crew₁, first, does⟩

end Crew.Did

/-- A job that keeps to a region, by itself, is one of those that act among others. -/
theorem Among.of_mets {job : Job} {crew : Crew} {w w' : World} (keeps : job.KeepsTo S I region d)
    (did : Did (.start job) T crew) (mets : World.Mets S w T w') (kept : I w.disk)
    (agree : AgreeOn region d w.disk) :
    Among S I region d T w'.disk ∧ AgreeOn regionᶜ w.disk w'.disk := by
  induction T using List.reverseRecOn generalizing crew w' with
  | nil =>
    cases mets
    exact ⟨.refl kept agree, .refl⟩
  | append_singleton T act ih =>
    obtain ⟨crew₁, first, does⟩ := did.of_concat
    obtain ⟨w₁, before, last⟩ := mets.of_append
    cases last with
    | cons met last =>
      cases last
      obtain ⟨among, off⟩ := ih first before
      obtain ⟨kept', off'⟩ := keeps T crew₁ w₁ act crew _ first among does met
      exact ⟨among.concat met kept', off.trans off'⟩

/-! ## Tasks -/

/-- What has been done by a job: its lead has left the disk as it is, and its tasks keep to parts of
    the region, no two of which meet. -/
structure Apart (S : System) (I : Disk → Prop) (region : Set Place) (d : Disk) (T : List Act)
    (part : Nat → Set Place) : Prop where
  still : ∀ act ∈ own T, act.Asks fun r => r.isChange = false
  sub : ∀ i < (starts T).length, part i ⊆ region
  keeps : ∀ i job, (starts T)[i]? = some job → Job.KeepsTo S I (part i) job d
  apart : ∀ i < (starts T).length, ∀ j < (starts T).length, i ≠ j → ∀ x ∈ part i, x ∉ part j

section

variable {part : Nat → Set Place} {job : Job} {crew crew' : Crew}

theorem Apart.of_append (apart : Apart S I region d (T ++ T') part) :
    Apart S I region d T part := by
  have longer {i : Nat} (hi : i < (starts T).length) : i < (starts (T ++ T')).length := by
    rw [starts_append, List.length_append]
    exact Nat.lt_add_right _ hi
  constructor
  · exact fun act mem => apart.still act (own_append T' ▸ List.mem_append_left _ mem)
  · exact fun i hi => apart.sub i (longer hi)
  · intro i job at_i
    refine apart.keeps i job ?_
    rw [starts_append, List.getElem?_append_left (List.getElem?_eq_some_iff.1 at_i).1, at_i]
  · exact fun i hi j hj => apart.apart i (longer hi) j (longer hj)

/-- A lead that has started no tasks. -/
theorem Apart.of_idle (still : ∀ act ∈ own T, act.Asks fun r => r.isChange = false)
    (none_ : starts T = []) : Apart S I region d T part := by
  have nothing {i : Nat} : ¬ i < (starts T).length := by simp [none_]
  constructor
  · exact still
  · exact fun i hi => absurd hi nothing
  · exact fun i job at_i => absurd (List.getElem?_eq_some_iff.1 at_i).1 nothing
  · exact fun i hi => absurd hi nothing

namespace Crew.Did

/-- What is done inside is done by a task that was started. -/
theorem task_of_inside {i : Nat} (did : Did (.start job) T crew)
    (does : Does crew (.inside i act) crew') :
    ∃ task c c', (starts T)[i]? = some task ∧ Did (.start task) (within i T) c ∧
      Does c act c' := by
  cases does with
  | @inside lead tasks _ c c' _ going at_i does =>
    have started : i < (starts T).length := by
      have length := did.length_tasks
      rw [show (start job).tasks.length = 0 from rfl, Nat.zero_add] at length
      rw [← length]
      exact (List.getElem?_eq_some_iff.1 at_i).1
    have begun : ((start job).tasks ++ (starts T).map start)[i]? =
        some (start (starts T)[i]) := by
      rw [show (start job).tasks = [] from rfl, List.nil_append, List.getElem?_map,
        List.getElem?_eq_getElem started]
      rfl
    obtain ⟨c₁, at_c, first⟩ := did.task begun
    cases at_i.symm.trans at_c
    exact ⟨_, c, c', List.getElem?_eq_getElem started, first, does⟩

/-- What a task does leaves alone what is not in its part. -/
theorem keeps_of_inside {i : Nat} {w w' : World} (apart : Apart S I region d T part)
    (did : Did (.start job) T crew) (does : Does crew (.inside i act) crew')
    (among : ∀ i < (starts T).length, Among S I (part i) d (within i T) w.disk)
    (met : act.Met S w w') :
    i < (starts T).length ∧ I w'.disk ∧ AgreeOn (part i)ᶜ w.disk w'.disk := by
  obtain ⟨task, c, c', at_i, did', does'⟩ := did.task_of_inside does
  have started := (List.getElem?_eq_some_iff.1 at_i).1
  exact ⟨started, apart.keeps i task at_i _ c w act c' w' did' (among i started) does' met⟩

/-- What `among_task` says of the first acts of a crew, even of tasks that come later. -/
theorem among_task_of_append (honest : S.Honest) (apart : Apart S I region d (T ++ T') part)
    (did : Did (.start job) T crew) (among : Among S I region d T d') :
    (∀ i < (starts (T ++ T')).length, Among S I (part i) d (within i T) d') ∧
      ∀ x ∈ region, (∀ i < (starts (T ++ T')).length, x ∉ part i) → d'.view x = d.view x := by
  induction T using List.reverseRecOn generalizing T' crew d' with
  | nil =>
    cases among with
    | refl kept agree =>
      exact ⟨fun i hi => .refl kept (agree.mono (apart.sub i hi)), fun x hx _ => agree x hx⟩
  | append_singleton T act ih =>
    obtain ⟨crew₁, first, does⟩ := did.of_concat
    obtain ⟨w, w', before, met, kept, agree⟩ := among.of_concat
    rw [List.append_assoc, List.singleton_append] at apart ⊢
    obtain ⟨tasks, others⟩ := ih apart first before
    cases outer : act.isInside with
    | false =>
      -- the lead acts: the disk is as it was
      have same : w'.disk = w.disk := by
        refine met.disk_eq honest (apart.still act ?_)
        rw [own_append, own_cons outer]
        exact List.mem_append_right _ List.mem_cons_self
      rw [same] at agree
      refine ⟨fun i hi => ?_, fun x hx off => (agree x hx).trans (others x hx off)⟩
      rw [within_append, within_cons outer, show within i [] = [] from rfl, List.append_nil]
      exact (tasks i hi).later kept (agree.mono (apart.sub i hi))
    | true =>
      cases act with
      | inside j act =>
        -- a task acts: it keeps to its part
        have longer {i : Nat} (hi : i < (starts T).length) :
            i < (starts (T ++ .inside j act :: T')).length := by
          rw [starts_append, List.length_append]
          exact Nat.lt_add_right _ hi
        obtain ⟨hj, kept', off⟩ := first.keeps_of_inside apart.of_append does
          (fun i hi => tasks i (longer hi)) met
        refine ⟨fun i hi => ?_, fun x hx none_ => ?_⟩
        · by_cases same : j = i
          · subst same
            have met' : act.Met S w w' := met
            rw [within_append, within_inside_self]
            exact ((tasks j hi).concat met' kept').later kept (agree.mono (apart.sub j hi))
          · rw [within_append, within_inside_of_ne same, show within i [] = [] from rfl,
              List.append_nil]
            refine (tasks i hi).later kept fun x hx => (agree x (apart.sub i hi hx)).trans ?_
            exact off x (apart.apart i hi j (longer hj) (Ne.symm same) x hx)
        · exact (agree x hx).trans ((off x (none_ j (longer hj))).trans (others x hx none_))
      | _ => cases outer

/-- **Tasks**: each acts among others on its part, and what belongs to no task's part stays as it
    is. -/
theorem among_task (honest : S.Honest) (apart : Apart S I region d T part)
    (did : Did (.start job) T crew) (among : Among S I region d T d') :
    (∀ i < (starts T).length, Among S I (part i) d (within i T) d') ∧
      ∀ x ∈ region, (∀ i < (starts T).length, x ∉ part i) → d'.view x = d.view x := by
  have whole := List.append_nil T
  have apart' : Apart S I region d (T ++ []) part := whole.symm ▸ apart
  have result := among_task_of_append honest apart' did among
  rwa [whole] at result

end Crew.Did

/-- A job keeps to a region if its tasks keep to parts of it. -/
theorem Job.keepsTo_of_apart (honest : S.Honest)
    (parts : ∀ T act crew d', Did (.start job) (T ++ [act]) crew → Among S I region d T d' →
      act.Possible S → ∃ part : Nat → Set Place, Apart S I region d (T ++ [act]) part) :
    job.KeepsTo S I region d := by
  intro T crew w act crew' w' did among does met
  obtain ⟨part, apart⟩ := parts T act crew' w.disk (did.trans (.head does .refl)) among ⟨w, w', met⟩
  cases outer : act.isInside with
  | false =>
    have same : w'.disk = w.disk := by
      refine met.disk_eq honest (apart.still act ?_)
      rw [own_append, own_cons outer]
      exact List.mem_append_right _ List.mem_cons_self
    rw [same]
    exact ⟨among.kept, .refl⟩
  | true =>
    cases act with
    | inside i act =>
      have before := apart.of_append
      obtain ⟨hi, kept, off⟩ := did.keeps_of_inside before does
        (did.among_task honest before among).1 met
      exact ⟨kept, off.mono (Set.compl_subset_compl.2 (before.sub i hi))⟩
    | _ => cases outer

end

/-! ## Scripts -/

namespace Script

variable {α β : Type}

/-- The script keeps to the region, and where it ends, `Q` holds of its acts, its result and the
    disk.  `T` is what it has done before. -/
def Owns (S : System) (I : Disk → Prop) (region : Set Place) (Q : List Act → α → Disk → Prop) :
    Script α → List Act → Disk → Prop
  | .done a, T, d => Q T a d
  | .ask r next, T, d => ∀ (w : World) (a : r.Answer) (w' : World), I w.disk →
      AgreeOn region d w.disk → S.answers w r a w' →
      I w'.disk ∧ AgreeOn regionᶜ w.disk w'.disk ∧
        Owns S I region Q (next a) (T ++ [.asked r a]) w'.disk

namespace Owns

variable {Q : List Act → α → Disk → Prop} {s : Script α}

/-- A request that looks only. -/
theorem look (honest : S.Honest) {r : Request} {next : r.Answer → Script α}
    (look : r.isLook = true)
    (rest : ∀ (w : World) (a : r.Answer), I w.disk → AgreeOn region d w.disk →
      S.answers w r a w → (next a).Owns S I region Q (T ++ [.asked r a]) w.disk) :
    (Script.ask r next).Owns S I region Q T d := by
  intro w a w' kept agree answered
  obtain rfl := honest.look look answered
  exact ⟨kept, .refl, rest w' a kept agree answered⟩

/-- A request that has nothing to do with the file system. -/
theorem book (honest : S.Honest) {r : Request} {next : r.Answer → Script α}
    (book : r.isBook = true)
    (rest : ∀ (a : r.Answer) d', I d' → AgreeOn region d d' →
      (next a).Owns S I region Q (T ++ [.asked r a]) d') :
    (Script.ask r next).Owns S I region Q T d := by
  intro w a w' kept agree answered
  have same : w'.disk = w.disk := by
    have after : (w.answer S.host r).2 = w' := congrArg Prod.snd (honest.book book answered)
    rw [← after]
    cases r with
    | note n => cases n <;> rfl
    | count _ | tally | complaints | print _ _ | exit _ => rfl
    | _ => cases book
  rw [same]
  exact ⟨kept, .refl, rest a w.disk kept agree⟩

theorem mono {Q' : List Act → α → Disk → Prop} (owns : s.Owns S I region Q T d)
    (imp : ∀ T a d, Q T a d → Q' T a d) : s.Owns S I region Q' T d := by
  induction s generalizing T d with
  | done a => exact imp T a d owns
  | ask r next ih =>
    intro w a w' kept agree answered
    obtain ⟨kept', off, rest⟩ := owns w a w' kept agree answered
    exact ⟨kept', off, ih a rest⟩

theorem bind {R : List Act → β → Disk → Prop} {f : α → Script β}
    (owns : s.Owns S I region Q T d) (i : I d)
    (second : ∀ T a d, I d → Q T a d → (f a).Owns S I region R T d) :
    (s.bind f).Owns S I region R T d := by
  induction s generalizing T d with
  | done a => exact second T a d i owns
  | ask r next ih =>
    intro w a w' kept agree answered
    obtain ⟨kept', off, rest⟩ := owns w a w' kept agree answered
    exact ⟨kept', off, ih a rest kept'⟩

/-- A script that asks for no change keeps to any region. -/
theorem of_still (honest : S.Honest) (still : s.Only fun r => r.isChange = false) :
    s.Owns S I region (fun _ _ _ => True) T d := by
  induction s generalizing T d with
  | done a => trivial
  | ask r next ih =>
    rcases r.isLook_or with look | change | book
    · exact .look honest look fun w a _ _ _ => ih a (still.2 a)
    · cases still.1.symm.trans change
    · exact .book honest book fun a d' _ _ => ih a (still.2 a)

/-- What holds where the script has come to its end, whatever its acts are followed by. -/
theorem result {T₀ : List Act} {x : Option α} {a : α} (owns : s.Owns S I region Q T₀ d)
    (plays : s.Plays T x) (whole : x = some a) (among : Among S I region d (T ++ T') d') :
    ∃ d'', Q (T₀ ++ T) a d'' ∧ Among S I region d'' T' d' := by
  induction plays generalizing T₀ d with
  | done =>
    cases whole
    rw [List.append_nil]
    exact ⟨d, owns, among⟩
  | ask _ ih =>
    cases among with
    | head kept agree met rest =>
      obtain ⟨-, -, owns⟩ := owns _ _ _ kept agree met.2
      obtain ⟨d'', holds, later⟩ := ih owns whole rest
      rw [List.append_assoc] at holds
      exact ⟨d'', holds, later⟩
  | refused => cases whole

/-- A script that keeps to a region, as a job. -/
theorem keepsTo (owns : s.Owns S I region Q T' d) :
    Job.KeepsTo S I region (s.andThen fun _ => .done) d := by
  induction s generalizing T' d with
  | done a =>
    intro T crew w act crew' w' did _ does _
    have ended : (Crew.start .done).Ended := trivial
    obtain ⟨-, rfl⟩ := ended.eq_of_did did
    exact absurd does ended.not_does
  | ask r next ih =>
    intro T crew w act crew' w' did among does met
    cases did with
    | refl =>
      cases among with
      | refl kept agree =>
        cases does with
        | ask answer =>
          obtain ⟨kept', off, -⟩ := owns w answer w' kept agree met.2
          exact ⟨kept', off⟩
        | refuse report =>
          rw [met.2]
          exact ⟨kept, .refl⟩
        | inside _ at_i _ => cases at_i
    | head first did =>
      cases first with
      | ask answer =>
        cases among with
        | head kept agree met₁ rest =>
          obtain ⟨-, -, owns⟩ := owns _ answer _ kept agree met₁.2
          exact ih answer owns _ crew w act crew' w' did rest does met
      | refuse report =>
        have ended : (Crew.mk (.crashed report) []).Ended := trivial
        obtain ⟨-, rfl⟩ := ended.eq_of_did did
        exact absurd does ended.not_does
      | inside _ at_i _ => cases at_i

end Owns

end Script

end CallSweep
