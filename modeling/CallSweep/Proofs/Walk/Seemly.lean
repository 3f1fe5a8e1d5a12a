/-
  What a walk may ask for.

  A walk leaves the printing to its messages, and sets no exit status.  A message of what was done
  does not begin like one of what failed is printed, so that the printed ones can be told apart:
  it is a diff, or begins with the verb of one of the closing messages.

  `walk_seemly` says so of every request of a walk, whatever it is answered: one lemma for each of its
  scripts.
-/
import CallSweep.Proofs.Run.Requests
import CallSweep.Proofs.Walk.Balance

namespace CallSweep

open Crew (Did)

namespace Walk

/-- How the messages of what failed begin. -/
def complaint : String := "error: "

/-- A walk leaves the printing to its messages, and those of what was done do not look like those of
    what failed. -/
def Seemly : Request → Prop
  | .note (.message (.info text)) => begins complaint text = false
  | r => r.isSilent = true

theorem Seemly.silent {r : Request} (seemly : Seemly r) : r.isSilent = true := by
  cases r with
  | note n => rfl
  | _ => exact seemly

/-- So none of the messages of what was done looks like that. -/
theorem begins_of_told {T : List Act} (asks : ∀ act ∈ T, act.Asks Seemly) :
    ∀ text ∈ Note.infos (told T), begins complaint text = false := by
  intro text mem
  obtain ⟨note, told, same⟩ := List.mem_filterMap.1 mem
  obtain ⟨act, mem, told⟩ := List.mem_filterMap.1 told
  have seemly := (asks act mem).told told
  cases note with
  | event e => cases same
  | message m =>
    cases m with
    | error text => cases same
    | info text =>
      cases same
      exact seemly

section

variable {plan : Plan} {p : Path}

theorem fail_only (failure : Failure) : (fail failure).Only Seemly :=
  ⟨rfl, fun _ => ⟨rfl, fun _ => ⟨rfl, fun _ => trivial⟩⟩⟩

theorem tell_only {head : String}
    (apart : ¬ complaint.toList <+: head.toList ∧ ¬ head.toList <+: complaint.toList)
    (rest : String) : (tell (.info (head ++ rest))).Only Seemly :=
  .request (r := .note (.message (.info (head ++ rest)))) (begins_append_of_apart apart rest)

/-- The work on a single file neither prints nor tells what was done. -/
theorem FileWork.seemly {r : Request} (work : FileWork r) : Seemly r := by
  cases r with
  | note n =>
    cases n with
    | message m => cases work
    | event e => rfl
  | print _ _ | exit _ => cases work
  | _ => rfl

theorem unified_seemly (label before after : String) :
    begins complaint (Diff.unified label before after) = false := by
  unfold Diff.unified
  dsimp only
  split
  · decide
  · simp only [Diff.fileHeader, String.append_assoc]
    exact begins_append_of_apart (by decide) _

theorem replace_only (text swept : String) : (replace plan p text swept).Only Seemly := by
  unfold replace
  split
  · exact ⟨unified_seemly _ _ _, fun _ => trivial⟩
  · exact ((writeSource_work swept plan.atomicWrite).mono fun _ => FileWork.seemly).bind fun _ =>
      trivial

theorem processFile_only : (processFile plan p).Only Seemly := by
  have swept : (sweepFile plan p).Only Seemly := by
    refine ⟨rfl, fun _ => ((readSource_work _).mono fun _ => FileWork.seemly).bind fun result => ?_⟩
    cases result with
    | error e => trivial
    | ok text =>
      dsimp only
      split
      · trivial
      · refine (replace_only text _).bind fun result => ?_
        cases result with
        | error f => trivial
        | ok u => exact ⟨rfl, fun _ => ⟨rfl, fun _ => trivial⟩⟩
  refine swept.bind fun result => ?_
  cases result with
  | ok removed => trivial
  | error f => exact (fail_only f).bind fun _ => trivial

theorem tellSummary_only : (tellSummary plan p).Only Seemly := by
  refine ⟨rfl, fun t => ?_⟩
  show (tell (.info (summary plan p t))).Only Seemly
  unfold summary verb
  simp only [String.append_assoc]
  split
  · exact tell_only (by decide) _
  · exact tell_only (by decide) _

theorem file_only : (file plan p).Only Seemly := by
  unfold file
  split
  · refine processFile_only.bind fun removed => ?_
    cases removed with
    | none => trivial
    | some removed =>
      dsimp only
      unfold verb
      simp only [String.append_assoc]
      split
      · exact tell_only (by decide) _
      · exact tell_only (by decide) _
  · exact tell_only (by decide) _

theorem look_seemly {r : Request} (look : r.isLook = true) : Seemly r := by
  cases r with
  | stat _ | list _ | next _ _ | read _ | resolve _ => rfl
  | _ => cases look

theorem walk_seemly (plan : Plan) (cwd p : Path) : (walk plan cwd p).Only Seemly :=
  walk_only (fun _ => look_seemly) fail_only (fun _ _ _ => ⟨rfl, fun _ => trivial⟩)
    (fun _ => processFile_only) cwd p (fun _ => tellSummary_only) (fun _ => file_only)
    (tell_only (by decide))

end

end Walk

end CallSweep
