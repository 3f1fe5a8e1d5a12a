/-
  What the exit status and the two channels say of a run.

  A run reads its configuration, walks and closes.  Two counts of failures are kept: the walk's own,
  and that of the messages that were told.  The exit status goes by the second, the counts that are
  printed by the first.

  1. **The configuration** (`configure_only`) — reading it looks at the disk and adds to the log, and
     does nothing else.

  2. **Printing** — what is printed are the messages, in the order in which they were told, each on
     its channel (`printedOn_output`, `printedOn_error`), and behind them what the end of the run
     prints (`runScript_close`).

  3. **JSON** (`IsObject`) — the counts are printed as one object of four numbers.

  4. **Truth** (`Truthful`, `GaveUp`) — so both counts are one, the status says whether it is zero,
     and each channel holds what it is meant for.  It holds whatever the order of turns
     (`run_tells_truth`).
-/
import CallSweep.Command.Program
import CallSweep.Proofs.Settings.Layers
import CallSweep.Proofs.Walk.Seemly

namespace CallSweep

open Crew (Did)

namespace Program

/-! ## The configuration -/

theorem loadFile_only (p : Path) : (Settings.loadFile p).Only fun r => r.isAside = true := by
  refine ⟨rfl, fun answer => ?_⟩
  cases answer <;> trivial

theorem loadLayer_only (p : Path) : (Settings.loadLayer p).Only fun r => r.isAside = true := by
  refine ⟨rfl, fun answer => ?_⟩
  cases answer with
  | error e => trivial
  | ok stat =>
    refine (loadFile_only p).bind fun result => ?_
    cases result with
    | ok s => trivial
    | error e => exact ⟨rfl, fun _ => trivial⟩

theorem configure_only (env : Environment) (cwd : Path) (o : Options) :
    (configure env cwd o).Only fun r => r.isAside = true := by
  have implicit : (Settings.loadImplicit (Settings.userPath env)
      (Settings.projectPath cwd)).Only fun r => r.isAside = true :=
    (loadLayer_only _).bind fun _ => (loadLayer_only _).bind fun _ => trivial
  refine Script.Only.bind (implicit.bind fun s => ?_) fun result => ?_
  · cases o.conf with
    | none => trivial
    | some p => exact (loadFile_only p).bind fun _ => trivial
  · cases result <;> trivial

/-! ## Printing -/

theorem printedOn_append (c : Channel) (xs ys : List (Channel × String)) :
    printedOn c (xs ++ ys) = printedOn c xs ++ printedOn c ys := by
  rw [printedOn, List.filter_append, List.map_append, String.join_append]
  rfl

/-- The line on the channel for what failed that a message makes, if it makes one. -/
def errorLine? (json : Bool) : Message → Option String
  | .info text => if json then some (text ++ "\n") else none
  | .error text => some (Walk.complaint ++ text ++ "\n")

/-- Whether something that was printed is a message of what failed. -/
def isComplaint (printed : Channel × String) : Bool :=
  printed.1 = .error && Walk.begins Walk.complaint printed.2

section

variable {json : Bool} {messages : List Message}

theorem printedOn_output : printedOn .output (messages.flatMap (console json)) =
    if json then "" else String.join ((messages.filterMap Message.info?).map (· ++ "\n")) := by
  induction messages with
  | nil => cases json <;> rfl
  | cons m messages ih =>
    rw [List.flatMap_cons, printedOn_append, ih]
    cases m <;> cases json <;> simp [console, printedOn, Message.info?, List.filterMap_cons]

theorem printedOn_error : printedOn .error (messages.flatMap (console json)) =
    String.join (messages.filterMap (errorLine? json)) := by
  induction messages with
  | nil => rfl
  | cons m messages ih =>
    rw [List.flatMap_cons, printedOn_append, ih]
    cases m <;> cases json <;> simp [console, printedOn, errorLine?, Walk.complaint]

/-- The end of its line does not make a text begin differently. -/
theorem begins_line (text : String) :
    Walk.begins Walk.complaint (text ++ "\n") = Walk.begins Walk.complaint text := by
  rw [Walk.begins, Walk.begins, Bool.eq_iff_iff, List.isPrefixOf_iff_prefix,
    List.isPrefixOf_iff_prefix, String.toList_append]
  constructor
  · intro longer
    rcases List.prefix_concat_iff.1 longer with whole | shorter
    · have last := congrArg List.getLast? whole
      rw [List.getLast?_concat] at last
      exact absurd last (by decide)
    · exact shorter
  · exact fun shorter => shorter.trans (List.prefix_append _ _)

/-- Just the messages of what failed are printed as such, if the others do not look like them. -/
theorem length_complaints
    (apart : ∀ text ∈ messages.filterMap Message.info?, Walk.begins Walk.complaint text = false) :
    ((messages.flatMap (console json)).filter isComplaint).length =
      (messages.filterMap Message.error?).length := by
  induction messages with
  | nil => rfl
  | cons m messages ih =>
    rw [List.flatMap_cons, List.filter_append, List.length_append]
    cases m with
    | info text =>
      obtain ⟨here, rest⟩ := List.forall_mem_cons.1 apart
      have other : ¬ isComplaint (if json then .error else .output, text ++ "\n") = true := by
        rw [isComplaint, begins_line, here, Bool.and_false]
        exact Bool.false_ne_true
      rw [ih rest, console, List.filter_cons_of_neg other]
      exact Nat.zero_add _
    | error text =>
      have one : isComplaint (.error, "error: " ++ text ++ "\n") = true := by
        show Walk.begins Walk.complaint (Walk.complaint ++ text ++ "\n") = true
        rw [Walk.begins, List.isPrefixOf_iff_prefix, String.toList_append, String.toList_append,
          List.append_assoc]
        exact List.prefix_append _ _
      rw [ih apart, console, List.filter_cons_of_pos one]
      exact Nat.add_comm 1 _

end

/-! ## The end of a run -/

/-- How a run that swept not all is shown to fail. -/
def unswept (failures : Nat) : String :=
  errorText (toString failures ++ " path(s) could not be cleaned") none

/-- What the end of a run prints: the counts, if they are asked for, and that the run failed, if it
    did. -/
def closing (json : Bool) (t : Tally) (failures : Nat) : List (Channel × String) :=
  (if json then [(.output, tallyText t)] else []) ++
    if 0 < failures then [(.error, unswept failures)] else []

section

variable (json : Bool) (t : Tally) (failures : Nat)

theorem printedOn_output_closing :
    printedOn .output (closing json t failures) = if json then tallyText t else "" := by
  unfold closing
  cases json <;> by_cases failed : 0 < failures <;> simp [printedOn, failed]

theorem printedOn_error_closing : printedOn .error (closing json t failures) =
    if 0 < failures then unswept failures else "" := by
  unfold closing
  cases json <;> by_cases failed : 0 < failures <;> simp [printedOn, failed]

theorem filter_isComplaint_closing : (closing json t failures).filter isComplaint = [] := by
  have other : Walk.begins Walk.complaint (unswept failures) = false := by
    show Walk.begins Walk.complaint ("Error: " ++ _ ++ "\n") = false
    rw [String.append_assoc]
    exact Walk.begins_append_of_apart (by decide) _
  unfold closing
  cases json <;> by_cases failed : 0 < failures <;> simp [failed, other, isComplaint]

end

theorem giveUp_books (text : String) : (giveUp text).Only fun r => r.isBook = true :=
  ⟨rfl, fun _ => ⟨rfl, fun _ => trivial⟩⟩

theorem close_books (json : Bool) : (close json).Only fun r => r.isBook = true := by
  have ends : (close false).Only fun r => r.isBook = true := by
    refine ⟨rfl, fun n => ?_⟩
    show Script.Only _ (if 0 < n then giveUp (unswept n) else .done ())
    split
    · exact giveUp_books _
    · trivial
  cases json with
  | false => exact ends
  | true => exact ⟨rfl, fun _ => ⟨rfl, fun _ => ends⟩⟩

theorem runScript_giveUp (h : Host) (text : String) (w : World) :
    World.runScript h (giveUp text) w =
      (.ok (), { w with printed := w.printed ++ [(.error, text)], status := 1 }) := by
  show World.runScript h (.ask (.print .error text) fun _ => .ask (.exit 1) .done) w = _
  rw [World.runScript_ask_of_free rfl, World.runScript_ask_of_free rfl]
  rfl

theorem runScript_close (h : Host) (json : Bool) (w : World) :
    World.runScript h (close json) w = (.ok (), { w with
      printed := w.printed ++ closing json w.tally (Note.errors w.notes).length
      status := if 0 < (Note.errors w.notes).length then 1 else w.status }) := by
  have ends (w : World) : World.runScript h (close false) w = (.ok (), { w with
      printed := w.printed ++
        if 0 < (Note.errors w.notes).length then [(.error, unswept (Note.errors w.notes).length)]
        else []
      status := if 0 < (Note.errors w.notes).length then 1 else w.status }) := by
    show World.runScript h (.ask .complaints fun n =>
      if 0 < n then giveUp (unswept n) else .done ()) w = _
    rw [World.runScript_ask_of_free rfl]
    by_cases failed : 0 < (Note.errors w.notes).length
    · simp only [World.answer, failed, if_true]
      exact runScript_giveUp h _ w
    · simp only [World.answer, failed, if_false, List.append_nil]
      rfl
  cases json with
  | false => exact ends w
  | true =>
    show World.runScript h (.ask .tally fun t =>
      .ask (.print .output (tallyText t)) fun _ => close false) w = _
    rw [World.runScript_ask_of_free rfl, World.runScript_ask_of_free rfl, ends, closing, if_pos rfl,
      ← List.append_assoc]
    rfl

/-! ## The counts as JSON -/

/-- Whether a text may stand between two tokens of JSON. -/
def isSpace (s : String) : Bool :=
  s.toList.all fun c => c = ' ' || c = '\t' || c = '\n' || c = '\r'

/-- Whether a text stands for itself between quotes. -/
def isPlain (s : String) : Bool := s.toList.all fun c => c.isAlpha || c = '_'

/-- A member of an object of JSON whose value is a number. -/
def IsMember (name : String) (n : Nat) (s : String) : Prop :=
  isPlain name ∧ ∃ a b c d, isSpace a ∧ isSpace b ∧ isSpace c ∧ isSpace d ∧
    s = a ++ "\"" ++ name ++ "\"" ++ b ++ ":" ++ c ++ toString n ++ d

/-- An object of JSON with these members. -/
def IsObject (members : List (String × Nat)) (s : String) : Prop :=
  ∃ a parts b, isSpace a ∧ isSpace b ∧
    List.Forall₂ (fun member part => IsMember member.1 member.2 part) members parts ∧
    s = a ++ "\x7b" ++ ",".intercalate parts ++ "\x7d" ++ b

/-- The text of a member on a line of its own. -/
def memberLine (name : String) (n : Nat) (last : String) : String :=
  "\n  \"" ++ name ++ "\": " ++ toString n ++ last

theorem isMember_memberLine {name last : String} (plain : isPlain name) (space : isSpace last)
    (n : Nat) : IsMember name n (memberLine name n last) := by
  refine ⟨plain, "\n  ", "", " ", last, by decide, by decide, by decide, space, ?_⟩
  unfold memberLine
  have opens : "\n  \"" = "\n  " ++ "\"" := by decide
  have closes : "\": " = "\"" ++ ("" ++ (":" ++ " ")) := by decide
  rw [opens, closes]
  simp only [String.append_assoc]

/-- The counts of a run, by their names. -/
def counts (t : Tally) : List (String × Nat) :=
  [("files_scanned", t.scanned), ("files_changed", t.changed), ("removals", t.removals),
    ("failures", t.failures)]

theorem tallyText_isObject (t : Tally) : IsObject (counts t) (tallyText t) := by
  obtain ⟨scanned, changed, removals, failures⟩ :
      isPlain "files_scanned" ∧ isPlain "files_changed" ∧ isPlain "removals" ∧
        isPlain "failures" := by decide
  obtain ⟨none, line⟩ : isSpace "" ∧ isSpace "\n" := by decide
  refine ⟨"", [memberLine "files_scanned" t.scanned "", memberLine "files_changed" t.changed "",
    memberLine "removals" t.removals "", memberLine "failures" t.failures "\n"], "\n",
    none, line, ?_, ?_⟩
  · exact .cons (isMember_memberLine scanned none _) <|
      .cons (isMember_memberLine changed none _) <|
      .cons (isMember_memberLine removals none _) <|
      .cons (isMember_memberLine failures line _) .nil
  · unfold tallyText memberLine
    apply String.toList_inj.1
    generalize toString t.scanned = scanned
    generalize toString t.changed = changed
    generalize toString t.removals = removals
    generalize toString t.failures = failures
    simp

/-! ## Truth -/

/-- A run without a configuration changes nothing, and says why. -/
structure GaveUp (disk : Disk) (e : ConfigError) (w : World) : Prop where
  status : w.status = 1
  disk : w.disk = disk
  output : printedOn .output w.printed = ""
  error : printedOn .error w.printed = e.text

/-- What a run leaves tells the truth of what its walk left. -/
structure Truthful (json : Bool) (walked w : World) : Prop where
  disk : w.disk = walked.disk
  /-- The walk's own count is that of the messages that were told. -/
  told : (Note.errors walked.notes).length = walked.tally.failures
  complaints : (w.printed.filter isComplaint).length = walked.tally.failures
  status : w.status = if 0 < walked.tally.failures then 1 else 0
  output : printedOn .output w.printed =
    if json then tallyText walked.tally
    else String.join ((Note.infos walked.notes).map (· ++ "\n"))
  object : json → IsObject (counts walked.tally) (printedOn .output w.printed)
  error : printedOn .error w.printed =
    String.join ((Note.messages walked.notes).filterMap (errorLine? json)) ++
      if 0 < walked.tally.failures then unswept walked.tally.failures else ""

theorem Truthful.of_close {h : Host} {json : Bool} {walked w : World}
    (printed : walked.printed = (Note.messages walked.notes).flatMap (console json))
    (status : walked.status = 0)
    (told : (Note.errors walked.notes).length = walked.tally.failures)
    (apart : ∀ text ∈ Note.infos walked.notes, Walk.begins Walk.complaint text = false)
    (closed : World.runScript h (close json) walked = (.ok (), w)) : Truthful json walked w := by
  rw [runScript_close, printed, told, status] at closed
  cases closed
  have output : printedOn .output ((Note.messages walked.notes).flatMap (console json) ++
      closing json walked.tally walked.tally.failures) =
        if json then tallyText walked.tally
        else String.join ((Note.infos walked.notes).map (· ++ "\n")) := by
    rw [printedOn_append, printedOn_output, printedOn_output_closing, Note.infos_eq_filterMap]
    cases json with
    | false => exact String.append_empty
    | true => exact String.empty_append
  refine ⟨rfl, told, ?_, rfl, output, ?_, ?_⟩
  · rw [Note.infos_eq_filterMap] at apart
    rw [List.filter_append, filter_isComplaint_closing, List.append_nil, length_complaints apart,
      ← Note.errors_eq_filterMap, told]
  · rintro rfl
    rw [output]
    exact tallyText_isObject _
  · rw [printedOn_append, printedOn_error, printedOn_error_closing]

/-- The surroundings of a run in a directory. -/
def host (cwd : Place) (json : Bool) : Host := ⟨cwd, console json, fun _ => none⟩

/-- A walk of the system comes to its end and leaves this world. -/
def Walks (S : System) (plan : Plan) (p : Path) (before walked : World) : Prop :=
  ∃ T crew, Did (.start (walk plan S.host.cwd.path p)) T crew ∧ crew.lead = .done ∧
    World.Mets S before T walked

/-- What a run leaves, by what came of its configuration. -/
def Tells (S : System) (o : Options) (disk : Disk) : Except ConfigError Config → World → Prop
  | .error e, w => GaveUp disk e w
  | .ok c, w => ∃ before walked : World,
      (before.disk = disk ∧ before.tally = .zero ∧ Note.messages before.notes = []) ∧
        Walks S (Plan.ofConfig c) (o.path.getD S.host.cwd.path) before walked ∧
        Truthful o.json walked w

section

variable {S : System} {cwd : Place} {T : List Act} {crew : Crew} {w : World}

/-- A walk, and the end of the run behind it. -/
theorem truthful_of_did {json : Bool} {plan : Plan} {p : Path} {before : World}
    (here : S.host = host cwd json) (honest : S.Honest)
    (fresh : before.tally = .zero ∧ Note.messages before.notes = [] ∧ before.printed = [] ∧
      before.status = 0)
    (did : Did (.start ((walk plan S.host.cwd.path p).followedBy (close json).job)) T crew)
    (ended : crew.Ended) (mets : World.Mets S before T w) :
    crew.lead = .done ∧ ∃ walked, Walks S plan p before walked ∧ Truthful json walked w := by
  have taken (m : Message) : S.host.refuses m = none := by rw [here]; rfl
  have unrefused {T : List Act} {w w' : World} (mets : World.Mets S w T w') {m : Message}
      {report : String} (mem : .refused m report ∈ T) : False := mets.refuses mem rfl (taken m)
  obtain ⟨no_counts, no_messages, no_prints, no_status⟩ := fresh
  rcases did.of_followedBy ended with ⟨T₁, T₂, tasks, rfl, walks, closes⟩ | ⟨report, tasks, walks, -⟩
  · obtain ⟨walked, mets₁, mets₂⟩ := mets.of_append
    have finished := (Walk.walked_of_did walks trivial).finished trivial
      fun ⟨_, _, act, mem, refused⟩ => mets₁.refuses mem refused (taken _)
    have idle : ∀ c ∈ tasks, c.Ended := by
      cases finished with
      | mk _ each => exact fun c mem => (each c mem).ended
    have asks := (Walk.walk_seemly plan S.host.cwd.path p).asks walks
    obtain ⟨printed, status⟩ := mets₁.printed_eq honest taken fun act mem =>
      (asks act mem).mono fun _ => Walk.Seemly.silent
    have messages : Note.messages walked.notes = Note.messages (told T₁) := by
      rw [mets₁.notes_eq honest taken, Note.messages_append, no_messages, List.nil_append]
    have infos : Note.infos walked.notes = Note.infos (told T₁) := by
      rw [Note.infos_eq_filterMap, messages, ← Note.infos_eq_filterMap]
    have errors : Note.errors walked.notes = Note.errors (told T₁) := by
      rw [Note.errors_eq_filterMap, messages, ← Note.errors_eq_filterMap]
    have counted : walked.tally = (spent Walk.sums T₁).1 := by
      rw [Walk.tally_eq_of_mets honest mets₁, no_counts]
      exact zero_add _
    have balanced := ((Walk.walked_of_did walks trivial).closed Walk.discreet_sums rfl
      finished).balanced counted
    obtain ⟨down, -, x, plays, whole⟩ := Walk.job_did closes idle ended
    rcases down with done | ⟨m, report, mem, -⟩
    · refine ⟨done, walked, ⟨T₁, _, walks, rfl, mets₁⟩, ?_⟩
      have closed := (whole done ▸ plays).runScript_eq
        ((close_books json).mono fun r book w a w' answered => honest.book book answered) mets₂
      refine .of_close ?_ (status.trans no_status) ?_ ?_ closed
      · rw [printed, no_prints, List.nil_append, messages, here]
        rfl
      · rw [errors, balanced.failures]
      · rw [infos]
        exact Walk.begins_of_told asks
    · exact (unrefused mets₂ mem).elim
  · rcases (Walk.walked_of_did walks trivial).down trivial with done | ⟨m, report, mem, -⟩
    · cases done
    · exact (unrefused mets mem).elim

/-- Whatever the order of turns was in which a run came to its end. -/
theorem tells_of_did {env : Environment} {o : Options} {disk : Disk}
    (here : S.host = host cwd o.json) (honest : S.Honest)
    (did : Did (.start (job env cwd.path o)) T crew) (ended : crew.Ended)
    (mets : World.Mets S (.start disk) T w) :
    crew.lead = .done ∧ ∃ result T₁ T₂, T = T₁ ++ T₂ ∧
      (configure env cwd.path o).Plays T₁ (some result) ∧ Tells S o disk result w := by
  have at_cwd : S.host.cwd = cwd := by rw [here]; rfl
  have unrefused {T : List Act} {w w' : World} (mets : World.Mets S w T w') {m : Message}
      {report : String} (mem : .refused m report ∈ T) : False :=
    mets.refuses mem rfl (by rw [here]; rfl)
  rcases did.of_andThen (List.forall_mem_nil _) ended with
    ⟨result, T₁, T₂, rfl, plays, did⟩ | ⟨-, m, report, mem, -⟩
  · obtain ⟨w₁, mets₁, mets₂⟩ := mets.of_append
    obtain ⟨events, rfl⟩ := mets₁.logs honest ((configure_only env cwd.path o).asks plays)
    cases result with
    | error e =>
      obtain ⟨down, -, x, gaveUp, whole⟩ := Walk.job_did did (List.forall_mem_nil _) ended
      rcases down with done | ⟨m, report, mem, -⟩
      · have ran := (whole done ▸ gaveUp).runScript_eq
          ((giveUp_books _).mono fun r book w a w' answered => honest.book book answered) mets₂
        rw [runScript_giveUp] at ran
        cases ran
        exact ⟨done, _, _, _, rfl, plays, rfl, rfl, by simp [printedOn, World.start],
          by simp [printedOn, World.start]⟩
      · exact (unrefused mets₂ mem).elim
    | ok c =>
      cases did with
      | refl => exact ended.elim
      | head does did =>
        cases does with
        | inside _ at_i _ => cases at_i
        | ask answer =>
          cases mets₂ with
          | cons met mets₂ =>
            cases honest.book rfl met.2
            have no_messages : Note.messages ([] ++ events.map .event ++ [.event Program.configured])
                = [] := by
              rw [List.nil_append, Note.messages_append, Note.messages_map_event]
              rfl
            subst at_cwd
            obtain ⟨done, walked, walks, truthful⟩ :=
              truthful_of_did here honest ⟨rfl, no_messages, rfl, rfl⟩ did ended mets₂
            exact ⟨done, _, _, _, rfl, plays, _, walked, ⟨rfl, rfl, no_messages⟩, walks, truthful⟩
  · exact (unrefused mets mem).elim

end

/-- **Truth**: a run whose arguments are understood either has no configuration, and then it changes
    nothing and fails; or it walks, and then the exit status, the counts and both channels tell what
    the walk left.  So it is in whatever order the parts of the run take turns and whatever the file
    system answers, and so it is of `run`. -/
theorem run_tells_truth {args : List (List UInt8)} {o : Options}
    (accepted : Options.ofArguments args = .ok o) (env : Environment) (cwd : Place) (disk : Disk) :
    (∀ S : System, S.host = host cwd o.json → S.Honest →
      (job env cwd.path o).Ends S (fun T crew w => crew.report? = none ∧
        ∃ result, (configure env cwd.path o).replay? T = some result ∧ Tells S o disk result w)
        (.start disk)) ∧
    ∃ result w,
      (World.runScript (host cwd o.json) (configure env cwd.path o) (.start disk)).1 = .ok result ∧
      Tells (host cwd o.json).system o disk result w ∧
      (run env cwd args disk).status = w.status ∧
      (run env cwd args disk).output = printedOn .output w.printed ∧
      (run env cwd args disk).error = printedOn .error w.printed ∧
      (run env cwd args disk).disk = w.disk := by
  constructor
  · intro S here honest
    refine Job.ends_of_traces fun T crew w did ended mets => ?_
    obtain ⟨done, result, T₁, T₂, rfl, plays, tells⟩ := tells_of_did here honest did ended mets
    exact ⟨congrArg Job.report? done, result, plays.replay?_append T₂, tells⟩
  · -- the run in which the tasks are put off is one of the runs
    obtain ⟨T, crew, did, ended, -, mets⟩ :=
      World.run_did (h := host cwd o.json) (job env cwd.path o) (.start disk)
    obtain ⟨-, result, T₁, T₂, rfl, plays, tells⟩ :=
      tells_of_did rfl (host cwd o.json).system_honest did ended mets
    obtain ⟨w₁, mets₁, -⟩ := mets.of_append
    have configured := plays.runScript_eq
      ((configure_only env cwd.path o).mono fun _ _ _ _ _ answered => answered) mets₁
    refine ⟨result, world env cwd o disk, congrArg Prod.fst configured, tells, ?_⟩
    · rw [run, accepted]
      exact ⟨rfl, rfl, rfl, rfl⟩

end Program

/-! ### Nothing to sweep -/

namespace NothingThere

/-- The counts are asked for, and a path that is not there. -/
def args : List (List UInt8) := ["--json".toUTF8.data.toList, "gone".toUTF8.data.toList]

def options : Options := { Options.none with path := some (.ofString "gone"), json := true }

def env : Environment := ⟨none, none, none⟩

theorem accepted : Options.ofArguments args = .ok options := by decide +kernel

theorem dir_of_entry {x : Place} {e : Entry} (entry : Disk.empty.entry? x = some e) : e = .dir := by
  rw [Disk.entry?] at entry
  split at entry
  · cases entry
    rfl
  · cases entry

/-- There is no file to read. -/
theorem layer_eq_empty (cwd : Place) (p : Path) : Settings.layer .empty cwd p = .empty := by
  have unread (bytes : ByteArray) : Disk.empty.read cwd p ≠ .ok bytes := by
    intro read
    rw [Disk.read] at read
    cases found : Disk.empty.find cwd p with
    | error e =>
      rw [found] at read
      cases read
    | ok place =>
      obtain ⟨x, e⟩ := place
      obtain ⟨-, -, entry⟩ := Disk.find_eq_ok_iff.1 found
      cases dir_of_entry entry
      rw [found] at read
      cases read
  rw [Settings.layer, Settings.textOf]
  cases read : Disk.empty.read cwd p with
  | error e => rfl
  | ok bytes => exact absurd read (unread bytes)

/-- What is to be swept. -/
def root : Path := Path.absolute (Place.path []) (.ofString "gone")

theorem stat_root : Disk.empty.stat [] root = .error .noEntry := by
  have check : Disk.checkPath root = .ok () := by decide +kernel
  have components : root.components = [.down ⟨"gone".toUTF8.data.toList, by decide⟩] := by
    decide +kernel
  have located : Disk.empty.locate false maxLinks (Disk.origin [] root) root.components =
      .ok [⟨"gone".toUTF8.data.toList, by decide⟩] := by
    rw [components]
    exact Disk.locate_of_leads (.vacant (by decide +kernel) (by decide) rfl)
  rw [Disk.stat, Disk.find, check, located]
  rfl

/-- So a walk counts one failure and no more. -/
theorem tally_of_walk {plan : Plan} {before walked : World} (disk : before.disk = .empty)
    (walks : Program.Walks (Program.host [] true).system plan (.ofString "gone") before walked) :
    walked.disk = .empty ∧ walked.tally = before.tally + ⟨0, 0, 0, 1⟩ := by
  obtain ⟨T, crew, did, done, mets⟩ := walks
  have ended : crew.Ended := by
    rw [Crew.Ended, done]
    trivial
  cases did with
  | refl => cases done
  | head does did =>
    cases does with
    | inside _ at_i _ => cases at_i
    | ask answer =>
      cases mets with
      | cons met mets =>
        obtain ⟨-, met⟩ := met
        have failed : (before.disk.stat [] root, before) = (answer, _) := met
        rw [disk, stat_root] at failed
        cases failed
        obtain ⟨-, -, x, plays, whole⟩ := Walk.job_did did (List.forall_mem_nil _) ended
        have ran := (whole done ▸ plays).runScript_eq
          ((Walk.fail_books _).mono fun _ _ _ _ _ answered => answered) mets
        unfold Walk.fail at ran
        change World.runScript _ (.ask (.count _) fun _ => .ask (.note (.event _)) fun _ =>
          .ask (.note (.message _)) fun _ => .done ()) before = _ at ran
        rw [World.runScript_ask_of_free rfl, World.runScript_ask_of_free rfl,
          World.runScript_ask_of_free rfl] at ran
        cases ran
        exact ⟨disk, rfl⟩

/-- The run says so, and changes nothing. -/
theorem run_tells_truth_nothing_there :
    Options.ofArguments args = .ok options ∧
      (Program.run env [] args .empty).status = 1 ∧
      (Program.run env [] args .empty).output = Program.tallyText ⟨0, 0, 0, 1⟩ ∧
      (Program.run env [] args .empty).disk = .empty := by
  obtain ⟨-, result, w, configured, tells, status, output, -, disk⟩ :=
    Program.run_tells_truth accepted env [] .empty
  have resolved : ∃ c, result = .ok c := by
    have loaded : Settings.loaded .empty (Program.host [] true).cwd env (Place.path [])
        options.conf = .ok .empty := by
      show Except.ok (Settings.stack [_, Settings.layer .empty [] _, Settings.layer .empty [] _]) = _
      rw [layer_eq_empty, layer_eq_empty]
      rfl
    have looks := Program.configure_looks (h := Program.host [] true) (d := .empty) env
      (Place.path []) options
    rw [loaded] at looks
    cases configured.symm.trans (looks.runScript (w := .start .empty)).1
    exact ⟨_, rfl⟩
  obtain ⟨c, rfl⟩ := resolved
  obtain ⟨before, walked, ⟨same, fresh, -⟩, walks, truthful⟩ := tells
  obtain ⟨unchanged, failures⟩ := tally_of_walk same walks
  rw [fresh] at failures
  rw [status, output, disk, truthful.status, truthful.output, truthful.disk, failures]
  exact ⟨accepted, rfl, rfl, unchanged⟩

end NothingThere

end CallSweep
