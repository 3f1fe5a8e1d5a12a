/-
  Which requests a program can come to make, and what a run is like for making no others.

  1. **Requests** (`Script.Only`, `Job.Only`) — some property holds of each request of a program,
     whatever it is answered.  A trace of the program then asks nothing else (`Job.Only.asks`).

  2. **Scripts** — a script that was played while a world met its acts is one that the world has
     carried out (`Script.Plays.runScript_eq`).

  3. **Requests in passing** — a program that only looks and adds to the log leaves the world as it
     is, but for the log (`World.Mets.logs`).

  4. **Printing** — a program that asks for nothing to be printed and sets no exit status still
     prints its messages, and these only (`World.Mets.printed_eq`).
-/
import CallSweep.Proofs.Run.Scripts
import CallSweep.Proofs.Run.Trace

namespace CallSweep

/-! ## Requests -/

/-- What is asked in an act, be it refused or not, has the property. -/
def Act.Asks (P : Request → Prop) : Act → Prop
  | .asked r _ => P r
  | .refused m _ => P (.note (.message m))
  | .spawned _ | .joined _ => True
  | .inside _ act => act.Asks P

theorem Act.Asks.mono {P Q : Request → Prop} {act : Act} (imp : ∀ r, P r → Q r)
    (asks : act.Asks P) : act.Asks Q := by
  induction act with
  | asked r answer => exact imp r asks
  | refused m report => exact imp _ asks
  | spawned _ | joined _ => trivial
  | inside i act ih => exact ih asks

/-- What is told in an act is asked for. -/
theorem Act.Asks.told {P : Request → Prop} {act : Act} {n : Note} (asks : act.Asks P)
    (told : act.told? = some n) : P (.note n) := by
  induction act with
  | asked r answer =>
    cases r with
    | note n' =>
      cases told
      exact asks
    | _ => cases told
  | refused m report =>
    cases told
    exact asks
  | spawned _ | joined _ => cases told
  | inside i act ih => exact ih asks told

namespace Script

variable {α β : Type} {P : Request → Prop}

/-- Each request of a script has the property. -/
def Only (P : Request → Prop) : Script α → Prop
  | .done _ => True
  | .ask r next => P r ∧ ∀ a, (next a).Only P

namespace Only

variable {s : Script α}

theorem bind {f : α → Script β} (first : s.Only P) (second : ∀ a, (f a).Only P) :
    (s.bind f).Only P := by
  induction s with
  | done a => exact second a
  | ask r next ih => exact ⟨first.1, fun a => ih a (first.2 a)⟩

theorem request {r : Request} (here : P r) : (Script.request r).Only P :=
  ⟨here, fun _ => trivial⟩

theorem mono {Q : Request → Prop} (imp : ∀ r, P r → Q r) (only : s.Only P) : s.Only Q := by
  induction s with
  | done a => trivial
  | ask r next ih => exact ⟨imp r only.1, fun a => ih a (only.2 a)⟩

/-- A script of free requests is free. -/
theorem costs {M : Type} [AddCommMonoid M] {b : Ledger M} (only : s.Only fun r => b.cost r = 0) :
    s.Costs b 0 := by
  induction s with
  | done a => exact .done
  | ask r next ih => exact .free only.1 fun a => ih a (only.2 a)

theorem asks {T : List Act} {x : Option α} (only : s.Only P) (plays : s.Plays T x) :
    ∀ act ∈ T, act.Asks P := by
  induction plays with
  | done => exact List.forall_mem_nil _
  | ask _ ih => exact List.forall_mem_cons.2 ⟨only.1, ih (only.2 _)⟩
  | refused => exact List.forall_mem_cons.2 ⟨only.1, List.forall_mem_nil _⟩

end Only

end Script

namespace Job

variable {P : Request → Prop}

/-- Each request of a job and of its tasks has the property. -/
inductive Only (P : Request → Prop) : Job → Prop
  | done : Only P .done
  | crashed {report : String} : Only P (.crashed report)
  | ask {r : Request} {next : r.Answer → Job} (here : P r) (rest : ∀ a, Only P (next a)) :
      Only P (.ask r next)
  | spawn {task next : Job} (apart : Only P task) (rest : Only P next) : Only P (.spawn task next)
  | join {next : List String → Job} (rest : ∀ reports, Only P (next reports)) :
      Only P (.join next)

namespace Only

theorem andThen {α : Type} {s : Script α} {f : α → Job} (first : s.Only P)
    (second : ∀ a, (f a).Only P) : (s.andThen f).Only P := by
  induction s with
  | done a => exact second a
  | ask r next ih => exact .ask first.1 fun a => ih a (first.2 a)

theorem job {s : Script Unit} (only : s.Only P) : s.job.Only P := .andThen only fun _ => .done

theorem followedBy {job job₂ : Job} (first : job.Only P) (second : job₂.Only P) :
    (job.followedBy job₂).Only P := by
  induction first with
  | done => exact second
  | crashed => exact .crashed
  | ask here _ ih => exact .ask here ih
  | spawn apart _ _ ih => exact .spawn apart ih
  | join _ ih => exact .join ih

end Only

end Job

namespace Crew

/-- Each request of a crew has the property. -/
inductive Only (P : Request → Prop) : Crew → Prop
  | mk {lead : Job} {tasks : List Crew} (lead_only : lead.Only P) (each : ∀ c ∈ tasks, Only P c) :
      Only P ⟨lead, tasks⟩

/-- What a crew does is among its requests, and so is what it does later. -/
theorem Only.does {P : Request → Prop} {crew crew' : Crew} {act : Act} (only : crew.Only P)
    (does : Does crew act crew') : act.Asks P ∧ crew'.Only P := by
  induction does with
  | ask answer =>
    cases only with
    | mk lead each =>
      cases lead with
      | ask here rest => exact ⟨here, .mk (rest answer) each⟩
  | refuse report =>
    cases only with
    | mk lead each =>
      cases lead with
      | ask here rest => exact ⟨here, .mk .crashed each⟩
  | spawn =>
    cases only with
    | mk lead each =>
      cases lead with
      | spawn apart rest =>
        refine ⟨trivial, .mk rest fun c mem => ?_⟩
        rcases List.mem_append.1 mem with mem | mem
        · exact each c mem
        · exact List.mem_singleton.1 mem ▸ .mk apart (List.forall_mem_nil _)
  | join ended told =>
    cases only with
    | mk lead each =>
      cases lead with
      | join rest => exact ⟨trivial, .mk (rest _) each⟩
  | inside going at_i _ ih =>
    cases only with
    | mk lead each =>
      obtain ⟨asks, only'⟩ := ih (each _ (List.mem_of_getElem? at_i))
      refine ⟨asks, .mk lead fun c mem => ?_⟩
      rcases List.mem_or_eq_of_mem_set mem with mem | rfl
      · exact each c mem
      · exact only'

end Crew

theorem Job.Only.asks {P : Request → Prop} {job : Job} {crew : Crew} {T : List Act}
    (only : job.Only P) (did : Crew.Did (.start job) T crew) : ∀ act ∈ T, act.Asks P := by
  have go {crew crew' : Crew} {T : List Act} (only : crew.Only P) (did : Crew.Did crew T crew') :
      ∀ act ∈ T, act.Asks P := by
    induction did with
    | refl => exact List.forall_mem_nil _
    | head does _ ih =>
      obtain ⟨asks, rest⟩ := only.does does
      exact List.forall_mem_cons.2 ⟨asks, ih rest⟩
  exact go (.mk only (List.forall_mem_nil _)) did

/-! ## Scripts -/

/-- A world that meets what a script has played carries the script out, if it lets nothing down or
    the script has nothing to do with the file system. -/
theorem Script.Plays.runScript_eq {α : Type} {S : System} {s : Script α} {T : List Act} {a : α}
    {w w' : World}
    (sure : s.Only fun r => ∀ w a w', S.answers w r a w' → w.answer S.host r = (a, w'))
    (plays : s.Plays T (some a)) (mets : World.Mets S w T w') :
    World.runScript S.host s w = (.ok a, w') := by
  generalize whole : some a = x at plays
  induction plays generalizing w with
  | done =>
    cases whole
    cases mets
    rfl
  | ask _ ih =>
    cases mets with
    | cons met mets =>
      obtain ⟨here, rest⟩ := sure
      rw [World.runScript_ask_of_free met.1, here _ _ _ met.2]
      exact ih (rest _) mets whole
  | refused => cases whole

/-! ## Requests in passing -/

/-- Whether a request looks at something or adds to the log. -/
def Request.isAside : Request → Bool
  | .stat _ | .list _ | .next _ _ | .read _ | .resolve _ | .tally | .complaints
  | .note (.event _) => true
  | _ => false

theorem Act.Met.logs {S : System} (honest : S.Honest) {w w' : World} {act : Act}
    (aside : act.Asks fun r => r.isAside = true) (met : act.Met S w w') :
    ∃ events : List LogEvent, w' = { w with notes := w.notes ++ events.map .event } := by
  have same (w : World) : w = { w with notes := w.notes ++ ([] : List LogEvent).map .event } := by
    rw [List.map_nil, List.append_nil]
  induction act with
  | asked r a =>
    rcases r.isLook_or with look | change | book
    · rw [honest.look look met.2]
      exact ⟨[], same w⟩
    · cases r with
      | write _ _ | chmod _ _ | rename _ _ | remove _ => cases aside
      | _ => cases change
    · have after : w' = (w.answer S.host r).2 := (congrArg Prod.snd (honest.book book met.2)).symm
      subst after
      cases r with
      | note n =>
        cases n with
        | event e => exact ⟨[e], rfl⟩
        | message m => cases aside
      | tally | complaints => exact ⟨[], same w⟩
      | count _ | print _ _ | exit _ => cases aside
      | _ => cases book
  | refused m report => cases aside
  | spawned _ | joined _ =>
    rw [show w' = w from met]
    exact ⟨[], same w⟩
  | inside i act ih => exact ih aside met

/-- Requests in passing leave the world as it is, but for the log. -/
theorem World.Mets.logs {S : System} (honest : S.Honest) {w w' : World} {T : List Act}
    (aside : ∀ act ∈ T, act.Asks fun r => r.isAside = true) (mets : World.Mets S w T w') :
    ∃ events : List LogEvent, w' = { w with notes := w.notes ++ events.map .event } := by
  induction mets with
  | @nil w =>
    refine ⟨[], ?_⟩
    rw [List.map_nil, List.append_nil]
  | cons met _ ih =>
    obtain ⟨here, rest⟩ := List.forall_mem_cons.1 aside
    obtain ⟨events, rfl⟩ := met.logs honest here
    obtain ⟨events', rfl⟩ := ih rest
    refine ⟨events ++ events', ?_⟩
    rw [List.map_append, List.append_assoc]

/-! ## Printing -/

/-- The text of a message of what was done. -/
def Message.info? : Message → Option String
  | .info text => some text
  | .error _ => none

/-- The text of a message of what failed. -/
def Message.error? : Message → Option String
  | .info _ => none
  | .error text => some text

namespace Note

/-- The messages among some notes. -/
def messages (notes : List Note) : List Message :=
  notes.filterMap fun
    | .message m => some m
    | .event _ => none

theorem messages_append (notes notes' : List Note) :
    messages (notes ++ notes') = messages notes ++ messages notes' := List.filterMap_append

theorem messages_map_event (events : List LogEvent) : messages (events.map .event) = [] := by
  rw [messages, List.filterMap_map]
  exact List.filterMap_eq_nil_iff.2 fun _ _ => rfl

theorem infos_eq_filterMap (notes : List Note) :
    infos notes = (messages notes).filterMap Message.info? := by
  rw [infos, messages, List.filterMap_filterMap]
  refine List.filterMap_congr fun note _ => ?_
  rcases note with ⟨_ | _⟩ | _ <;> rfl

theorem errors_eq_filterMap (notes : List Note) :
    errors notes = (messages notes).filterMap Message.error? := by
  rw [errors, messages, List.filterMap_filterMap]
  refine List.filterMap_congr fun note _ => ?_
  rcases note with ⟨_ | _⟩ | _ <;> rfl

end Note

/-- Whether a request neither prints nor sets the exit status. -/
def Request.isSilent : Request → Bool
  | .print _ _ | .exit _ => false
  | _ => true

theorem Act.Met.printed_eq {S : System} (honest : S.Honest) {w w' : World} {act : Act}
    (taken : ∀ m, S.host.refuses m = none) (silent : act.Asks fun r => r.isSilent = true)
    (met : act.Met S w w') :
    w'.printed = w.printed ++ (Note.messages act.told?.toList).flatMap S.host.prints ∧
      w'.status = w.status := by
  induction act with
  | asked r a =>
    have unsaid (no_book : r.isLook = true ∨ r.isChange = true) :
        w.printed = w.printed ++
          (Note.messages (Act.asked r a).told?.toList).flatMap S.host.prints := by
      cases r with
      | note n => rcases no_book with no_book | no_book <;> cases no_book
      | _ => exact (List.append_nil _).symm
    rcases r.isLook_or with look | change | book
    · rw [honest.look look met.2]
      exact ⟨unsaid (.inl look), rfl⟩
    · obtain ⟨disk, rfl⟩ := honest.change change met.2
      exact ⟨unsaid (.inr change), rfl⟩
    · have after : (w.answer S.host r).2 = w' := congrArg Prod.snd (honest.book book met.2)
      rw [← after]
      cases r with
      | note n =>
        cases n with
        | message m =>
          refine ⟨?_, rfl⟩
          show w.printed ++ S.host.prints m = w.printed ++ [m].flatMap S.host.prints
          rw [List.flatMap_singleton]
        | event e => exact ⟨(List.append_nil _).symm, rfl⟩
      | count _ | tally | complaints => exact ⟨(List.append_nil _).symm, rfl⟩
      | print _ _ | exit _ => cases silent
      | _ => cases book
  | refused m report => cases (taken m).symm.trans met.1
  | spawned _ | joined _ =>
    rw [show w' = w from met]
    exact ⟨(List.append_nil _).symm, rfl⟩
  | inside i act ih => exact ih silent met

/-- **Printing**: where nothing is refused, acts that ask for no printing print what is told in
    them. -/
theorem World.Mets.printed_eq {S : System} (honest : S.Honest) {w w' : World} {T : List Act}
    (taken : ∀ m, S.host.refuses m = none)
    (silent : ∀ act ∈ T, act.Asks fun r => r.isSilent = true) (mets : World.Mets S w T w') :
    w'.printed = w.printed ++ (Note.messages (told T)).flatMap S.host.prints ∧
      w'.status = w.status := by
  induction mets with
  | nil => exact ⟨(List.append_nil _).symm, rfl⟩
  | cons met _ ih =>
    obtain ⟨here, rest⟩ := List.forall_mem_cons.1 silent
    obtain ⟨printed, status⟩ := ih rest
    obtain ⟨printed₁, status₁⟩ := met.printed_eq honest taken here
    rw [printed, status, printed₁, status₁, told_cons, Note.messages_append, List.flatMap_append,
      List.append_assoc]
    exact ⟨rfl, rfl⟩

end CallSweep
