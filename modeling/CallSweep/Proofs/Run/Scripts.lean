/-
  Scripts that are carried out by themselves, or while others work elsewhere.

  1. **By itself** — `World.runScript` meets one request after the other, and the second of two
     scripts begins where the first one ends (`World.runScript_bind`).  A run that is refused
     nothing can be told step by step (`Script.Ends`).

  2. **Regions** (`Disk.AgreeOn`) — a region is a set of places, and two disks agree on it if they
     look the same there.

  3. **Among others** (`Script.Gives`) — a script that nothing is refused or fails but for what the
     disk holds, on a region that nobody else changes.  Of the rest of the disk it may take for
     granted an invariant `I` that all keep.  It changes nothing outside the region, keeps `I`, and
     comes to its end with a property of its result and of the disk.  It does so by itself as well
     (`Script.Gives.runScript`).
-/
import Mathlib.Data.Set.Basic
import CallSweep.Proofs.Disk.View
import CallSweep.Proofs.Run.Interleaving

namespace CallSweep

/-! ## By themselves -/

namespace World

variable {h : Host} {r : Request} {w w' : World} {α β : Type}

theorem runScript_ask_of_free {next : r.Answer → Script α} (free : refusal h r = none) :
    runScript h (.ask r next) w = runScript h (next (w.answer h r).1) (w.answer h r).2 := by
  simp only [runScript, Script.exec, StateT.run_bind]
  rw [show (perform h r).run w = _ from perform_of_free free]
  rfl

theorem runScript_ask_of_refused {next : r.Answer → Script α} {report : String}
    (refused : refusal h r = some report) :
    runScript h (.ask r next) w = (.error report, w) := by
  simp only [runScript, Script.exec, StateT.run_bind]
  rw [show (perform h r).run w = _ from perform_of_refused refused]
  rfl

/-- The second script begins where the first one ends, unless that one crashes. -/
theorem runScript_bind (s : Script α) (f : α → Script β) (w : World) :
    runScript h (s.bind f) w = match runScript h s w with
      | (.ok a, w') => runScript h (f a) w'
      | (.error report, w') => (.error report, w') := by
  induction s generalizing w with
  | done a => rfl
  | ask r next ih =>
    rw [Script.ask_bind]
    cases free : refusal h r with
    | none => rw [runScript_ask_of_free free, runScript_ask_of_free free, ih]
    | some report => rw [runScript_ask_of_refused free, runScript_ask_of_refused free]

/-- Both parts of a script that gives a result give one. -/
theorem exists_of_runScript_bind {s : Script α} {f : α → Script β} {b : β}
    (ran : runScript h (s.bind f) w = (.ok b, w')) :
    ∃ a w₁, runScript h s w = (.ok a, w₁) ∧ runScript h (f a) w₁ = (.ok b, w') := by
  rw [runScript_bind] at ran
  rcases first : runScript h s w with ⟨report | a, w₁⟩
  · rw [first] at ran
    cases ran
  · rw [first] at ran
    exact ⟨a, w₁, rfl, ran⟩

end World

namespace Script

variable {h : Host} {w w' w'' : World} {α β : Type}

/-- The script, run by itself and never refused, gives a result and leaves a world. -/
inductive Ends (h : Host) : Script α → World → α → World → Prop
  | done {a : α} {w : World} : Ends h (.done a) w a w
  | ask {r : Request} {next : r.Answer → Script α} {b : r.Answer} {a : α} {w w' w'' : World}
      (free : World.refusal h r = none) (answered : w.answer h r = (b, w'))
      (rest : Ends h (next b) w' a w'') : Ends h (.ask r next) w a w''

theorem Ends.bind {s : Script α} {f : α → Script β} {a : α} {b : β} (first : Ends h s w a w')
    (second : Ends h (f a) w' b w'') : Ends h (s.bind f) w b w'' := by
  induction first with
  | done => exact second
  | ask free answered _ ih => exact .ask free answered (ih second)

theorem Ends.runScript {s : Script α} {a : α} (ends : Ends h s w a w') :
    World.runScript h s w = (.ok a, w') := by
  induction ends with
  | done => rfl
  | ask free answered _ ih =>
    rw [World.runScript_ask_of_free free, answered]
    exact ih

end Script

/-! ## Regions -/

namespace Disk

/-- Whether the places of a region look the same on two disks. -/
def AgreeOn (region : Set Place) (d d' : Disk) : Prop := ∀ x ∈ region, d'.view x = d.view x

namespace AgreeOn

variable {region part : Set Place} {d d' d'' : Disk}

theorem refl : AgreeOn region d d := fun _ _ => rfl

theorem trans (first : AgreeOn region d d') (second : AgreeOn region d' d'') :
    AgreeOn region d d'' := fun x hx => (second x hx).trans (first x hx)

theorem mono (sub : part ⊆ region) (agree : AgreeOn region d d') : AgreeOn part d d' :=
  fun x hx => agree x (sub hx)

/-- A change at one place is seen nowhere else. -/
theorem of_update {x : Place} {node : Option Node} (hx : x ∈ region)
    (updated : d'.view = Function.update d.view x node) : AgreeOn regionᶜ d d' := by
  intro y hy
  rw [updated]
  exact Function.update_of_ne (fun same : y = x => hy (same ▸ hx)) node d.view

end AgreeOn

end Disk

open Disk (AgreeOn)

/-! ## Among others -/

namespace Script

/-- The script owns the region, is never refused, and ends with `Q` of its result and the disk. -/
inductive Gives (h : Host) (I : Disk → Prop) (region : Set Place) {α : Type}
    (Q : α → Disk → Prop) : Script α → Disk → Prop
  | done {a : α} {d : Disk} (holds : Q a d) : Gives h I region Q (.done a) d
  | ask {r : Request} {next : r.Answer → Script α} {d : Disk} (free : World.refusal h r = none)
      (kept : ∀ w : World, I w.disk → AgreeOn region d w.disk →
        I (w.answer h r).2.disk ∧ AgreeOn regionᶜ w.disk (w.answer h r).2.disk)
      (rest : ∀ w : World, I w.disk → AgreeOn region d w.disk →
        Gives h I region Q (next (w.answer h r).1) (w.answer h r).2.disk) :
      Gives h I region Q (.ask r next) d

namespace Gives

variable {h : Host} {I : Disk → Prop} {region : Set Place} {α β : Type} {Q : α → Disk → Prop}
  {s : Script α} {d : Disk}

/-- A request that changes the disk on the region at most, and the script that is left then. -/
theorem change {r : Request} {next : r.Answer → Script α} (free : World.refusal h r = none)
    (does : ∀ w : World, I w.disk → AgreeOn region d w.disk →
      ∃ a w', w.answer h r = (a, w') ∧ I w'.disk ∧ AgreeOn regionᶜ w.disk w'.disk ∧
        Gives h I region Q (next a) w'.disk) : Gives h I region Q (.ask r next) d := by
  refine .ask free ?_ ?_
  · intro w i agree
    obtain ⟨a, w', answered, i', off, -⟩ := does w i agree
    rw [answered]
    exact ⟨i', off⟩
  · intro w i agree
    obtain ⟨a, w', answered, -, -, rest⟩ := does w i agree
    rw [answered]
    exact rest

/-- A request that looks only. -/
theorem look {r : Request} {next : r.Answer → Script α} (free : World.refusal h r = none)
    (does : ∀ w : World, I w.disk → AgreeOn region d w.disk →
      ∃ a, w.answer h r = (a, w) ∧ Gives h I region Q (next a) w.disk) :
    Gives h I region Q (.ask r next) d := by
  refine change free fun w i agree => ?_
  obtain ⟨a, answered, rest⟩ := does w i agree
  exact ⟨a, w, answered, i, .refl, rest⟩

/-- A request that neither changes the disk nor depends on it. -/
theorem pass {r : Request} {next : r.Answer → Script α} (free : World.refusal h r = none)
    (still : ∀ w : World, (w.answer h r).2.disk = w.disk)
    (rest : ∀ a d', I d' → AgreeOn region d d' → Gives h I region Q (next a) d') :
    Gives h I region Q (.ask r next) d := by
  refine change free fun w i agree => ⟨(w.answer h r).1, (w.answer h r).2, rfl, ?_, ?_, ?_⟩
  · rwa [still w]
  · rw [still w]
    exact .refl
  · rw [still w]
    exact rest _ w.disk i agree

theorem mono {Q' : α → Disk → Prop} (g : Gives h I region Q s d)
    (imp : ∀ a d', Q a d' → Q' a d') : Gives h I region Q' s d := by
  induction g with
  | done holds => exact .done (imp _ _ holds)
  | ask free kept _ ih => exact .ask free kept ih

theorem bind {R : β → Disk → Prop} {f : α → Script β} (g : Gives h I region Q s d) (i : I d)
    (second : ∀ a d', I d' → Q a d' → Gives h I region R (f a) d') :
    Gives h I region R (s.bind f) d := by
  induction g with
  | done holds => exact second _ _ i holds
  | ask free kept _ ih => exact .ask free kept fun w i agree => ih w i agree (kept w i agree).1

/-- The script by itself. -/
theorem runScript {w : World} (g : Gives h I region Q s w.disk) (i : I w.disk) :
    ∃ a, (World.runScript h s w).1 = .ok a ∧ Q a (World.runScript h s w).2.disk := by
  generalize start : w.disk = d at g
  induction g generalizing w with
  | done holds =>
    subst start
    exact ⟨_, rfl, holds⟩
  | @ask r next d free kept _ ih =>
    subst start
    obtain ⟨a, result, holds⟩ := ih w i .refl (kept w i .refl).1 rfl
    rw [World.runScript_ask_of_free free]
    exact ⟨a, result, holds⟩

end Gives

end Script

end CallSweep
