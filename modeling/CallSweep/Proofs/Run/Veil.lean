/-
  Systems that let different runs down in the same way.

  Under a system that may fail any request at any time (`Host.faulty`), two runs over the same disk
  need have nothing in common.  What makes them comparable is that what may not be looked at stays
  the same: a missing right, or a directory whose entries do not tell what they are.

  1. **Veils** (`Veil`) — of which paths a look is denied, and why.

  2. **Answers** (`World.VeiledAnswer`) — a look that is not denied is met as the disk has it.  What
     changes the disk may fail in any way, at any time.

  3. **Reading** (`readSource_owns_veiled`) — what is read of a file depends on the veil and the bytes
     alone.
-/
import CallSweep.Proofs.Source.Amid

namespace CallSweep

open Disk (AgreeOn Frame)

/-! ## Veils -/

/-- Why looks at some paths are denied. -/
structure Veil where
  stat : Path → Option OsError
  read : Path → Option OsError
  list : Path → Option OsError
  /-- Why an entry does not tell of what kind it is. -/
  kind : Path → Option OsError

namespace Veil

/-- The veil that hides nothing. -/
def clear : Veil := ⟨fun _ => none, fun _ => none, fun _ => none, fun _ => none⟩

/-- What is answered, unless that is denied. -/
def hide {α : Type} (denied : Option OsError) (answer : Except OsError α) : Except OsError α :=
  match denied with
  | some e => .error e
  | none => answer

theorem hide_eq_ok_iff {α : Type} {denied : Option OsError} {answer : Except OsError α} {a : α} :
    hide denied answer = .ok a ↔ denied = none ∧ answer = .ok a := by
  cases denied <;> simp [hide]

/-- How a listing goes on. -/
def next (ρ : Veil) {p : Path} (l : Listing p) : (Request.next p l).Answer :=
  .ok (l.next?.map fun ((name, kind), rest) => ((name, hide (ρ.kind (p.child name)) (.ok kind)), rest))

end Veil

/-! ## Answers -/

/-- A request may be answered so behind a veil. -/
def World.VeiledAnswer (h : Host) (ρ : Veil) (w : World) : (r : Request) → r.Answer → World → Prop
  | .stat p, answer, w' => answer = Veil.hide (ρ.stat p) (w.disk.stat h.cwd p) ∧ w' = w
  | .read p, answer, w' => answer = Veil.hide (ρ.read p) (w.disk.read h.cwd p) ∧ w' = w
  | .list p, answer, w' => answer = Veil.hide (ρ.list p) (w.disk.list h.cwd p) ∧ w' = w
  | .next _ l, answer, w' => answer = ρ.next l ∧ w' = w
  | r, answer, w' => World.MayAnswer h w r answer w'

/-- The system of a host behind a veil. -/
def Host.veiled (h : Host) (ρ : Veil) : System where
  host := h
  answers := World.VeiledAnswer h ρ
  total w r free := by
    cases r with
    | stat _ | read _ | list _ | next _ _ => exact ⟨_, _, rfl, rfl⟩
    | _ => exact ⟨_, _, .met free rfl⟩

namespace World.VeiledAnswer

variable {h : Host} {ρ : Veil} {w w' : World} {p : Path}

theorem goes {l : Listing p} {answer : (Request.next p l).Answer}
    (veiled : VeiledAnswer h ρ w (.next p l) answer w') : l.Goes answer := by
  obtain ⟨rfl, -⟩ := veiled
  rw [Veil.next]
  cases comes : l.next? with
  | none => exact .ended comes
  | some next =>
    obtain ⟨⟨name, kind⟩, rest⟩ := next
    show l.Goes (.ok (some ((name, Veil.hide (ρ.kind (p.child name)) (.ok kind)), rest)))
    cases ρ.kind (p.child name) with
    | none => exact .entry comes
    | some e => exact .untold e comes

/-- A look that is denied is one of the requests that fail. -/
theorem mayAnswer {r : Request} {answer : r.Answer} (unlisted : r.isListing = false)
    (free : World.refusal h r = none) (veiled : VeiledAnswer h ρ w r answer w') :
    MayAnswer h w r answer w' := by
  cases r with
  | stat p =>
    obtain ⟨rfl, rfl⟩ := veiled
    cases ρ.stat p with
    | none => exact .met free rfl
    | some e => exact .failed e rfl
  | read p =>
    obtain ⟨rfl, rfl⟩ := veiled
    cases ρ.read p with
    | none => exact .met free rfl
    | some e => exact .failed e rfl
  | list _ | next _ _ => cases unlisted
  | _ => exact veiled

end World.VeiledAnswer

theorem Host.veiled_fair (h : Host) (ρ : Veil) : (h.veiled ρ).Fair where
  look {w r a w'} look answered := by
    cases r with
    | stat _ | read _ | list _ | next _ _ => exact answered.2
    | resolve p => exact (World.MayAnswer.of_resolve answered).1
    | _ => cases look
  change {w r a w'} change answered := by
    cases r with
    | write _ _ | chmod _ _ | rename _ _ | remove _ => exact h.faulty_honest.change rfl answered
    | _ => cases change
  book {w r a w'} book answered := by
    cases r with
    | count _ | tally | note _ | complaints | print _ _ | exit _ =>
      exact World.MayAnswer.of_book rfl answered
    | _ => cases book
  may unlisted free answered := World.VeiledAnswer.mayAnswer unlisted free answered
  lists answered := Disk.find_of_list (Veil.hide_eq_ok_iff.1 answered.1.symm).2
  nexts answered := World.VeiledAnswer.goes (h := h) answered

/-! ## Reading -/

/-- The text of some bytes, unless a look at them is denied. -/
def Veil.text? (ρ : Veil) (limit : Nat) (p : Path) (bytes : ByteArray) : Option String :=
  if (ρ.stat p).isSome || (ρ.read p).isSome then none else (admitted limit bytes).toOption

section

variable {h : Host} {ρ : Veil} {I : Disk → Prop} {own region : Set Place} {d₀ d : Disk} {p : Path}
  {x : Place} {bytes : ByteArray} {permissions : Nat} {T : List Act}

/-- What is read of a file while others are worked on. -/
theorem readSource_owns_veiled (frame : ∀ d', I d' → Frame own d₀ d')
    (names : d₀.Names h.cwd p x) (hx : x ∈ region)
    (shown : d.view x = some (.file bytes permissions)) (limit : Nat) :
    (readSource p limit).Owns (h.veiled ρ) I region
      (fun _ result _ => result.toOption = ρ.text? limit p bytes) T d := by
  have honest := (h.veiled_fair ρ).toHonest
  rw [Veil.text?]
  refine .look honest rfl fun w a kept agree answered => ?_
  obtain ⟨n, file, rfl, -⟩ := Disk.exists_inode_of_view ((agree x hx).trans shown)
  rw [show a = _ from answered.1, (names.of_frame (frame _ kept)).stat_file file]
  cases ρ.stat p with
  | some e => rfl
  | none =>
    show Script.Owns _ I region _ (if limit < (w.disk.inode n).bytes.size then _ else _) _ _
    by_cases large : limit < (w.disk.inode n).bytes.size
    · rw [if_pos large]
      show none = _
      rw [admitted, if_pos large]
      exact (ite_self _).symm
    · rw [if_neg large]
      refine .look honest rfl fun w' a kept' agree' answered' => ?_
      -- the bytes are still the same, although others may have worked in between
      have shown' := (agree' x hx).trans (Disk.view_of_entry file)
      obtain ⟨m, file', same, -⟩ := Disk.exists_inode_of_view shown'
      rw [show a = _ from answered'.1, (names.of_frame (frame _ kept')).read_file file', ← same]
      cases ρ.read p with
      | some e => rfl
      | none =>
        show (plainText (w'.disk.inode m).bytes).toOption = (admitted limit _).toOption
        rw [admitted, if_neg (same ▸ large)]

end

end CallSweep
