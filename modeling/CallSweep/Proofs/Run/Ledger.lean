/-
  The books of a run.

  What a run counts and tells adds up, whatever the order: a `Ledger` says what is entered for each
  count and each note, in a commutative monoid of the reader's choice.  All other requests cost
  nothing.

  A script costs `e` (`Script.Costs`) if it does so on every branch.  Scripts that neither count nor
  tell cost nothing, whatever they are answered.
-/
import Mathlib.Algebra.BigOperators.Group.List.Basic
import Mathlib.Algebra.GroupWithZero.Nat
import CallSweep.Run.World

namespace CallSweep

/-! ## Counts -/

namespace Tally

@[simp] theorem mk_add_mk (s c r f s' c' r' f' : Nat) :
    (⟨s, c, r, f⟩ + ⟨s', c', r', f'⟩ : Tally) = ⟨s + s', c + c', r + r', f + f'⟩ := rfl

instance : Zero Tally := ⟨.zero⟩

theorem zero_def : (0 : Tally) = ⟨0, 0, 0, 0⟩ := rfl

instance : AddCommMonoid Tally where
  add_assoc := by
    rintro ⟨⟩ ⟨⟩ ⟨⟩
    simp [Nat.add_assoc]
  zero_add := by
    rintro ⟨⟩
    simp [zero_def]
  add_zero := by
    rintro ⟨⟩
    simp [zero_def]
  add_comm := by
    rintro ⟨⟩ ⟨⟩
    simp [Nat.add_comm]
  nsmul := nsmulRec

end Tally

/-! ## Ledgers -/

/-- What is entered for a count and for a note. -/
structure Ledger (M : Type) where
  count : Tally → M
  note : Note → M

namespace Ledger

variable {M : Type} [AddCommMonoid M]

/-- What is entered for a request. -/
def cost (b : Ledger M) : Request → M
  | .count t => b.count t
  | .note n => b.note n
  | _ => 0

end Ledger

/-! ## Scripts -/

namespace Script

variable {M : Type} [AddCommMonoid M] {b : Ledger M} {α β : Type}

/-- Every branch of the script enters the same in the books. -/
inductive Costs (b : Ledger M) : Script α → M → Prop
  | done {a : α} : Costs b (.done a) 0
  | ask {r : Request} {next : r.Answer → Script α} {e : M} (rest : ∀ a, Costs b (next a) e) :
      Costs b (.ask r next) (b.cost r + e)

namespace Costs

/-- A request that is free. -/
theorem free {r : Request} {next : r.Answer → Script α} {e : M} (no_cost : b.cost r = 0)
    (rest : ∀ a, Costs b (next a) e) : Costs b (.ask r next) e := by
  have costs := Costs.ask rest
  rwa [no_cost, zero_add] at costs

theorem bind {s : Script α} {f : α → Script β} {e e' : M} (first : s.Costs b e)
    (second : ∀ a, (f a).Costs b e') : (s.bind f).Costs b (e + e') := by
  induction first with
  | done =>
    rw [zero_add]
    exact second _
  | ask _ ih =>
    rw [add_assoc]
    exact .ask ih

/-- Scripts that cost nothing, one after the other. -/
theorem bind_free {s : Script α} {f : α → Script β} (first : s.Costs b 0)
    (second : ∀ a, (f a).Costs b 0) : (s.bind f).Costs b 0 := by
  have costs := first.bind second
  rwa [add_zero] at costs

theorem request (r : Request) : (Script.request r).Costs b (b.cost r) := by
  have costs : (Script.request r).Costs b (b.cost r + 0) := .ask fun _ => .done
  rwa [add_zero] at costs

end Costs

end Script

end CallSweep
