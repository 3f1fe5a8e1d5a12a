/-
  Programs that do one thing after the other.

  A `Script` is a tree: at each node a request and a branch for every answer, at each leaf a
  result.  `do` blocks build scripts, and `Script.exec` carries one out, given how the requests
  are met.  A request may be refused; then the script has crashed, with a report.
-/
import CallSweep.Run.Request

namespace CallSweep

/-- A program with a result. -/
inductive Script (α : Type) where
  | done (a : α)
  | ask (r : Request) (next : r.Answer → Script α)

namespace Script

variable {α β : Type}

/-- A script, then another one that depends on its result. -/
protected def bind : Script α → (α → Script β) → Script β
  | .done a, f => f a
  | .ask r next, f => .ask r fun a => (next a).bind f

instance : Monad Script where
  pure := .done
  bind := Script.bind

/-- The script that asks one thing. -/
def request (r : Request) : Script r.Answer := .ask r .done

/-- Carries a script out.  The error is the report of a crash. -/
def exec {m : Type → Type} [Monad m] (perform : (r : Request) → m (Except String r.Answer)) :
    Script α → m (Except String α)
  | .done a => pure (.ok a)
  | .ask r next => do
    match ← perform r with
    | .ok a => (next a).exec perform
    | .error report => pure (.error report)

/-! ## Binding -/

@[simp] theorem done_bind (a : α) (f : α → Script β) : (Script.done a).bind f = f a := rfl

@[simp] theorem ask_bind (r : Request) (next : r.Answer → Script α) (f : α → Script β) :
    (Script.ask r next).bind f = .ask r fun a => (next a).bind f := rfl

theorem bind_done (s : Script α) : s.bind .done = s := by
  induction s with
  | done a => rfl
  | ask r next ih => simp only [ask_bind, ih]

theorem bind_assoc {γ : Type} (s : Script α) (f : α → Script β) (g : β → Script γ) :
    (s.bind f).bind g = s.bind fun a => (f a).bind g := by
  induction s with
  | done a => rfl
  | ask r next ih => simp only [ask_bind, ih]

end Script

end CallSweep
