/-
  The middle of a shortest edit script, by Myers' search from both ends.

  A path through the edit graph of two stretches of lines takes a step to the right for a line
  that is deleted, down for one that is inserted, and along the diagonal, free of cost, for equal
  lines.  On the diagonal `k = x - y`, `forward.get k` is the furthest `x` that a path of the cost
  looked at so far reaches from the start, and `backward.get k` the same from the end.  Where the
  two meet lies the middle, and both halves can be searched on their own.

  Nothing below depends on the answer being the middle: any point of the graph splits the problem,
  and `Script` takes no other answer.
-/
import CallSweep.Diff.Edit

namespace CallSweep.Diff

/-! ## Frontiers -/

/-- A number for every diagonal from `-centre` on. -/
structure Frontier where
  centre : Nat
  cells : Array Nat

namespace Frontier

/-- All zero, on the diagonals from `-size` up to `size - 1`. -/
def zero (size : Nat) : Frontier := ⟨size, Array.replicate (2 * size) 0⟩

def get (f : Frontier) (k : Int) : Nat := f.cells.getD (k + f.centre).toNat 0

def set (f : Frontier) (k : Int) (x : Nat) : Frontier :=
  { f with cells := f.cells.setIfInBounds (k + f.centre).toNat x }

/-- Where a path of cost `d` comes onto the diagonal `k`: from above or from the left, whichever
    has come further. -/
def entry (f : Frontier) (d : Nat) (k : Int) : Nat :=
  if k = -d ∨ (k ≠ d ∧ f.get (k - 1) < f.get (k + 1)) then f.get (k + 1) else f.get (k - 1) + 1

end Frontier

/-- The frontiers of the two searches. -/
structure Frontiers where
  forward : Frontier
  backward : Frontier

/-! ## The search -/

/-- Two stretches of lines, each told by its first line and its length. -/
structure Window where
  old : Nat
  oldLen : Nat
  new : Nat
  newLen : Nat

namespace Window

/-- The diagonal that the end of the window is on. -/
def delta (w : Window) : Int := w.oldLen - w.newLen

/-- Most rounds that a search needs, one more than half of the lines. -/
def rounds (w : Window) : Nat := (w.oldLen + w.newLen + 1) / 2 + 1

variable (a b : Array String) (w : Window)

/-- Takes the forward search one diagonal further.  Answers with where the path came onto it if it
    meets the backward search there. -/
def forwardStep (d : Nat) (k : Int) (f : Frontiers) : Frontiers × Option (Nat × Nat) :=
  let x := f.forward.entry d k
  let y : Int := x - k
  let run :=
    if 0 ≤ y then
      runAhead a b (w.old + x) (w.new + y.toNat) (min (w.oldLen - x) (w.newLen - y.toNat))
    else 0
  let f := { f with forward := f.forward.set k (x + run) }
  if w.delta % 2 = 1 ∧ ((k - w.delta).natAbs : Int) ≤ d - 1 ∧
      w.oldLen ≤ f.forward.get k + f.backward.get (w.delta - k)
  then (f, some (x, y.toNat))
  else (f, none)

/-- The same from the end, where the window is read backwards. -/
def backwardStep (d : Nat) (k : Int) (f : Frontiers) : Frontiers × Option (Nat × Nat) :=
  let x := f.backward.entry d k
  let y : Int := x - k
  let run :=
    if 0 ≤ y then
      let n := w.oldLen - x
      let m := w.newLen - y.toNat
      runBack a b (w.old + n) (w.new + m) (min n m)
    else 0
  let f := { f with backward := f.backward.set k (x + run) }
  if w.delta % 2 = 0 ∧ (k - w.delta).natAbs ≤ d ∧
      w.oldLen ≤ f.backward.get k + f.forward.get (w.delta - k)
  then (f, some (w.oldLen - (x + run), w.newLen - (y + run).toNat))
  else (f, none)

/-- One step on each of the diagonals `d`, `d - 2`, …, `-d`, of which the last `left` are still to
    be done, until one meets the other search. -/
def diagonals (step : Int → Frontiers → Frontiers × Option (Nat × Nat)) (d : Nat) :
    (left : Nat) → Frontiers → Frontiers × Option (Nat × Nat)
  | 0, f => (f, none)
  | left + 1, f =>
    match step (2 * left - d) f with
    | (f, some point) => (f, some point)
    | (f, none) => diagonals step d left f

/-- Rounds of the two searches, from the cost `d` on. -/
def search : (rounds d : Nat) → Frontiers → Frontiers × Option (Nat × Nat)
  | 0, _, f => (f, none)
  | rounds + 1, d, f =>
    match diagonals (w.forwardStep a b d) d (d + 1) f with
    | (f, some point) => (f, some point)
    | (f, none) =>
      match diagonals (w.backwardStep a b d) d (d + 1) f with
      | (f, some point) => (f, some point)
      | (f, none) => search rounds (d + 1) f

/-- A point in the middle of a shortest edit script of the window, as lines from its two starts.
    The frontiers come from earlier searches; only their first diagonals are reset. -/
def middle (f : Frontiers) : Frontiers × Option (Nat × Nat) :=
  w.search a b w.rounds 0 ⟨f.forward.set 1 0, f.backward.set 1 0⟩

end Window

end CallSweep.Diff
