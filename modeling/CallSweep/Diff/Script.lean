/-
  Edit scripts by dividing and conquering.

  The lines that two stretches have in common at their two ends are equal; what is left between
  them is split at its middle, and both halves are treated alike.  A split that would leave
  everything in one half is not taken, so that the halves are smaller than the whole: the lines of
  the one stretch are then deleted and those of the other inserted.
-/
import CallSweep.Diff.Middle

namespace CallSweep.Diff

/-- Whether a point splits a window into two that are both smaller. -/
def Window.Splits (w : Window) (x y : Nat) : Prop :=
  x ≤ w.oldLen ∧ y ≤ w.newLen ∧ 0 < x + y ∧ x + y < w.oldLen + w.newLen

instance (w : Window) (x y : Nat) : Decidable (w.Splits x y) :=
  inferInstanceAs (Decidable (_ ∧ _ ∧ _ ∧ _))

/-- The edits that lead from the old stretch of a window to the new one.  The frontiers are handed
    from search to search. -/
def Window.edits (a b : Array String) (w : Window) (f : Frontiers) : List Edit × Frontiers :=
  let ahead := runAhead a b w.old w.new (min w.oldLen w.newLen)
  let i := w.old + ahead
  let j := w.new + ahead
  let back := runBack a b (w.old + w.oldLen) (w.new + w.newLen)
    (min (w.oldLen - ahead) (w.newLen - ahead))
  let inner : Window := ⟨i, w.oldLen - ahead - back, j, w.newLen - ahead - back⟩
  let between : List Edit × Frontiers :=
    if inner.newLen = 0 then
      if inner.oldLen = 0 then ([], f) else ([⟨.delete, i, j, inner.oldLen⟩], f)
    else if inner.oldLen = 0 then ([⟨.insert, i, j, inner.newLen⟩], f)
    else
      let replaced : List Edit := [⟨.delete, i, j, inner.oldLen⟩, ⟨.insert, i, j, inner.newLen⟩]
      match inner.middle a b f with
      | (f, none) => (replaced, f)
      | (f, some (x, y)) =>
        if _ : inner.Splits x y then
          let (first, f) := Window.edits a b ⟨i, x, j, y⟩ f
          let (second, f) :=
            Window.edits a b ⟨i + x, inner.oldLen - x, j + y, inner.newLen - y⟩ f
          (first ++ second, f)
        else (replaced, f)
  (Edit.equals w.old w.new ahead ++ between.1 ++
      Edit.equals (i + inner.oldLen) (j + inner.newLen) back, between.2)
  termination_by w.oldLen + w.newLen
  decreasing_by
    all_goals
      have h1 : inner.oldLen ≤ w.oldLen := by simp only [inner]; omega
      have h2 : inner.newLen ≤ w.newLen := by simp only [inner]; omega
      obtain ⟨hx, hy, hlow, hhigh⟩ := ‹inner.Splits x y›
      omega

/-- The edits that lead from one text to another. -/
def script (a b : Array String) : List Edit :=
  let w : Window := ⟨0, a.size, 0, b.size⟩
  (w.edits a b ⟨.zero w.rounds, .zero w.rounds⟩).1

end CallSweep.Diff
