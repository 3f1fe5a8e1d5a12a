/-
  What a diff says, and what it does to a text.

  1. **Hunks** (`Hunk`) — lines that stay, go or come, with the range in each of two texts that they
     are said to make up there.

  2. **Applying** (`applyFrom`) is strict: the hunks stand one behind the other, as many lines lie in
     front of each in the new text as in the old one, the ranges are as long as the lines say, and
     the lines that stay or go are those of the text.

  3. **Placed** (`Placed`) — the same as a relation between two texts, which does not tell the two
     apart: what leads from one to the other, turned round, leads back (`Placed.swap`).
-/
import Mathlib.Data.List.Infix
import Mathlib.Data.Option.Basic

namespace CallSweep.Diff

/-! ## Hunks -/

/-- What a diff says of a line. -/
inductive Mark where
  | keep
  | delete
  | insert
  deriving DecidableEq, Repr

/-- A line of a diff. -/
structure Line where
  mark : Mark
  text : String
  deriving DecidableEq, Repr

/-- Some lines of a text, told by the number of lines in front of them and by their own. -/
structure Range where
  start : Nat
  len : Nat
  deriving DecidableEq, Repr

/-- The number of lines in front of what is behind a range. -/
def Range.stop (r : Range) : Nat := r.start + r.len

structure Hunk where
  old : Range
  new : Range
  lines : List Line
  deriving DecidableEq, Repr

/-- The lines of the old text that a diff shows. -/
def oldSide (ls : List Line) : List String := (ls.filter (·.mark ≠ .insert)).map (·.text)

/-- The lines of the new text that a diff shows. -/
def newSide (ls : List Line) : List String := (ls.filter (·.mark ≠ .delete)).map (·.text)

@[simp] theorem oldSide_append (ls ms : List Line) :
    oldSide (ls ++ ms) = oldSide ls ++ oldSide ms := by
  simp [oldSide]

@[simp] theorem newSide_append (ls ms : List Line) :
    newSide (ls ++ ms) = newSide ls ++ newSide ms := by
  simp [newSide]

theorem oldSide_map (m : Mark) (texts : List String) :
    oldSide (texts.map fun t => ⟨m, t⟩) = if m = .insert then [] else texts := by
  induction texts with
  | nil => simp [oldSide]
  | cons t texts ih => cases m <;> simp_all [oldSide]

theorem newSide_map (m : Mark) (texts : List String) :
    newSide (texts.map fun t => ⟨m, t⟩) = if m = .delete then [] else texts := by
  induction texts with
  | nil => simp [newSide]
  | cons t texts ih => cases m <;> simp_all [newSide]

/-! ## Turning round -/

/-- What a mark says when the two texts change places. -/
def Mark.swap : Mark → Mark
  | .keep => .keep
  | .delete => .insert
  | .insert => .delete

def Line.swap (l : Line) : Line := { l with mark := l.mark.swap }

/-- The hunk that leads back. -/
def Hunk.swap (h : Hunk) : Hunk := ⟨h.new, h.old, h.lines.map Line.swap⟩

@[simp] theorem oldSide_swap (ls : List Line) : oldSide (ls.map Line.swap) = newSide ls := by
  induction ls with
  | nil => rfl
  | cons l ls ih =>
    simp only [oldSide, newSide] at ih ⊢
    obtain ⟨m, text⟩ := l
    cases m <;> simpa [Line.swap, Mark.swap] using ih

@[simp] theorem newSide_swap (ls : List Line) : newSide (ls.map Line.swap) = oldSide ls := by
  induction ls with
  | nil => rfl
  | cons l ls ih =>
    simp only [oldSide, newSide] at ih ⊢
    obtain ⟨m, text⟩ := l
    cases m <;> simpa [Line.swap, Mark.swap] using ih

/-! ## Applying -/

/-- The text that hunks make of `text`, in front of which lie `i` lines of the old and `j` lines of
    the new text. -/
def applyFrom (i j : Nat) (text : List String) : List Hunk → Option (List String)
  | [] => some text
  | h :: hs =>
    let gap := h.old.start - i
    if i ≤ h.old.start ∧ h.new.start = j + gap ∧ h.old.len = (oldSide h.lines).length ∧
        h.new.len = (newSide h.lines).length ∧ gap ≤ text.length ∧
        oldSide h.lines <+: text.drop gap
    then
      (applyFrom h.old.stop h.new.stop (text.drop (gap + h.old.len)) hs).map
        (text.take gap ++ newSide h.lines ++ ·)
    else none

/-- Hunks that lead from one text to another, in front of which lie `i` and `j` lines. -/
inductive Placed : Nat → Nat → List String → List String → List Hunk → Prop where
  | rest (i j : Nat) (text : List String) : Placed i j text text []
  | hunk {i j : Nat} {old new : List String} {h : Hunk} {hs : List Hunk} (gap : List String)
      (hold : h.old = ⟨i + gap.length, (oldSide h.lines).length⟩)
      (hnew : h.new = ⟨j + gap.length, (newSide h.lines).length⟩)
      (behind : Placed h.old.stop h.new.stop old new hs) :
      Placed i j (gap ++ (oldSide h.lines ++ old)) (gap ++ (newSide h.lines ++ new)) (h :: hs)

section Placed

variable {i j : Nat} {old new : List String} {hs : List Hunk}

theorem Placed.swap (h : Placed i j old new hs) : Placed j i new old (hs.map Hunk.swap) := by
  induction h with
  | rest => exact .rest ..
  | @hunk i j old new h hs gap hold hnew _ ih =>
    have := Placed.hunk (h := h.swap) gap (i := j) (j := i) (by simpa [Hunk.swap] using hnew)
      (by simpa [Hunk.swap] using hold) ih
    simpa [Hunk.swap] using this

/-- **Applying finds the text that the hunks lead to**, and no other. -/
theorem applyFrom_eq_some_iff : applyFrom i j old hs = some new ↔ Placed i j old new hs := by
  constructor
  · intro h
    induction hs generalizing i j old new with
    | nil =>
      obtain rfl : old = new := by simpa [applyFrom] using h
      exact .rest ..
    | cons hunk hs ih =>
      rw [applyFrom] at h
      split at h
      · next fits =>
        obtain ⟨hi, hj, hold, hnew, short, behind, hbehind⟩ := fits
        obtain ⟨new', rest, rfl⟩ := Option.map_eq_some_iff.1 h
        -- the old text is the gap, the hunk's old side and what is behind
        have gap : (old.take (hunk.old.start - i)).length = hunk.old.start - i := by
          rw [List.length_take, Nat.min_eq_left short]
        have hdrop : old.drop (hunk.old.start - i + hunk.old.len) = behind := by
          rw [← List.drop_drop, ← hbehind, hold, List.drop_left]
        have whole : old = old.take (hunk.old.start - i) ++ (oldSide hunk.lines ++ behind) := by
          rw [hbehind, List.take_append_drop]
        rw [hdrop] at rest
        have := Placed.hunk (i := i) (j := j) (h := hunk) (old.take (hunk.old.start - i))
          (by rw [gap, ← hold, Nat.add_sub_cancel' hi]) (by rw [gap, ← hnew, ← hj]) (ih rest)
        rwa [← whole, ← List.append_assoc] at this
      · cases h
  · intro h
    induction h with
    | rest => rfl
    | @hunk i j old new h hs gap hold hnew _ ih =>
      have hstart : h.old.start - i = gap.length := by simp [hold]
      have hdrop : (gap ++ (oldSide h.lines ++ old)).drop (gap.length + h.old.len) = old := by
        rw [← List.drop_drop, List.drop_left, hold, List.drop_left]
      rw [applyFrom, if_pos]
      · rw [hstart, hdrop, ih, List.take_left, Option.map_some, List.append_assoc]
      · rw [hstart, List.drop_left]
        refine ⟨by simp [hold], by simp [hnew], by simp [hold], by simp [hnew], by simp, ?_⟩
        exact List.prefix_append ..

/-- Whether the first of some hunks has as many lines in front of it in both texts, and the last as
    many behind it, the texts having `m` and `n` lines. -/
def EndsAlike (m n : Nat) (hs : List Hunk) : Prop :=
  (∀ h ∈ hs.head?, h.old.start = h.new.start) ∧ ∀ h ∈ hs.getLast?, h.old.stop + n = h.new.stop + m

/-- Where hunks lead from one text to another, both are cut off alike at the two ends. -/
theorem Placed.ends (h : Placed i j old new hs) :
    (∀ h ∈ hs.head?, h.old.start + j = h.new.start + i) ∧
      ∀ h ∈ hs.getLast?, h.old.stop + (j + new.length) = h.new.stop + (i + old.length) := by
  induction h with
  | rest => simp
  | @hunk i j old new h hs gap hold hnew behind ih =>
    refine ⟨?_, ?_⟩
    · rintro _ ⟨⟩
      rw [hold, hnew]
      dsimp only
      omega
    · intro last hlast
      have hold' : h.old.stop = i + gap.length + (oldSide h.lines).length := by rw [hold, Range.stop]
      have hnew' : h.new.stop = j + gap.length + (newSide h.lines).length := by rw [hnew, Range.stop]
      cases hs with
      | nil =>
        obtain rfl : h = last := by simpa using hlast
        cases behind
        simp only [List.length_append]
        omega
      | cons next hs =>
        have := ih.2 last (by simpa using hlast)
        simp only [List.length_append]
        omega

theorem Placed.endsAlike (h : Placed 0 0 old new hs) : EndsAlike old.length new.length hs := by
  obtain ⟨first, last⟩ := h.ends
  exact ⟨fun h hh => by simpa using first h hh, fun h hh => by simpa using last h hh⟩

end Placed

end CallSweep.Diff
