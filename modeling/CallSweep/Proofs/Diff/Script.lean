/-
  What an edit script says about two texts.

  1. **In step** (`InStep`) — a list of things that each take lines of the old and of the new text,
     one behind the other.  Where a thing stands is the sum of what is in front of it, whatever
     places it has written down for itself.

  2. **Fitting** (`Edit.Fits`) — an edit fits where it stands if it takes a line at least, and
     writes down the right place in each text *that it takes lines of*: an equality in both, and
     its lines are equal; a deletion in the old text, an insertion in the new one.  The other place
     of a deletion or an insertion is free, and the compaction does not keep it right.

  3. **The script** (`inStep_script`) — dividing and conquering gives a script that fits from the
     heads of both texts to their ends.  By induction on the lines of the window, in four parts: what
     both have in common at their heads, two halves (or one block that replaces all), and what they
     have in common at their ends.
-/
import Mathlib.Algebra.GroupWithZero.Nat
import Mathlib.Data.List.Basic
import CallSweep.Diff.Script

namespace CallSweep.Diff

/-! ## In step -/

section InStep

variable {α : Type} (old new : α → Nat) (fits : Nat → Nat → α → Prop)

/-- Things that stand one behind the other, from line `i` of the old and line `j` of the new text
    on, and each fit there. -/
def InStep : Nat → Nat → List α → Prop
  | _, _, [] => True
  | i, j, x :: xs => fits i j x ∧ InStep (i + old x) (j + new x) xs

/-- Lines that things take together. -/
def total (len : α → Nat) (xs : List α) : Nat := (xs.map len).sum

@[simp] theorem total_nil (len : α → Nat) : total len [] = 0 := rfl

@[simp] theorem total_cons (len : α → Nat) (x : α) (xs : List α) :
    total len (x :: xs) = len x + total len xs := by
  simp [total]

@[simp] theorem total_append (len : α → Nat) (xs ys : List α) :
    total len (xs ++ ys) = total len xs + total len ys := by
  simp [total]

variable {old new fits}

@[simp] theorem inStep_nil {i j : Nat} : InStep old new fits i j [] := trivial

@[simp] theorem inStep_cons {i j : Nat} {x : α} {xs : List α} :
    InStep old new fits i j (x :: xs) ↔
      fits i j x ∧ InStep old new fits (i + old x) (j + new x) xs := Iff.rfl

theorem inStep_append {i j : Nat} {xs ys : List α} :
    InStep old new fits i j (xs ++ ys) ↔
      InStep old new fits i j xs ∧
        InStep old new fits (i + total old xs) (j + total new xs) ys := by
  induction xs generalizing i j with
  | nil => simp
  | cons x xs ih => simp [ih, and_assoc, Nat.add_assoc]

end InStep

/-! ## Runs of equal lines -/

section Runs

variable {a b : Array String} {i j most k : Nat}

theorem agree_iff : agree a b i j = true ↔ ∃ line, a[i]? = some line ∧ b[j]? = some line := by
  unfold agree
  constructor
  · intro h
    split at h
    · next x y hx hy => exact ⟨x, hx, (beq_iff_eq.1 h) ▸ hy⟩
    · cases h
  · rintro ⟨line, hx, hy⟩
    simp [hx, hy]

/-- Two texts agree on `n` lines from `i` and `j` on. -/
def AgreeFor (a b : Array String) (i j n : Nat) : Prop :=
  ∀ k < n, agree a b (i + k) (j + k) = true

namespace AgreeFor

variable {m n : Nat}

theorem none : AgreeFor a b i j 0 := fun k hk => absurd hk (Nat.not_lt_zero k)

theorem append (h : AgreeFor a b i j m) (h' : AgreeFor a b (i + m) (j + m) n) :
    AgreeFor a b i j (m + n) := by
  intro k hk
  by_cases first : k < m
  · exact h k first
  · have := h' (k - m) (by omega)
    rwa [Nat.add_assoc, Nat.add_assoc, Nat.add_sub_cancel' (by omega)] at this

theorem take (h : AgreeFor a b i j n) (hm : m ≤ n) : AgreeFor a b i j m :=
  fun k hk => h k (by omega)

theorem drop (h : AgreeFor a b i j n) (m : Nat) : AgreeFor a b (i + m) (j + m) (n - m) := by
  intro k hk
  have := h (m + k) (by omega)
  rwa [← Nat.add_assoc, ← Nat.add_assoc] at this

end AgreeFor

theorem agreeFor_runAhead (a b : Array String) (i j most : Nat) :
    AgreeFor a b i j (runAhead a b i j most) := by
  induction most generalizing i j with
  | zero => exact .none
  | succ most ih =>
    rw [runAhead]
    split
    · next here =>
      have first : AgreeFor a b i j 1 := fun k hk => by
        obtain rfl : k = 0 := by omega
        exact here
      rw [Nat.add_comm]
      exact first.append (ih (i + 1) (j + 1))
    · exact .none

theorem runBack_le_left : runBack a b i j most ≤ i := by
  induction most generalizing i j with
  | zero => exact Nat.zero_le i
  | succ most ih =>
    rw [runBack]
    split
    · next here =>
      have := ih (i := i - 1) (j := j - 1)
      simp only [Bool.and_eq_true, decide_eq_true_eq] at here
      omega
    · exact Nat.zero_le i

theorem runBack_le_right : runBack a b i j most ≤ j := by
  induction most generalizing i j with
  | zero => exact Nat.zero_le j
  | succ most ih =>
    rw [runBack]
    split
    · next here =>
      have := ih (i := i - 1) (j := j - 1)
      simp only [Bool.and_eq_true, decide_eq_true_eq] at here
      omega
    · exact Nat.zero_le j

/-- The lines of a run backwards, counted from its first line. -/
theorem agreeFor_runBack (a b : Array String) (i j most : Nat) :
    AgreeFor a b (i - runBack a b i j most) (j - runBack a b i j most) (runBack a b i j most) := by
  induction most generalizing i j with
  | zero => exact .none
  | succ most ih =>
    have hi : runBack a b (i - 1) (j - 1) most ≤ i - 1 := runBack_le_left
    have hj : runBack a b (i - 1) (j - 1) most ≤ j - 1 := runBack_le_right
    rw [runBack]
    split
    · next here =>
      simp only [Bool.and_eq_true, decide_eq_true_eq] at here
      have last : AgreeFor a b (i - 1) (j - 1) 1 := fun k hk => by
        obtain rfl : k = 0 := by omega
        exact here.2
      have before := ih (i - 1) (j - 1)
      generalize runBack a b (i - 1) (j - 1) most = run at *
      rw [Nat.sub_sub, Nat.sub_sub, Nat.add_comm 1] at before
      refine before.append ?_
      have hi' : i - (run + 1) + run = i - 1 := by omega
      have hj' : j - (run + 1) + run = j - 1 := by omega
      rwa [hi', hj']
    · exact .none

end Runs

/-! ## Edits that fit -/

/-- Whether an edit may stand at line `i` of the old and line `j` of the new text. -/
structure Edit.Fits (a b : Array String) (i j : Nat) (e : Edit) : Prop where
  pos : 0 < e.len
  old_eq : e.kind ≠ .insert → e.old = i
  new_eq : e.kind ≠ .delete → e.new = j
  same : e.kind = .equal → AgreeFor a b i j e.len

/-- Edits in step. -/
abbrev EditsFit (a b : Array String) : Nat → Nat → List Edit → Prop :=
  InStep Edit.oldLen Edit.newLen (Edit.Fits a b)

namespace Edit

variable {a b : Array String} {i j len old new : Nat}

@[simp] theorem fits_equal_iff :
    Fits a b i j ⟨.equal, old, new, len⟩ ↔
      0 < len ∧ old = i ∧ new = j ∧ AgreeFor a b i j len :=
  ⟨fun h => ⟨h.pos, h.old_eq (by simp), h.new_eq (by simp), h.same rfl⟩,
    fun ⟨pos, hold, hnew, same⟩ => ⟨pos, fun _ => hold, fun _ => hnew, fun _ => same⟩⟩

@[simp] theorem fits_delete_iff : Fits a b i j ⟨.delete, old, new, len⟩ ↔ 0 < len ∧ old = i :=
  ⟨fun h => ⟨h.pos, h.old_eq (by simp)⟩,
    fun ⟨pos, hold⟩ => ⟨pos, fun _ => hold, fun ne => absurd rfl ne, fun h => by cases h⟩⟩

@[simp] theorem fits_insert_iff : Fits a b i j ⟨.insert, old, new, len⟩ ↔ 0 < len ∧ new = j :=
  ⟨fun h => ⟨h.pos, h.new_eq (by simp)⟩,
    fun ⟨pos, hnew⟩ => ⟨pos, fun ne => absurd rfl ne, fun _ => hnew, fun h => by cases h⟩⟩

@[simp] theorem oldLen_equal : oldLen ⟨.equal, old, new, len⟩ = len := rfl

@[simp] theorem newLen_equal : newLen ⟨.equal, old, new, len⟩ = len := rfl

@[simp] theorem oldLen_delete : oldLen ⟨.delete, old, new, len⟩ = len := rfl

@[simp] theorem newLen_delete : newLen ⟨.delete, old, new, len⟩ = 0 := rfl

@[simp] theorem oldLen_insert : oldLen ⟨.insert, old, new, len⟩ = 0 := rfl

@[simp] theorem newLen_insert : newLen ⟨.insert, old, new, len⟩ = len := rfl

@[simp] theorem total_oldLen_equals : total oldLen (equals old new len) = len := by
  unfold equals
  split <;> simp_all

@[simp] theorem total_newLen_equals : total newLen (equals old new len) = len := by
  unfold equals
  split <;> simp_all

theorem fits_equals (same : AgreeFor a b i j len) :
    EditsFit a b i j (equals i j len) := by
  unfold equals
  split
  · exact trivial
  · exact ⟨fits_equal_iff.2 ⟨by omega, rfl, rfl, same⟩, trivial⟩

end Edit

/-! ## The script of a window -/

/-- Edits that lead through a whole window. -/
def Window.Covered (a b : Array String) (w : Window) (edits : List Edit) : Prop :=
  EditsFit a b w.old w.new edits ∧
    total Edit.oldLen edits = w.oldLen ∧ total Edit.newLen edits = w.newLen

namespace Window

variable {a b : Array String}

/-- Where all lines are replaced, the window is covered by a deletion and an insertion. -/
theorem covered_replace {w : Window} (hold : 0 < w.oldLen) (hnew : 0 < w.newLen) :
    w.Covered a b [⟨.delete, w.old, w.new, w.oldLen⟩, ⟨.insert, w.old, w.new, w.newLen⟩] :=
  ⟨by simp [hold, hnew], by simp, by simp⟩

/-- Two halves of a window, covered one after the other. -/
theorem Covered.append {w : Window} {x y : Nat} {first second : List Edit}
    (hx : x ≤ w.oldLen) (hy : y ≤ w.newLen)
    (h₁ : (⟨w.old, x, w.new, y⟩ : Window).Covered a b first)
    (h₂ : (⟨w.old + x, w.oldLen - x, w.new + y, w.newLen - y⟩ : Window).Covered a b second) :
    w.Covered a b (first ++ second) := by
  obtain ⟨fit₁, old₁, new₁⟩ := h₁
  obtain ⟨fit₂, old₂, new₂⟩ := h₂
  dsimp only at old₁ new₁ old₂ new₂
  refine ⟨inStep_append.2 ⟨fit₁, ?_⟩, ?_, ?_⟩
  · rw [old₁, new₁]
    exact fit₂
  · rw [total_append, old₁, old₂]
    omega
  · rw [total_append, new₁, new₂]
    omega

/-- What is between two runs of equal lines, with these runs around it. -/
theorem Covered.between {w : Window} {ahead back : Nat} {edits : List Edit}
    (hahead : AgreeFor a b w.old w.new ahead)
    (hback : AgreeFor a b (w.old + (w.oldLen - back)) (w.new + (w.newLen - back)) back)
    (hold : ahead + back ≤ w.oldLen) (hnew : ahead + back ≤ w.newLen)
    (h : (⟨w.old + ahead, w.oldLen - ahead - back, w.new + ahead, w.newLen - ahead - back⟩ :
      Window).Covered a b edits) :
    w.Covered a b (Edit.equals w.old w.new ahead ++ edits ++
      Edit.equals (w.old + ahead + (w.oldLen - ahead - back))
        (w.new + ahead + (w.newLen - ahead - back)) back) := by
  obtain ⟨fit, htotal, htotal'⟩ := h
  dsimp only at htotal htotal'
  have hold' : w.old + ahead + (w.oldLen - ahead - back) = w.old + (w.oldLen - back) := by omega
  have hnew' : w.new + ahead + (w.newLen - ahead - back) = w.new + (w.newLen - back) := by omega
  refine ⟨inStep_append.2 ⟨inStep_append.2 ⟨Edit.fits_equals hahead, ?_⟩, ?_⟩, ?_, ?_⟩
  · rw [Edit.total_oldLen_equals, Edit.total_newLen_equals]
    exact fit
  · rw [total_append, total_append, Edit.total_oldLen_equals, Edit.total_newLen_equals, htotal,
      htotal', ← Nat.add_assoc, ← Nat.add_assoc, hold', hnew']
    exact Edit.fits_equals hback
  · rw [total_append, total_append, Edit.total_oldLen_equals, Edit.total_oldLen_equals, htotal]
    omega
  · rw [total_append, total_append, Edit.total_newLen_equals, Edit.total_newLen_equals,
      htotal']
    omega

/-- **The script of a window covers it**, whatever the search for the middle answers. -/
theorem covered_edits (w : Window) (f : Frontiers) : w.Covered a b (w.edits a b f).1 := by
  induction hn : w.oldLen + w.newLen using Nat.strongRecOn generalizing w f with
  | ind n ih =>
  rw [Window.edits]
  have hahead := runAhead_le a b w.old w.new (min w.oldLen w.newLen)
  have ahead_agrees := agreeFor_runAhead a b w.old w.new (min w.oldLen w.newLen)
  generalize runAhead a b w.old w.new (min w.oldLen w.newLen) = ahead at hahead ahead_agrees
  have hback := runBack_le a b (w.old + w.oldLen) (w.new + w.newLen)
    (min (w.oldLen - ahead) (w.newLen - ahead))
  have back_agrees := agreeFor_runBack a b (w.old + w.oldLen) (w.new + w.newLen)
    (min (w.oldLen - ahead) (w.newLen - ahead))
  generalize runBack a b (w.old + w.oldLen) (w.new + w.newLen)
    (min (w.oldLen - ahead) (w.newLen - ahead)) = back at hback back_agrees
  rw [Nat.add_sub_assoc (by omega), Nat.add_sub_assoc (by omega)] at back_agrees
  refine Covered.between ahead_agrees back_agrees (by omega) (by omega) ?_
  -- what is left is nothing, on one side only, or on both
  generalize hi : w.old + ahead = i
  generalize hj : w.new + ahead = j
  generalize hm : w.oldLen - ahead - back = oldLeft
  generalize hl : w.newLen - ahead - back = newLeft
  dsimp only
  by_cases hnew : newLeft = 0
  · rw [if_pos hnew]
    by_cases hold : oldLeft = 0
    · rw [if_pos hold]
      exact ⟨trivial, by simp [hold], by simp [hnew]⟩
    · rw [if_neg hold]
      exact ⟨⟨Edit.fits_delete_iff.2 ⟨by omega, rfl⟩, trivial⟩, by simp, by simp [hnew]⟩
  rw [if_neg hnew]
  by_cases hold : oldLeft = 0
  · rw [if_pos hold]
    exact ⟨⟨Edit.fits_insert_iff.2 ⟨by omega, rfl⟩, trivial⟩, by simp [hold], by simp⟩
  rw [if_neg hold]
  have replaced := covered_replace (a := a) (b := b) (w := ⟨i, oldLeft, j, newLeft⟩)
    (Nat.pos_of_ne_zero hold) (Nat.pos_of_ne_zero hnew)
  split
  · exact replaced
  · next f x y _ =>
    by_cases splits : (⟨i, oldLeft, j, newLeft⟩ : Window).Splits x y
    · rw [dif_pos splits]
      obtain ⟨hx, hy, hlow, hhigh⟩ := splits
      dsimp only at hx hy hhigh
      refine Covered.append hx hy ?_ ?_
      · exact ih (x + y) (by omega) ⟨i, x, j, y⟩ f rfl
      · exact ih (oldLeft - x + (newLeft - y)) (by omega)
          ⟨i + x, oldLeft - x, j + y, newLeft - y⟩ _ rfl
    · rw [dif_neg splits]
      exact replaced

end Window

/-- A script that leads from the heads of two texts to their ends. -/
structure Fits (a b : Array String) (edits : List Edit) : Prop where
  inStep : EditsFit a b 0 0 edits
  old_eq : total Edit.oldLen edits = a.size
  new_eq : total Edit.newLen edits = b.size

/-- **The script of two texts fits.** -/
theorem fits_script (a b : Array String) : Fits a b (script a b) := by
  obtain ⟨fit, hold, hnew⟩ := Window.covered_edits (a := a) (b := b) ⟨0, a.size, 0, b.size⟩
    ⟨.zero (Window.rounds ⟨0, a.size, 0, b.size⟩), .zero (Window.rounds ⟨0, a.size, 0, b.size⟩)⟩
  exact ⟨fit, hold, hnew⟩

end CallSweep.Diff
