/-
  Compaction keeps a script right.

  1. **Becoming** (`Becomes`) — a piece of a script becomes another if, wherever the first fits, the
     second does too and takes as many lines of both texts.  Pieces become others inside a longer
     script as well (`Becomes.within`).

  2. **Four moves** — two neighbours of different kinds swap, two of one kind join, an insertion
     slides up over the end of the equality in front of it, and down over the start of the one
     behind it.  A swap leaves the free place of both neighbours as it was, which is then wrong; the
     place that counts stays right (`Edit.Fits`).

  3. **Shifts** (`becomes_shiftUp`, `becomes_shiftDown`) are chains of such moves, by the recursion
     of the shift itself, and passes are chains of shifts (`fits_compact`).
-/
import Mathlib.Data.List.TakeDrop
import CallSweep.Diff.Compact
import CallSweep.Proofs.Diff.Script

namespace CallSweep.Diff

/-! ## Becoming -/

/-- Wherever the edits `xs` fit, the edits `ys` fit and cover the same lines. -/
def Becomes (a b : Array String) (xs ys : List Edit) : Prop :=
  ∀ i j, EditsFit a b i j xs →
    EditsFit a b i j ys ∧ total Edit.oldLen ys = total Edit.oldLen xs ∧
      total Edit.newLen ys = total Edit.newLen xs

namespace Becomes

variable {a b : Array String} {xs ys zs : List Edit}

theorem refl (xs : List Edit) : Becomes a b xs xs := fun _ _ h => ⟨h, rfl, rfl⟩

theorem trans (h : Becomes a b xs ys) (h' : Becomes a b ys zs) : Becomes a b xs zs := by
  intro i j fit
  obtain ⟨fit, hold, hnew⟩ := h i j fit
  obtain ⟨fit', hold', hnew'⟩ := h' i j fit
  exact ⟨fit', hold'.trans hold, hnew'.trans hnew⟩

/-- A piece of a script may become another where it stands. -/
theorem within (h : Becomes a b xs ys) (before after : List Edit) :
    Becomes a b (before ++ xs ++ after) (before ++ ys ++ after) := by
  intro i j fit
  obtain ⟨hbefore, hxs, hafter⟩ : EditsFit a b i j before ∧
      EditsFit a b (i + total Edit.oldLen before) (j + total Edit.newLen before) xs ∧
      EditsFit a b (i + total Edit.oldLen before + total Edit.oldLen xs)
        (j + total Edit.newLen before + total Edit.newLen xs) after := by
    obtain ⟨front, hafter⟩ := inStep_append.1 fit
    obtain ⟨hbefore, hxs⟩ := inStep_append.1 front
    rw [total_append, total_append, ← Nat.add_assoc, ← Nat.add_assoc] at hafter
    exact ⟨hbefore, hxs, hafter⟩
  obtain ⟨hys, hold, hnew⟩ := h _ _ hxs
  refine ⟨inStep_append.2 ⟨inStep_append.2 ⟨hbefore, hys⟩, ?_⟩, by simp [hold], by simp [hnew]⟩
  rw [total_append, total_append, ← Nat.add_assoc, ← Nat.add_assoc, hold, hnew]
  exact hafter

theorem prepend (h : Becomes a b xs ys) (before : List Edit) :
    Becomes a b (before ++ xs) (before ++ ys) := by
  simpa using h.within before []

theorem append (h : Becomes a b xs ys) (after : List Edit) :
    Becomes a b (xs ++ after) (ys ++ after) := by
  simpa using h.within [] after

end Becomes

/-! ## Moves -/

section Moves

variable {a b : Array String} {x y prev this next : Edit} {s : Nat}

/-- An edit that fits takes lines, so one without lines may go. -/
theorem becomes_nil (hx : x.len = 0) : Becomes a b [x] [] :=
  fun _ _ fit => absurd hx (Nat.ne_of_gt fit.1.pos)

/-- Neither of two neighbours of different kinds takes lines of the text that the other takes. -/
theorem becomes_swap (hx : x.kind ≠ .equal) (hy : y.kind ≠ .equal) (hxy : x.kind ≠ y.kind) :
    Becomes a b [x, y] [y, x] := by
  obtain ⟨kx, ox, nx, lx⟩ := x
  obtain ⟨ky, oy, ny, ly⟩ := y
  intro i j fit
  cases kx <;> cases ky <;> simp_all

/-- Two neighbours of one kind are one edit. -/
theorem becomes_join (hxy : x.kind = y.kind) :
    Becomes a b [x, y] [{ x with len := x.len + y.len }] := by
  obtain ⟨kx, ox, nx, lx⟩ := x
  obtain ⟨ky, oy, ny, ly⟩ := y
  obtain rfl : kx = ky := hxy
  intro i j fit
  cases kx
  · simp only [inStep_cons, Edit.fits_equal_iff, Edit.oldLen_equal, Edit.newLen_equal] at fit
    obtain ⟨⟨hx, rfl, rfl, same⟩, ⟨hy, rfl, rfl, same'⟩, -⟩ := fit
    exact ⟨⟨Edit.fits_equal_iff.2 ⟨Nat.add_pos_left hx _, rfl, rfl, same.append same'⟩, trivial⟩,
      by simp, by simp⟩
  · simp only [inStep_cons, Edit.fits_delete_iff, Edit.oldLen_delete, Edit.newLen_delete] at fit
    obtain ⟨⟨hx, rfl⟩, -⟩ := fit
    exact ⟨⟨Edit.fits_delete_iff.2 ⟨Nat.add_pos_left hx _, rfl⟩, trivial⟩, by simp, by simp⟩
  · simp only [inStep_cons, Edit.fits_insert_iff, Edit.oldLen_insert, Edit.newLen_insert] at fit
    obtain ⟨⟨hx, rfl⟩, -⟩ := fit
    exact ⟨⟨Edit.fits_insert_iff.2 ⟨Nat.add_pos_left hx _, rfl⟩, trivial⟩, by simp, by simp⟩

/-- An insertion slides up over the last `s` lines of the equality in front of it. -/
theorem becomes_slide_up (hprev : prev.kind = .equal) (hthis : this.kind ≠ .equal)
    (hs : overlapUp a b prev this = s) (moves : s ≠ 0) :
    Becomes a b [prev, this]
      (Edit.equals prev.old prev.new (prev.len - s) ++
        [{ this with old := this.old - s, new := this.new - s },
          ⟨.equal, prev.old + prev.len - s, this.new + this.len - s, s⟩]) := by
  obtain ⟨_, old, new, len⟩ := prev
  obtain ⟨kind, old', new', len'⟩ := this
  obtain rfl : _ = EditKind.equal := hprev
  intro i j fit
  have most := runBack_le a b (old + len) (new' + Edit.newLen ⟨kind, old', new', len'⟩)
    (min len (Edit.newLen ⟨kind, old', new', len'⟩))
  have agreed := agreeFor_runBack a b (old + len) (new' + Edit.newLen ⟨kind, old', new', len'⟩)
    (min len (Edit.newLen ⟨kind, old', new', len'⟩))
  simp only [overlapUp] at hs
  rw [hs] at most agreed
  cases kind with
  | equal => exact absurd rfl hthis
  | delete => simp at most; omega
  | insert =>
    simp only [inStep_cons, inStep_nil, and_true, Edit.fits_equal_iff, Edit.fits_insert_iff,
      Edit.oldLen_equal, Edit.newLen_equal] at fit
    obtain ⟨⟨-, rfl, rfl, same⟩, pos, rfl⟩ := fit
    rw [Edit.newLen_insert] at most agreed
    dsimp only
    refine ⟨inStep_append.2 ⟨Edit.fits_equals (same.take (by omega)), ?_⟩, ?_, ?_⟩
    · rw [Edit.total_oldLen_equals, Edit.total_newLen_equals]
      refine ⟨Edit.fits_insert_iff.2 ⟨pos, by omega⟩, Edit.fits_equal_iff.2 ⟨by omega, ?_, ?_, ?_⟩,
        trivial⟩
      · rw [Edit.oldLen_insert]; omega
      · rw [Edit.newLen_insert]; omega
      · rw [Edit.oldLen_insert, Edit.newLen_insert]
        convert agreed using 1 <;> omega
    · simp; omega
    · simp; omega

/-- An insertion slides down over the first `s` lines of the equality behind it. -/
theorem becomes_slide_down (hnext : next.kind = .equal) (hthis : this.kind ≠ .equal)
    (hs : overlapDown a b this next = s) (moves : s ≠ 0) :
    Becomes a b [this, next]
      ([⟨.equal, next.old, this.new, s⟩, { this with old := this.old + s, new := this.new + s }] ++
        Edit.equals (next.old + s) (next.new + s) (next.len - s)) := by
  obtain ⟨_, old, new, len⟩ := next
  obtain ⟨kind, old', new', len'⟩ := this
  obtain rfl : _ = EditKind.equal := hnext
  intro i j fit
  have most := runAhead_le a b old new' (min len (Edit.newLen ⟨kind, old', new', len'⟩))
  have agreed := agreeFor_runAhead a b old new' (min len (Edit.newLen ⟨kind, old', new', len'⟩))
  simp only [overlapDown] at hs
  rw [hs] at most agreed
  cases kind with
  | equal => exact absurd rfl hthis
  | delete => simp at most; omega
  | insert =>
    simp only [inStep_cons, inStep_nil, and_true, Edit.fits_equal_iff, Edit.fits_insert_iff,
      Edit.oldLen_insert, Edit.newLen_insert, Nat.add_zero] at fit
    obtain ⟨⟨pos, rfl⟩, -, rfl, rfl, same⟩ := fit
    rw [Edit.newLen_insert] at most
    refine ⟨inStep_append.2 ⟨⟨?_, ?_, trivial⟩, ?_⟩, ?_, ?_⟩
    · exact Edit.fits_equal_iff.2 ⟨by omega, rfl, rfl, agreed⟩
    · exact Edit.fits_insert_iff.2 ⟨pos, rfl⟩
    · have := Edit.fits_equals (a := a) (b := b) (i := old + s) (j := new' + len' + s)
        (same.drop s)
      convert this using 1 <;> simp; omega
    · simp; omega
    · simp; omega

/-- The equality that a slide up leaves joins the one behind it. -/
theorem becomes_growAfter (prev this : Edit) (s : Nat) (after : List Edit) :
    Becomes a b (⟨.equal, prev.old + prev.len - s, this.new + this.len - s, s⟩ :: after)
      (growAfter prev this s after) := by
  fun_cases growAfter prev this s after with
  | case1 next rest hnext =>
    obtain ⟨_, old, new, len⟩ := next
    obtain rfl : _ = EditKind.equal := hnext
    suffices joins : Becomes a b
        [⟨.equal, prev.old + prev.len - s, this.new + this.len - s, s⟩, ⟨.equal, old, new, len⟩]
        [⟨.equal, old - s, new - s, len + s⟩] from joins.append rest
    intro i j fit
    simp only [inStep_cons, inStep_nil, and_true, Edit.fits_equal_iff, Edit.oldLen_equal,
      Edit.newLen_equal] at fit
    obtain ⟨⟨-, -, -, same⟩, pos, rfl, rfl, same'⟩ := fit
    have whole : AgreeFor a b i j (len + s) := by
      rw [Nat.add_comm]
      exact same.append same'
    have fits : Edit.Fits a b i j ⟨.equal, i + s - s, j + s - s, len + s⟩ :=
      Edit.fits_equal_iff.2 ⟨by omega, by omega, by omega, whole⟩
    exact ⟨⟨fits, trivial⟩, by simp; omega, by simp; omega⟩
  | case2 => exact .refl _
  | case3 => exact .refl _

/-- The equality that a slide down leaves joins the one in front of it. -/
theorem becomes_growBefore (this next : Edit) (s : Nat) (before : List Edit) :
    Becomes a b (before.reverse ++ [⟨.equal, next.old, this.new, s⟩])
      (growBefore this next s before).reverse := by
  fun_cases growBefore this next s before with
  | case1 prev rest hprev =>
    rw [List.reverse_cons, List.reverse_cons, List.append_assoc]
    exact (becomes_join hprev).prepend _
  | case2 => simpa using Becomes.refl _
  | case3 => exact .refl _

end Moves

/-! ## Shifts -/

/-- The script that a cursor stands in. -/
def Cursor.edits (c : Cursor) : List Edit := c.before.reverse ++ c.this :: c.after

section Shifts

variable {a b : Array String} {before after : List Edit} {this : Edit}

theorem kind_shiftUp : (shiftUp a b before this after).this.kind = this.kind := by
  fun_induction shiftUp a b before this after <;> simp_all

theorem becomes_shiftUp (hthis : this.kind ≠ .equal) :
    Becomes a b (before.reverse ++ this :: after) (shiftUp a b before this after).edits := by
  have reversed (prev : Edit) (before after : List Edit) :
      (prev :: before).reverse ++ after = before.reverse ++ ([prev] ++ after) := by simp
  fun_induction shiftUp a b before this after with
  | case1 this after => exact .refl _
  | case2 prev before this after hprev s hs hlen ih =>
    rw [reversed]
    exact (((becomes_nil hlen).append _).prepend _).trans (ih hthis)
  | case3 prev before this after hprev s hs hlen => exact .refl _
  | case4 prev before this after hprev s hs hlt ih =>
    have slide := (becomes_slide_up hprev hthis (a := a) (b := b) (s := s) rfl hs).append after
    have grow := (becomes_growAfter (a := a) (b := b) prev this s after).prepend
      [{ prev with len := prev.len - s }, { this with old := this.old - s, new := this.new - s }]
    have shorter : ({ prev with len := prev.len - s } : Edit) =
        ⟨.equal, prev.old, prev.new, prev.len - s⟩ := by rw [hprev]
    rw [Edit.equals, if_neg (by omega), ← shorter] at slide
    refine .trans ?_ (ih hthis)
    rw [reversed, reversed]
    exact (slide.trans grow).prepend _
  | case5 prev before this after hprev s hs hlt ih =>
    have slide := (becomes_slide_up hprev hthis (a := a) (b := b) (s := s) rfl hs).append after
    have grow := (becomes_growAfter (a := a) (b := b) prev this s after).prepend
      [{ this with old := this.old - s, new := this.new - s }]
    rw [Edit.equals, if_pos (by omega)] at slide
    refine .trans ?_ (ih hthis)
    rw [reversed]
    exact (slide.trans grow).prepend _
  | case6 prev before this after hprev hkind ih =>
    refine .trans ?_ (ih hprev)
    rw [reversed]
    exact ((becomes_join hkind).append after).prepend _
  | case7 prev before this after hprev hkind ih =>
    refine .trans ?_ (ih hthis)
    rw [reversed]
    exact ((becomes_swap hprev hthis hkind).append after).prepend _

theorem becomes_shiftDown (hthis : this.kind ≠ .equal) :
    Becomes a b (before.reverse ++ this :: after) (shiftDown a b before this after).edits := by
  fun_induction shiftDown a b before this after with
  | case1 before this => exact .refl _
  | case2 before this next after hnext s hs hlen ih =>
    refine .trans ?_ (ih hthis)
    exact (((becomes_nil hlen).append after).prepend [this]).prepend _
  | case3 before this next after hnext s hs hlen => exact .refl _
  | case4 before this next after hnext s hs hlt ih =>
    have slide := ((becomes_slide_down hnext hthis (a := a) (b := b) (s := s) rfl hs).append
      after).prepend before.reverse
    have grow := (becomes_growBefore (a := a) (b := b) this next s before).append
      ({ this with old := this.old + s, new := this.new + s } ::
        ⟨.equal, next.old + s, next.new + s, next.len - s⟩ :: after)
    rw [Edit.equals, if_neg (by omega)] at slide
    rw [List.append_assoc] at grow
    exact (slide.trans grow).trans (ih hthis)
  | case5 before this next after hnext s hs hlt ih =>
    have slide := ((becomes_slide_down hnext hthis (a := a) (b := b) (s := s) rfl hs).append
      after).prepend before.reverse
    have grow := (becomes_growBefore (a := a) (b := b) this next s before).append
      ({ this with old := this.old + s, new := this.new + s } :: after)
    rw [Edit.equals, if_pos (by omega)] at slide
    rw [List.append_assoc] at grow
    exact (slide.trans grow).trans (ih hthis)
  | case6 before this next after hnext hkind ih =>
    refine .trans ?_ (ih hthis)
    exact ((becomes_join hkind.symm).append after).prepend _
  | case7 before this next after hnext hkind ih =>
    refine .trans ?_ (ih hthis)
    rw [List.reverse_cons, List.append_assoc]
    exact ((becomes_swap hthis hnext (Ne.symm hkind)).append after).prepend _

/-- An edit shifted up and down again. -/
theorem becomes_shift (before after : List Edit) (hthis : this.kind ≠ .equal) :
    Becomes a b (before.reverse ++ this :: after)
      (shiftDown a b (shiftUp a b before this after).before (shiftUp a b before this after).this
        (shiftUp a b before this after).after).edits :=
  (becomes_shiftUp hthis).trans (becomes_shiftDown (by rwa [kind_shiftUp]))

end Shifts

/-! ## Passes -/

section Passes

variable {a b : Array String} {kind : EditKind}

theorem becomes_compactKind (hkind : kind ≠ .equal) (count : Nat) (before after : List Edit) :
    Becomes a b (before.reverse ++ after) (compactKind a b kind count before after) := by
  induction count generalizing before after with
  | zero => exact .refl _
  | succ count ih =>
    rw [compactKind]
    have parts := List.takeWhile_append_dropWhile (p := (·.kind ≠ kind)) (l := after)
    have first := List.head?_dropWhile_not (·.kind ≠ kind) after
    rw [List.span_eq_takeWhile_dropWhile]
    generalize after.takeWhile (·.kind ≠ kind) = passed at parts ⊢
    cases hrest : after.dropWhile (·.kind ≠ kind) with
    | nil =>
      rw [hrest, List.append_nil] at parts
      rw [parts]
      exact .refl _
    | cons this rest =>
      rw [hrest] at parts first
      have hthis : this.kind ≠ .equal := by
        have : this.kind = kind := by simpa using first
        rwa [this]
      have shift := becomes_shift (a := a) (b := b) (passed.reverse ++ before) rest hthis
      rw [List.reverse_append, List.reverse_reverse, List.append_assoc, parts] at shift
      dsimp only
      refine shift.trans ?_
      -- the pass goes on from wherever the shift has left the cursor
      generalize shiftDown a b _ _ _ = down
      have next := ih (down.this :: down.before) down.after
      rwa [List.reverse_cons, List.append_assoc] at next

theorem becomes_compactAll (hkind : kind ≠ .equal) (edits : List Edit) :
    Becomes a b edits (compactAll a b kind edits) :=
  becomes_compactKind hkind _ [] edits

end Passes

/-- **Compaction keeps a script right.** -/
theorem fits_compact {a b : Array String} {edits : List Edit} (h : Fits a b edits) :
    Fits a b (compact a b edits) := by
  have becomes : Becomes a b edits (compact a b edits) :=
    (becomes_compactAll (by simp) edits).trans (becomes_compactAll (by simp) _)
  obtain ⟨fit, hold, hnew⟩ := becomes 0 0 h.inStep
  exact ⟨fit, hold.trans h.old_eq, hnew.trans h.new_eq⟩

end CallSweep.Diff
