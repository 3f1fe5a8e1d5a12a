/-
  Making an edit script compact.

  An insertion may slide over equal lines as long as the same lines are inserted, and deletions
  and insertions may change places.  Each deletion, and then each insertion, is shifted up as far
  as it goes and down again as far as it goes; on its way it swallows its like.  So edits that
  belong together come to stand together, as low in the text as they can.

  The script is held as a `Cursor`: one edit, the edits in front of it, nearest first, and those
  behind it.  Each round of a shift takes lines or edits off the side it moves to (`weight`).
-/
import CallSweep.Diff.Edit

namespace CallSweep.Diff

/-! ## Cursors -/

/-- An edit of a script with its surroundings. -/
structure Cursor where
  before : List Edit
  this : Edit
  after : List Edit

/-- Edits of a list and the lines that they take. -/
def weight (edits : List Edit) : Nat := edits.foldr (fun e n => e.len + 1 + n) 0

@[simp] theorem weight_cons (e : Edit) (es : List Edit) :
    weight (e :: es) = e.len + 1 + weight es := rfl

/-! ## Shifting -/

/-- Lets the equality behind a shifted insertion begin `s` lines earlier, or begin there at all. -/
def growAfter (prev this : Edit) (s : Nat) : List Edit → List Edit
  | next :: rest =>
    if next.kind = .equal then
      ⟨.equal, next.old - s, next.new - s, next.len + s⟩ :: rest
    else ⟨.equal, prev.old + prev.len - s, this.new + this.len - s, s⟩ :: next :: rest
  | [] => [⟨.equal, prev.old + prev.len - s, this.new + this.len - s, s⟩]

/-- Lets the equality in front of a shifted insertion end `s` lines later, or begins one. -/
def growBefore (this next : Edit) (s : Nat) : List Edit → List Edit
  | prev :: rest =>
    if prev.kind = .equal then { prev with len := prev.len + s } :: rest
    else ⟨.equal, next.old, this.new, s⟩ :: prev :: rest
  | [] => [⟨.equal, next.old, this.new, s⟩]

variable (a b : Array String)

/-- Equal lines at the end of the equality `prev` and of the lines that `this` inserts. -/
def overlapUp (prev this : Edit) : Nat :=
  runBack a b (prev.old + prev.len) (this.new + this.newLen) (min prev.len this.newLen)

/-- Equal lines at the start of the equality `next` and of the lines that `this` inserts. -/
def overlapDown (this next : Edit) : Nat :=
  runAhead a b next.old this.new (min next.len this.newLen)

/-- Shifts an edit up as far as it goes. -/
def shiftUp : List Edit → Edit → List Edit → Cursor
  | [], this, after => ⟨[], this, after⟩
  | prev :: before, this, after =>
    if prev.kind = .equal then
      let s := overlapUp a b prev this
      if s = 0 then
        if prev.len = 0 then shiftUp before this after else ⟨prev :: before, this, after⟩
      else if s < prev.len then
        shiftUp ({ prev with len := prev.len - s } :: before)
          { this with old := this.old - s, new := this.new - s } (growAfter prev this s after)
      else
        shiftUp before { this with old := this.old - s, new := this.new - s }
          (growAfter prev this s after)
    else if prev.kind = this.kind then
      shiftUp before { prev with len := prev.len + this.len } after
    else shiftUp before this (prev :: after)
  termination_by before => weight before
  decreasing_by all_goals simp only [weight_cons]; omega

/-- Shifts an edit down as far as it goes. -/
def shiftDown : List Edit → Edit → List Edit → Cursor
  | before, this, [] => ⟨before, this, []⟩
  | before, this, next :: after =>
    if next.kind = .equal then
      let s := overlapDown a b this next
      if s = 0 then
        if next.len = 0 then shiftDown before this after else ⟨before, this, next :: after⟩
      else if s < next.len then
        shiftDown (growBefore this next s before)
          { this with old := this.old + s, new := this.new + s }
          (⟨.equal, next.old + s, next.new + s, next.len - s⟩ :: after)
      else
        shiftDown (growBefore this next s before)
          { this with old := this.old + s, new := this.new + s } after
    else if next.kind = this.kind then
      shiftDown before { this with len := this.len + next.len } after
    else shiftDown (next :: before) this after
  termination_by _ _ after => weight after
  decreasing_by all_goals simp only [weight_cons]; omega

/-! ## Passes -/

/-- Shifts the next `count` edits of one kind, from left to right.  Every round takes one such edit
    off the script behind the cursor and puts none there. -/
def compactKind (kind : EditKind) : (count : Nat) → (before after : List Edit) → List Edit
  | 0, before, after => before.reverse ++ after
  | count + 1, before, after =>
    match after.span (·.kind ≠ kind) with
    | (passed, []) => before.reverse ++ passed
    | (passed, this :: rest) =>
      let up := shiftUp a b (passed.reverse ++ before) this rest
      let down := shiftDown a b up.before up.this up.after
      compactKind kind count (down.this :: down.before) down.after

/-- Shifts every edit of one kind. -/
def compactAll (kind : EditKind) (edits : List Edit) : List Edit :=
  compactKind a b kind (edits.countP (·.kind = kind)) [] edits

/-- The script with deletions and then insertions shifted. -/
def compact (edits : List Edit) : List Edit :=
  compactAll a b .insert (compactAll a b .delete edits)

end CallSweep.Diff
