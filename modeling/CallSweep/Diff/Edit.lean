/-
  The steps of an edit script.

  An `Edit` says that `len` lines are equal, are deleted from the old text, or are inserted from
  the new one, and where in both texts that is.  `runAhead` and `runBack` count how far the two
  texts agree from two lines on, forwards and backwards.
-/

namespace CallSweep.Diff

/-! ## Edits -/

inductive EditKind where
  | equal
  | delete
  | insert
  deriving DecidableEq, Repr

/-- A step of an edit script: its kind, where it stands in the old and in the new text, and the
    number of lines that it takes. -/
structure Edit where
  kind : EditKind
  old : Nat
  new : Nat
  len : Nat
  deriving DecidableEq, Repr

namespace Edit

/-- Lines of the old text that the edit covers. -/
def oldLen (e : Edit) : Nat := if e.kind = .insert then 0 else e.len

/-- Lines of the new text that the edit covers. -/
def newLen (e : Edit) : Nat := if e.kind = .delete then 0 else e.len

/-- The equality of `len` lines, unless there are none. -/
def equals (old new len : Nat) : List Edit :=
  if len = 0 then [] else [⟨.equal, old, new, len⟩]

end Edit

/-! ## Runs of equal lines -/

/-- Whether two lines are both there and equal. -/
def agree (old new : Array String) (i j : Nat) : Bool :=
  match old[i]?, new[j]? with
  | some a, some b => a == b
  | _, _ => false

/-- Equal lines from `i` and `j` on, at most `most` of them. -/
def runAhead (old new : Array String) (i j : Nat) : (most : Nat) → Nat
  | 0 => 0
  | most + 1 => if agree old new i j then runAhead old new (i + 1) (j + 1) most + 1 else 0

/-- Equal lines in front of `i` and `j`, at most `most` of them. -/
def runBack (old new : Array String) (i j : Nat) : (most : Nat) → Nat
  | 0 => 0
  | most + 1 =>
    if 0 < i && 0 < j && agree old new (i - 1) (j - 1)
    then runBack old new (i - 1) (j - 1) most + 1 else 0

theorem runAhead_le (old new : Array String) (i j most : Nat) :
    runAhead old new i j most ≤ most := by
  induction most generalizing i j with
  | zero => simp [runAhead]
  | succ most ih =>
    rw [runAhead]
    split
    · exact Nat.succ_le_succ (ih ..)
    · exact Nat.zero_le _

theorem runBack_le (old new : Array String) (i j most : Nat) :
    runBack old new i j most ≤ most := by
  induction most generalizing i j with
  | zero => simp [runBack]
  | succ most ih =>
    rw [runBack]
    split
    · exact Nat.succ_le_succ (ih ..)
    · exact Nat.zero_le _

end CallSweep.Diff
