/-
  From an edit script to hunks.

  `blocks` brings a script to alternating stretches of equal and of changed lines.  `hunks` keeps
  `context` equal lines around the changes and starts a new hunk where more than twice as many lie
  between two changes.
-/
import CallSweep.Diff.Edit

namespace CallSweep.Diff

/-! ## Blocks -/

/-- A stretch of lines, told by where it starts in both texts and how many lines it takes there.
    Equal lines are as many in both. -/
structure Block where
  changed : Bool
  old : Nat
  oldLen : Nat
  new : Nat
  newLen : Nat
  deriving DecidableEq, Repr

namespace Block

def oldStop (x : Block) : Nat := x.old + x.oldLen

def newStop (x : Block) : Nat := x.new + x.newLen

/-- The equality of `len` lines. -/
def same (old new len : Nat) : Block := ⟨false, old, len, new, len⟩

/-- A block without its first `n` lines. -/
def drop (x : Block) (n : Nat) : Block :=
  ⟨x.changed, x.old + n, x.oldLen - n, x.new + n, x.newLen - n⟩

/-- The first `n` lines of a block. -/
def take (x : Block) (n : Nat) : Block :=
  ⟨x.changed, x.old, min x.oldLen n, x.new, min x.newLen n⟩

end Block

/-- What has been read of a script and is not yet a block: nothing, equal lines, or deletions and
    insertions with no equal lines between them. -/
inductive Pending where
  | nothing
  | equal (e : Edit)
  | changed (deleted inserted : Option Edit)

namespace Pending

/-- The block that has been read.  Deletions and insertions together take their places from where
    each of them stands; alone, they are empty on the other side. -/
def blocks : Pending → List Block
  | .nothing => []
  | .equal e => [.same e.old e.new e.len]
  | .changed (some d) (some i) => [⟨true, d.old, d.len, i.new, i.len⟩]
  | .changed (some d) none => [⟨true, d.old, d.len, d.new, 0⟩]
  | .changed none (some i) => [⟨true, i.old, 0, i.new, i.len⟩]
  | .changed none none => []

/-- An edit joined to others of its kind. -/
def joined (first : Option Edit) (e : Edit) : Edit :=
  match first with
  | some f => { f with len := f.len + e.len }
  | none => e

/-- Reads one edit: the blocks that it completes, and what is read then. -/
def step (p : Pending) (e : Edit) : List Block × Pending :=
  match p, e.kind with
  | .equal f, .equal => ([], .equal { f with len := f.len + e.len })
  | p, .equal => (p.blocks, .equal e)
  | .changed d i, .delete => ([], .changed (some (joined d e)) i)
  | .changed d i, .insert => ([], .changed d (some (joined i e)))
  | p, .delete => (p.blocks, .changed (some e) none)
  | p, .insert => (p.blocks, .changed none (some e))

end Pending

/-- The blocks of a script, `pending` being read before it. -/
def blocksFrom (pending : Pending) : List Edit → List Block
  | [] => pending.blocks
  | e :: es =>
    let (done, pending) := pending.step e
    done ++ blocksFrom pending es

/-- The blocks of a script. -/
def blocks (edits : List Edit) : List Block := blocksFrom .nothing edits

/-! ## Hunks -/

/-- Equal lines shown around a change. -/
def context : Nat := 3

/-- An equality at the head of the blocks keeps its last lines only. -/
def trimHead : List Block → List Block
  | [] => []
  | x :: xs => if x.changed then x :: xs else x.drop (x.oldLen - context) :: xs

/-- An equality at the end of the blocks keeps its first lines only. -/
def trimLast : List Block → List Block
  | [] => []
  | [x] => if x.changed then [x] else [x.take context]
  | x :: xs => x :: trimLast xs

/-- Cuts blocks into groups inside every long equality, `current` being read, in reverse, of the
    first group. -/
def groups (current : List Block) : List Block → List (List Block)
  | [] => [current.reverse]
  | x :: xs =>
    if !x.changed && 2 * context < x.oldLen then
      (x.take context :: current).reverse :: groups [x.drop (x.oldLen - context)] xs
    else groups (x :: current) xs

/-- Whether a last group shows no change. -/
def isIdle : List Block → Bool
  | [] => true
  | [x] => !x.changed
  | _ => false

/-- The hunks of a list of blocks. -/
def hunks (xs : List Block) : List (List Block) :=
  let all := groups [] (trimLast (trimHead xs))
  match all.getLast? with
  | some last => if isIdle last then all.dropLast else all
  | none => all

end CallSweep.Diff
