/-
  What the hunks of a script say about two texts.

  1. **Blocks** (`Block.Fits`) — a block writes down the right place in each text *that it takes
     lines of*.  One that takes lines of one text only may be wrong about the other.

  2. **Reading a script** (`Pending.Fits`) — what has been read and is not yet a block is a block
     that fits, in the making; each edit that is read keeps it so (`Pending.fits_step`).

  3. **Hunks** (`HunksFit`) — between two hunks lie equal lines.  An equality that is cut leaves
     its ends to both hunks, so only the head of the first hunk and the end of the last one can be
     changed lines, and only there can the places be wrong.
-/
import CallSweep.Diff.Hunk
import CallSweep.Proofs.Diff.Compact

namespace CallSweep.Diff

/-! ## Blocks that fit -/

/-- Whether a block may stand at line `i` of the old and line `j` of the new text. -/
structure Block.Fits (a b : Array String) (i j : Nat) (x : Block) : Prop where
  pos : 0 < x.oldLen + x.newLen
  old_eq : 0 < x.oldLen → x.old = i
  new_eq : 0 < x.newLen → x.new = j
  same : x.changed = false →
    x.newLen = x.oldLen ∧ AgreeFor a b i j x.oldLen

/-- Blocks in step. -/
abbrev BlocksFit (a b : Array String) : Nat → Nat → List Block → Prop :=
  InStep Block.oldLen Block.newLen (Block.Fits a b)

namespace Block

variable {a b : Array String} {i j n : Nat} {x : Block}

@[simp] theorem oldLen_same (old new len : Nat) : (same old new len).oldLen = len := rfl

@[simp] theorem newLen_same (old new len : Nat) : (same old new len).newLen = len := rfl

theorem fits_same {e : Edit} (h : e.Fits a b i j) (kind : e.kind = .equal) :
    (same e.old e.new e.len).Fits a b i j :=
  ⟨Nat.add_pos_left h.pos _, fun _ => h.old_eq (by simp [kind]), fun _ => h.new_eq (by simp [kind]),
    fun _ => ⟨rfl, h.same kind⟩⟩

/-- An equality is in its place in both texts. -/
theorem Fits.place (h : x.Fits a b i j) (hx : x.changed = false) :
    0 < x.oldLen ∧ x.newLen = x.oldLen ∧ x.old = i ∧ x.new = j := by
  obtain ⟨len, -⟩ := h.same hx
  have pos := h.pos
  exact ⟨by omega, len, h.old_eq (by omega), h.new_eq (by omega)⟩

theorem Fits.take (h : x.Fits a b i j) (hx : x.changed = false) (hn : 0 < n) :
    (x.take n).Fits a b i j := by
  obtain ⟨pos, len, rfl, rfl⟩ := h.place hx
  obtain ⟨-, same⟩ := h.same hx
  refine ⟨?_, fun _ => rfl, fun _ => rfl, fun _ => ⟨?_, same.take ?_⟩⟩ <;> simp only [Block.take] <;>
    omega

theorem Fits.drop (h : x.Fits a b i j) (hx : x.changed = false) (hn : n < x.oldLen) :
    (x.drop n).Fits a b (i + n) (j + n) := by
  obtain ⟨pos, len, rfl, rfl⟩ := h.place hx
  obtain ⟨-, same⟩ := h.same hx
  refine ⟨?_, fun _ => rfl, fun _ => rfl, fun _ => ⟨?_, same.drop n⟩⟩ <;> simp only [Block.drop] <;>
    omega

end Block

/-! ## Reading a script -/

namespace Pending

variable {a b : Array String} {i j : Nat} {p : Pending} {e : Edit}

/-- What has been read fits at line `i` of the old and line `j` of the new text. -/
def Fits (a b : Array String) (i j : Nat) : Pending → Prop
  | .nothing => True
  | .equal e => e.kind = .equal ∧ e.Fits a b i j
  | .changed d n =>
    (d.isSome ∨ n.isSome) ∧ (∀ e ∈ d, 0 < e.len ∧ e.old = i) ∧ ∀ e ∈ n, 0 < e.len ∧ e.new = j

theorem fits_blocks (h : p.Fits a b i j) : BlocksFit a b i j p.blocks := by
  match p, h with
  | .nothing, _ => exact trivial
  | .equal e, h => exact ⟨Block.fits_same h.2 h.1, trivial⟩
  | .changed (some d) (some n), h =>
    obtain ⟨-, hd, hn⟩ := h
    refine ⟨⟨Nat.add_pos_left (hd d rfl).1 _, fun _ => (hd d rfl).2, fun _ => (hn n rfl).2, ?_⟩,
      trivial⟩
    intro absurd; cases absurd
  | .changed (some d) none, h =>
    obtain ⟨-, hd, -⟩ := h
    refine ⟨⟨Nat.add_pos_left (hd d rfl).1 _, fun _ => (hd d rfl).2, fun pos => ?_, ?_⟩, trivial⟩
    · cases pos
    · intro absurd; cases absurd
  | .changed none (some n), h =>
    obtain ⟨-, -, hn⟩ := h
    refine ⟨⟨Nat.add_pos_right _ (hn n rfl).1, fun pos => ?_, fun _ => (hn n rfl).2, ?_⟩, trivial⟩
    · cases pos
    · intro absurd; cases absurd
  | .changed none none, h => exact absurd h.1 (by simp)

/-- What an edit is when it is read first. -/
def first (e : Edit) : Pending :=
  match e.kind with
  | .equal => .equal e
  | .delete => .changed (some e) none
  | .insert => .changed none (some e)

theorem fits_first (h : e.Fits a b i j) : (first e).Fits a b i j := by
  obtain ⟨kind, old, new, len⟩ := e
  cases kind with
  | equal => exact ⟨rfl, h⟩
  | delete => simpa [first, Fits] using h
  | insert => simpa [first, Fits] using h

theorem total_blocks_first :
    total Block.oldLen (first e).blocks = e.oldLen ∧
      total Block.newLen (first e).blocks = e.newLen := by
  obtain ⟨kind, old, new, len⟩ := e
  cases kind <;> simp [first, blocks]

/-- An edit is read first, joins the equality in front of it, or joins the changes in front of it. -/
theorem step_eq (p : Pending) (e : Edit) :
    p.step e = (p.blocks, first e) ∨
      (∃ f, p = .equal f ∧ e.kind = .equal ∧
        p.step e = ([], .equal { f with len := f.len + e.len })) ∨
      ∃ d n, p = .changed d n ∧
        (e.kind = .delete ∧ p.step e = ([], .changed (some (joined d e)) n) ∨
          e.kind = .insert ∧ p.step e = ([], .changed d (some (joined n e)))) := by
  cases kind : e.kind <;> cases p <;> simp [step, first, kind, blocks]

/-- Lines of one text that changes take, if they take any. -/
def lenOf (changes : Option Edit) : Nat := (changes.map Edit.len).getD 0

@[simp] theorem oldLen_changed (d n : Option Edit) :
    total Block.oldLen (changed d n).blocks = lenOf d := by
  cases d <;> cases n <;> simp [blocks, lenOf]

@[simp] theorem newLen_changed (d n : Option Edit) :
    total Block.newLen (changed d n).blocks = lenOf n := by
  cases d <;> cases n <;> simp [blocks, lenOf]

@[simp] theorem lenOf_joined (first : Option Edit) (e : Edit) :
    lenOf (some (joined first e)) = lenOf first + e.len := by
  cases first <;> simp [joined, lenOf]

theorem pos_joined (first : Option Edit) (h : 0 < e.len) : 0 < (joined first e).len := by
  cases first <;> simp only [joined] <;> omega

/-- Changes that an edit joins stay where they begin. -/
theorem place_joined {place : Edit → Nat} {at_ : Nat} (first : Option Edit)
    (keeps : ∀ f : Edit, place { f with len := f.len + e.len } = place f)
    (hfirst : ∀ f ∈ first, place f = at_) (he : place e = at_ + lenOf first) :
    place (joined first e) = at_ := by
  cases first with
  | none => simpa [joined, lenOf] using he
  | some f => exact (keeps f).trans (hfirst f rfl)

/-- What has been read and one more edit. -/
theorem fits_step (hp : p.Fits a b i j)
    (he : e.Fits a b (i + total Block.oldLen p.blocks) (j + total Block.newLen p.blocks)) :
    BlocksFit a b i j (p.step e).1 ∧
      (p.step e).2.Fits a b (i + total Block.oldLen (p.step e).1)
        (j + total Block.newLen (p.step e).1) ∧
      total Block.oldLen (p.step e).1 + total Block.oldLen (p.step e).2.blocks =
        total Block.oldLen p.blocks + e.oldLen ∧
      total Block.newLen (p.step e).1 + total Block.newLen (p.step e).2.blocks =
        total Block.newLen p.blocks + e.newLen := by
  obtain step | ⟨f, rfl, kind, step⟩ | ⟨d, n, rfl, ⟨kind, step⟩ | ⟨kind, step⟩⟩ := step_eq p e
  · rw [step]
    exact ⟨fits_blocks hp, fits_first he, by rw [total_blocks_first.1], by rw [total_blocks_first.2]⟩
  · obtain ⟨hf, fit⟩ := hp
    have lens : f.oldLen = f.len ∧ f.newLen = f.len := by simp [Edit.oldLen, Edit.newLen, hf]
    have lens' : e.oldLen = e.len ∧ e.newLen = e.len := by simp [Edit.oldLen, Edit.newLen, kind]
    obtain ⟨⟨joins, -⟩, -⟩ := becomes_join (hf.trans kind.symm) i j
      ⟨fit, by simpa [blocks, lens] using he, trivial⟩
    rw [step]
    exact ⟨trivial, ⟨hf, joins⟩, by simp [blocks, lens'], by simp [blocks, lens']⟩
  · obtain ⟨-, hd, hn⟩ := hp
    have hold : e.old = i + lenOf d := by simpa using he.old_eq (by simp [kind])
    have lens : e.oldLen = e.len ∧ e.newLen = 0 := by simp [Edit.oldLen, Edit.newLen, kind]
    rw [step]
    refine ⟨trivial, ⟨by simp, fun f hf => ?_, hn⟩, by simp [lens], by simp [lens]⟩
    obtain rfl := Option.mem_some_iff.1 hf
    exact ⟨pos_joined d he.pos, place_joined d (fun _ => rfl) (fun f hf => (hd f hf).2) hold⟩
  · obtain ⟨-, hd, hn⟩ := hp
    have hnew : e.new = j + lenOf n := by simpa using he.new_eq (by simp [kind])
    have lens : e.oldLen = 0 ∧ e.newLen = e.len := by simp [Edit.oldLen, Edit.newLen, kind]
    rw [step]
    refine ⟨trivial, ⟨by simp, hd, fun f hf => ?_⟩, by simp [lens], by simp [lens]⟩
    obtain rfl := Option.mem_some_iff.1 hf
    exact ⟨pos_joined n he.pos, place_joined n (fun _ => rfl) (fun f hf => (hn f hf).2) hnew⟩

end Pending

section Blocks

variable {a b : Array String} {i j : Nat}

/-- The blocks of a script cover the lines that the script covers. -/
theorem fits_blocksFrom {p : Pending} {es : List Edit} (hp : p.Fits a b i j)
    (hes : EditsFit a b (i + total Block.oldLen p.blocks) (j + total Block.newLen p.blocks) es) :
    BlocksFit a b i j (blocksFrom p es) ∧
      total Block.oldLen (blocksFrom p es) =
        total Block.oldLen p.blocks + total Edit.oldLen es ∧
      total Block.newLen (blocksFrom p es) =
        total Block.newLen p.blocks + total Edit.newLen es := by
  induction es generalizing p i j with
  | nil => exact ⟨Pending.fits_blocks hp, rfl, rfl⟩
  | cons e es ih =>
    obtain ⟨he, hes⟩ := hes
    obtain ⟨done, rest, hold, hnew⟩ := Pending.fits_step hp he
    rw [Nat.add_assoc, Nat.add_assoc, ← hold, ← hnew, ← Nat.add_assoc, ← Nat.add_assoc] at hes
    obtain ⟨fit, hold', hnew'⟩ := ih rest hes
    rw [blocksFrom]
    refine ⟨inStep_append.2 ⟨done, fit⟩, ?_, ?_⟩
    · rw [total_append, hold', total_cons]
      omega
    · rw [total_append, hnew', total_cons]
      omega

/-- From two lines on, the texts are the same to their ends. -/
def SameFrom (a b : Array String) (i j : Nat) : Prop :=
  ∃ n, AgreeFor a b i j n ∧ i + n = a.size ∧ j + n = b.size

theorem SameFrom.prepend {n : Nat} (h : SameFrom a b (i + n) (j + n)) (hn : AgreeFor a b i j n) :
    SameFrom a b i j := by
  obtain ⟨m, same, hi, hj⟩ := h
  exact ⟨n + m, hn.append same, by omega, by omega⟩

/-- Blocks in step, behind which the texts are the same. -/
def BlocksLead (a b : Array String) (i j : Nat) (xs : List Block) : Prop :=
  BlocksFit a b i j xs ∧ SameFrom a b (i + total Block.oldLen xs) (j + total Block.newLen xs)

theorem blocksLead_append {xs ys : List Block} :
    BlocksLead a b i j (xs ++ ys) ↔
      BlocksFit a b i j xs ∧
        BlocksLead a b (i + total Block.oldLen xs) (j + total Block.newLen xs) ys := by
  unfold BlocksLead BlocksFit
  rw [inStep_append, total_append, total_append, and_assoc, Nat.add_assoc, Nat.add_assoc]

theorem blocksLead_cons {x : Block} {xs : List Block} :
    BlocksLead a b i j (x :: xs) ↔
      x.Fits a b i j ∧ BlocksLead a b (i + x.oldLen) (j + x.newLen) xs := by
  rw [← List.singleton_append, blocksLead_append]
  simp

@[simp] theorem blocksLead_nil : BlocksLead a b i j [] ↔ SameFrom a b i j := by
  simp [BlocksLead]

/-- **The blocks of a script that fits.** -/
theorem lead_blocks {es : List Edit} (h : Fits a b es) : BlocksLead a b 0 0 (blocks es) := by
  obtain ⟨fit, hold, hnew⟩ := fits_blocksFrom (p := .nothing) (i := 0) (j := 0) trivial h.inStep
  have hold' : total Block.oldLen (blocks es) = a.size := by
    rw [blocks, hold, h.old_eq]
    simp [Pending.blocks]
  have hnew' : total Block.newLen (blocks es) = b.size := by
    rw [blocks, hnew, h.new_eq]
    simp [Pending.blocks]
  exact ⟨fit, 0, .none, by simp [hold'], by simp [hnew']⟩

end Blocks

/-! ## Hunks that fit -/

section Hunks

variable {a b : Array String} {i j : Nat} {xs current : List Block}

/-- An equality without its first lines. -/
theorem lead_drop {x : Block} {n : Nat} (hx : x.changed = false) (hn : n < x.oldLen)
    (h : BlocksLead a b i j (x :: xs)) : BlocksLead a b (i + n) (j + n) (x.drop n :: xs) := by
  obtain ⟨fit, rest⟩ := blocksLead_cons.1 h
  obtain ⟨-, len, -, -⟩ := fit.place hx
  refine blocksLead_cons.2 ⟨fit.drop hx hn, ?_⟩
  have whole (m : Nat) : m + n + (x.oldLen - n) = m + x.oldLen := by omega
  rw [len] at rest
  simpa only [Block.drop, len, whole] using rest

theorem lead_trimHead (h : BlocksLead a b i j xs) :
    ∃ gap, AgreeFor a b i j gap ∧ BlocksLead a b (i + gap) (j + gap) (trimHead xs) := by
  cases xs with
  | nil => exact ⟨0, .none, h⟩
  | cons x xs =>
    rw [trimHead]
    split
    · exact ⟨0, .none, h⟩
    · next hx =>
      rw [Bool.not_eq_true] at hx
      obtain ⟨fit, -⟩ := blocksLead_cons.1 h
      obtain ⟨pos, -⟩ := fit.place hx
      exact ⟨x.oldLen - context, ((fit.same hx).2).take (Nat.sub_le ..),
        lead_drop hx (Nat.sub_lt pos (by decide)) h⟩

theorem lead_trimLast (h : BlocksLead a b i j xs) : BlocksLead a b i j (trimLast xs) := by
  fun_induction trimLast xs generalizing i j with
  | case1 => exact h
  | case2 x hx => exact h
  | case3 x hx =>
    rw [Bool.not_eq_true] at hx
    obtain ⟨fit, rest⟩ := blocksLead_cons.1 h
    obtain ⟨pos, len, -, -⟩ := fit.place hx
    refine blocksLead_cons.2 ⟨fit.take hx (by decide), blocksLead_nil.2 ?_⟩
    rw [blocksLead_nil, len] at rest
    simp only [Block.take, len]
    refine SameFrom.prepend (n := x.oldLen - min x.oldLen context) ?_ ((fit.same hx).2.drop _)
    convert rest using 1 <;> omega
  | case4 x xs _ ih =>
    obtain ⟨fit, rest⟩ := blocksLead_cons.1 h
    exact blocksLead_cons.2 ⟨fit, ih rest⟩

/-- Whether the places that a hunk begins with are these. -/
def StartsAt (i j : Nat) (hunk : List Block) : Prop :=
  ∀ x ∈ hunk.head?, x.old = i ∧ x.new = j

/-- Whether the places that a hunk ends with are these. -/
def StopsAt (i j : Nat) (hunk : List Block) : Prop :=
  ∀ x ∈ hunk.getLast?, x.oldStop = i ∧ x.newStop = j

/-- Hunks that fit from two lines on, of which the first stands there.  Between two of them the
    texts are the same, and each shows the right places there. -/
def HunksFit (a b : Array String) : Nat → Nat → List (List Block) → Prop
  | i, j, [] => SameFrom a b i j
  | i, j, hunk :: hunks =>
    hunk ≠ [] ∧ BlocksFit a b i j hunk ∧
      (hunks ≠ [] →
        StopsAt (i + total Block.oldLen hunk) (j + total Block.newLen hunk) hunk) ∧
      ∃ gap, AgreeFor a b (i + total Block.oldLen hunk) (j + total Block.newLen hunk) gap ∧
        (∀ next ∈ hunks.head?, StartsAt (i + total Block.oldLen hunk + gap)
          (j + total Block.newLen hunk + gap) next) ∧
        HunksFit a b (i + total Block.oldLen hunk + gap) (j + total Block.newLen hunk + gap) hunks

/-- The first group begins with what is being read. -/
theorem head?_groups (xs : List Block) (hcurrent : current ≠ []) :
    ∃ hunk hunks, groups current xs = hunk :: hunks ∧ hunk.head? = current.getLast? := by
  induction xs generalizing current with
  | nil => exact ⟨current.reverse, [], rfl, List.head?_reverse⟩
  | cons x xs ih =>
    rw [groups]
    split
    · refine ⟨_, _, rfl, ?_⟩
      rw [List.head?_reverse, List.getLast?_cons_of_ne_nil hcurrent]
    · obtain ⟨hunk, hunks, heq, hhead⟩ := ih (List.cons_ne_nil x current)
      exact ⟨hunk, hunks, heq, by rw [hhead, List.getLast?_cons_of_ne_nil hcurrent]⟩

theorem fit_groups (hne : current.reverse ++ xs ≠ [])
    (h : BlocksLead a b i j (current.reverse ++ xs)) : HunksFit a b i j (groups current xs) := by
  induction xs generalizing current i j with
  | nil =>
    rw [List.append_nil] at hne h
    exact ⟨hne, h.1, fun absurd => (absurd rfl).elim, 0, .none, by simp, h.2⟩
  | cons x xs ih =>
    rw [groups]
    split
    · next cut =>
      obtain ⟨hx, long⟩ : x.changed = false ∧ 2 * context < x.oldLen := by simpa using cut
      obtain ⟨fit, rest⟩ := blocksLead_append.1 h
      obtain ⟨hfit, rest⟩ := blocksLead_cons.1 rest
      obtain ⟨-, len, hold, hnew⟩ := hfit.place hx
      -- the long equality is cut: its first lines close the one hunk, its last ones open the next
      have old : (x.take context).oldLen = context := Nat.min_eq_right (by omega)
      have new : (x.take context).newLen = context := Nat.min_eq_right (by omega)
      obtain ⟨hunk, hunks, heq, hhead⟩ :=
        head?_groups xs (List.cons_ne_nil (x.drop (x.oldLen - context)) [])
      rw [List.reverse_cons, HunksFit, total_append, total_append, total_cons, total_cons, total_nil,
        total_nil, old, new, Nat.add_zero, ← Nat.add_assoc i, ← Nat.add_assoc j]
      have cut (n : Nat) :
          n + context + (x.oldLen - 2 * context) = n + (x.oldLen - context) := by omega
      refine ⟨by simp, inStep_append.2 ⟨fit, hfit.take hx (by decide), trivial⟩, fun _ => ?_,
        x.oldLen - 2 * context, ?_, ?_, ?_⟩
      · intro last hlast
        obtain rfl : x.take context = last := by simpa using hlast
        rw [Block.oldStop, Block.newStop, old, new, ← hold, ← hnew]
        exact ⟨rfl, rfl⟩
      · exact ((hfit.same hx).2.drop context).take (by omega)
      · intro next hnext first hfirst
        rw [heq, List.head?_cons, Option.mem_some_iff] at hnext
        rw [← hnext, hhead] at hfirst
        obtain rfl : x.drop (x.oldLen - context) = first := by simpa using hfirst
        rw [cut, cut, ← hold, ← hnew]
        exact ⟨rfl, rfl⟩
      · rw [cut, cut]
        refine ih (by simp) (lead_drop hx ?_ (blocksLead_cons.2 ⟨hfit, rest⟩))
        exact Nat.sub_lt (by omega) (by decide)
    · refine ih (by simp) ?_
      rwa [List.reverse_cons, List.append_assoc]

/-- A last hunk that shows no change may go. -/
theorem HunksFit.dropLast {hunks : List (List Block)} (h : HunksFit a b i j hunks)
    (idle : ∀ hunk ∈ hunks.getLast?, isIdle hunk = true) : HunksFit a b i j hunks.dropLast := by
  induction hunks generalizing i j with
  | nil => exact h
  | cons hunk hunks ih =>
    obtain ⟨ne, fit, stops, gap, same, starts, rest⟩ := h
    cases hunks with
    | nil =>
      -- the hunk is one equality, and what is behind it is the same as well
      match hunk, idle hunk rfl, ne with
      | [x], hx, _ =>
        have hx : x.changed = false := by simpa [isIdle] using hx
        obtain ⟨hfit, -⟩ := fit
        obtain ⟨-, len, -, -⟩ := hfit.place hx
        have rest : SameFrom a b (i + x.oldLen + gap) (j + x.newLen + gap) := by
          simpa [HunksFit] using rest
        have same : AgreeFor a b (i + x.oldLen) (j + x.newLen) gap := by simpa using same
        have rest := rest.prepend same
        rw [len] at rest
        exact rest.prepend (hfit.same hx).2
    | cons next hunks =>
      refine ⟨ne, fit, fun _ => stops (by simp), gap, same, ?_, ih rest ?_⟩
      · intro first hfirst
        refine starts first ?_
        cases hunks with
        | nil => cases hfirst
        | cons => exact hfirst
      · simpa using idle

/-- **The hunks of blocks that lead from one text to another.** -/
theorem fit_hunks (h : BlocksLead a b 0 0 xs) :
    ∃ gap, AgreeFor a b 0 0 gap ∧ HunksFit a b gap gap (hunks xs) := by
  obtain ⟨gap, same, lead⟩ := lead_trimHead h
  have lead := lead_trimLast lead
  rw [Nat.zero_add] at lead
  refine ⟨gap, same, ?_⟩
  rw [hunks]
  generalize trimLast (trimHead xs) = xs at lead
  cases xs with
  | nil => exact blocksLead_nil.1 lead
  | cons x xs =>
    have fit : HunksFit a b gap gap (groups [] (x :: xs)) := fit_groups (by simp) lead
    split
    · next last hlast =>
      split
      · next idle =>
        refine fit.dropLast fun hunk hhunk => ?_
        obtain rfl : last = hunk := by simpa [hlast] using hhunk
        exact idle
      · exact fit
    · exact fit

end Hunks

end CallSweep.Diff
