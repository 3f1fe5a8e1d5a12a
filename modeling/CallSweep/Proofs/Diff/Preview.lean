/-
  A diff is a faithful patch.

  1. **What hunks show** (`sides_of_fit`) — blocks that fit show the lines that the texts have there.

  2. **Where hunks stand** (`placed_of_fit`) — for hunks that fit there are ranges with which they
     lead from one text to the other.  The ranges that are printed are these but for the start of the
     first hunk and the end of the last one; and those are right if they cut both texts off alike.

  3. **The diff** reads back to such hunks, and is empty for equal texts alone.
-/
import CallSweep.Walk
import CallSweep.Proofs.Diff.Hunk
import CallSweep.Proofs.Diff.Reading

namespace CallSweep.Diff

/-! ## What hunks show -/

section Sides

variable {a b : Array String} {i j n : Nat}

theorem AgreeFor.take_eq (h : AgreeFor a b i j n) :
    (a.toList.drop i).take n = (b.toList.drop j).take n := by
  refine List.ext_getElem? fun k => ?_
  rw [List.getElem?_take, List.getElem?_take]
  split
  · next hk =>
    obtain ⟨line, ha, hb⟩ := agree_iff.1 (h k hk)
    rw [List.getElem?_drop, List.getElem?_drop, Array.getElem?_toList, Array.getElem?_toList, ha, hb]
  · rfl

/-- Both texts have the lines that they agree on. -/
theorem AgreeFor.length_take (h : AgreeFor a b i j n) : ((a.toList.drop i).take n).length = n := by
  cases n with
  | zero => simp
  | succ n =>
    obtain ⟨line, ha, -⟩ := agree_iff.1 (h n (Nat.lt_succ_self n))
    have := (Array.getElem?_eq_some_iff.1 ha).1
    simp
    omega

theorem SameFrom.drop_eq (h : SameFrom a b i j) : a.toList.drop i = b.toList.drop j := by
  obtain ⟨n, same, hi, hj⟩ := h
  have := same.take_eq
  rwa [List.take_of_length_le (by simp; omega), List.take_of_length_le (by simp; omega)] at this

/-- The lines that a block shows of the texts are theirs. -/
theorem sides_of_block {x : Block} (h : x.Fits a b i j) :
    oldSide (bodyOf a b x) = (a.toList.drop i).take x.oldLen ∧
      newSide (bodyOf a b x) = (b.toList.drop j).take x.newLen := by
  have old : (a.extract x.old x.oldStop).toList = (a.toList.drop i).take x.oldLen := by
    rw [Array.toList_extract, List.extract_eq_take_drop, Block.oldStop, Nat.add_sub_cancel_left]
    obtain none | pos := Nat.eq_zero_or_pos x.oldLen
    · simp [none]
    · rw [h.old_eq pos]
  have new : (b.extract x.new x.newStop).toList = (b.toList.drop j).take x.newLen := by
    rw [Array.toList_extract, List.extract_eq_take_drop, Block.newStop, Nat.add_sub_cancel_left]
    obtain none | pos := Nat.eq_zero_or_pos x.newLen
    · simp [none]
    · rw [h.new_eq pos]
  rw [bodyOf]
  split
  · rw [old, new, oldSide_append, newSide_append, oldSide_map, oldSide_map, newSide_map, newSide_map]
    simp
  · next hx =>
    rw [Bool.not_eq_true] at hx
    obtain ⟨len, same⟩ := h.same hx
    rw [old, oldSide_map, newSide_map, len]
    exact ⟨rfl, same.take_eq⟩

theorem sides_of_fit {xs : List Block} (h : BlocksFit a b i j xs) :
    oldSide (xs.flatMap (bodyOf a b)) = (a.toList.drop i).take (total Block.oldLen xs) ∧
      newSide (xs.flatMap (bodyOf a b)) = (b.toList.drop j).take (total Block.newLen xs) := by
  induction xs generalizing i j with
  | nil => simp [oldSide, newSide]
  | cons x xs ih =>
    obtain ⟨fit, rest⟩ := h
    obtain ⟨old, new⟩ := ih rest
    obtain ⟨old', new'⟩ := sides_of_block fit
    rw [List.flatMap_cons, oldSide_append, newSide_append, old, new, old', new', total_cons, total_cons,
      List.take_add, List.take_add, List.drop_drop, List.drop_drop]
    exact ⟨rfl, rfl⟩

end Sides

/-! ## Where hunks stand -/

section Placing

variable {a b : Array String} {i j : Nat}

/-- The lines from `i` on as `m` lines, `n` lines and the rest. -/
theorem drop_eq_parts (ls : List String) (i m n : Nat) :
    ls.drop i = (ls.drop i).take m ++ ((ls.drop (i + m)).take n ++ ls.drop (i + m + n)) := by
  rw [← List.drop_drop (i := n), List.take_append_drop, ← List.drop_drop, List.take_append_drop]

/-- Hunks that fit end within the texts. -/
theorem HunksFit.le {hunks : List (List Block)} (h : HunksFit a b i j hunks) :
    i ≤ a.size ∧ j ≤ b.size := by
  induction hunks generalizing i j with
  | nil =>
    obtain ⟨n, -, hi, hj⟩ := h
    exact ⟨by omega, by omega⟩
  | cons hunk hunks ih =>
    obtain ⟨-, -, -, gap, -, -, rest⟩ := h
    have := ih rest
    exact ⟨by omega, by omega⟩

theorem last_of_fit {xs : List Block} (h : BlocksFit a b i j xs) (hne : xs ≠ []) :
    ∃ i' j', (xs.getLast hne).Fits a b i' j' ∧
      i' + (xs.getLast hne).oldLen = i + total Block.oldLen xs ∧
      j' + (xs.getLast hne).newLen = j + total Block.newLen xs := by
  have split := List.dropLast_append_getLast hne
  have total_old := congrArg (total Block.oldLen) split
  have total_new := congrArg (total Block.newLen) split
  rw [total_append, total_cons, total_nil] at total_old total_new
  rw [← split] at h
  obtain ⟨-, fit, -⟩ := inStep_append.1 h
  exact ⟨_, _, fit, by omega, by omega⟩

/-- The ranges that are printed of a hunk that starts where it stands. -/
theorem range_of_start {hunk : List Block} (fit : BlocksFit a b i j hunk) (hne : hunk ≠ [])
    (start : StartsAt i j hunk)
    (stop : StopsAt (i + total Block.oldLen hunk) (j + total Block.newLen hunk) hunk ∨
      (Hunk.ofBlocks a b hunk).old.stop + (j + total Block.newLen hunk) =
        (Hunk.ofBlocks a b hunk).new.stop + (i + total Block.oldLen hunk)) :
    Hunk.ofBlocks a b hunk =
      ⟨⟨i, total Block.oldLen hunk⟩, ⟨j, total Block.newLen hunk⟩, hunk.flatMap (bodyOf a b)⟩ := by
  obtain ⟨i', j', last, hold, hnew⟩ := last_of_fit fit hne
  obtain ⟨first, rest, rfl⟩ := List.exists_cons_of_ne_nil hne
  obtain ⟨rfl, rfl⟩ := start first rfl
  have pos := last.pos
  have old_eq := last.old_eq
  have new_eq := last.new_eq
  have len : ((first :: rest).getLast hne).oldStop - first.old = total Block.oldLen (first :: rest) ∧
      ((first :: rest).getLast hne).newStop - first.new = total Block.newLen (first :: rest) := by
    obtain stop | stop := stop
    · obtain ⟨old, new⟩ := stop _ (List.getLast?_eq_some_getLast hne)
      omega
    · -- the last block is right about one text at least, and so about how much is behind it in both
      simp only [Hunk.ofBlocks, Range.stop, Block.oldStop, Block.newStop] at stop ⊢
      omega
  simp only [Hunk.ofBlocks, len]

/-- The lines of both texts that a hunk shows are as many as its blocks take. -/
theorem length_sides {hunk : List Block} (fit : BlocksFit a b i j hunk)
    (hi : i + total Block.oldLen hunk ≤ a.size) (hj : j + total Block.newLen hunk ≤ b.size) :
    (oldSide (hunk.flatMap (bodyOf a b))).length = total Block.oldLen hunk ∧
      (newSide (hunk.flatMap (bodyOf a b))).length = total Block.newLen hunk := by
  obtain ⟨old, new⟩ := sides_of_fit fit
  rw [old, new, List.length_take, List.length_take, List.length_drop, List.length_drop,
    Array.length_toList, Array.length_toList]
  omega

/-- Every hunk shows a line. -/
theorem HunksFit.body_ne_nil {hunks : List (List Block)} (h : HunksFit a b i j hunks) :
    ∀ hunk ∈ hunks, hunk.flatMap (bodyOf a b) ≠ [] := by
  induction hunks generalizing i j with
  | nil => simp
  | cons hunk hunks ih =>
    obtain ⟨ne, fit, -, gap, -, -, rest⟩ := h
    refine List.forall_mem_cons.2 ⟨fun none => ?_, ih rest⟩
    obtain ⟨hi, hj⟩ := rest.le
    obtain ⟨old, new⟩ := length_sides fit (by omega) (by omega)
    rw [none] at old new
    obtain ⟨first, tail, rfl⟩ := List.exists_cons_of_ne_nil ne
    have pos := fit.1.pos
    simp only [oldSide, newSide, List.filter_nil, List.map_nil, List.length_nil, total_cons] at old new
    omega

/-- A first hunk that is said to start alike in both texts starts where it stands. -/
theorem starts_of_alike {hunks : List (List Block)} (h : HunksFit a b i i hunks)
    (alike : ∀ first ∈ (hunks.map (Hunk.ofBlocks a b)).head?, first.old.start = first.new.start) :
    ∀ first ∈ hunks.head?, StartsAt i i first := by
  rintro first hfirst x hx
  cases hunks with
  | nil => cases hfirst
  | cons hunk hunks =>
    obtain rfl : hunk = first := by simpa using hfirst
    obtain ⟨-, fit, -⟩ := h
    cases hunk with
    | nil => cases hx
    | cons y hunk =>
      obtain rfl : y = x := by simpa using hx
      have same : y.old = y.new := alike _ rfl
      have pos := fit.1.pos
      have old := fit.1.old_eq
      have new := fit.1.new_eq
      omega

/-- **Hunks that fit lead from one text to the other**, with some ranges.  Those that are printed
    are right if the first hunk starts where it stands and the last one ends alike in both. -/
theorem placed_of_fit {hunks : List (List Block)} {gap : Nat} (same : AgreeFor a b i j gap)
    (h : HunksFit a b (i + gap) (j + gap) hunks) :
    ∃ right, right.map Hunk.lines = hunks.map (·.flatMap (bodyOf a b)) ∧
      Placed i j (a.toList.drop i) (b.toList.drop j) right ∧
      ((∀ first ∈ hunks.head?, StartsAt (i + gap) (j + gap) first) →
        (∀ last ∈ (hunks.map (Hunk.ofBlocks a b)).getLast?,
          last.old.stop + b.size = last.new.stop + a.size) →
        hunks.map (Hunk.ofBlocks a b) = right) := by
  induction hunks generalizing i j gap with
  | nil =>
    refine ⟨[], rfl, ?_, fun _ _ => rfl⟩
    rw [(SameFrom.prepend h same).drop_eq]
    exact .rest ..
  | cons hunk hunks ih =>
    obtain ⟨ne, fit, stops, gap', same', starts, rest⟩ := h
    obtain ⟨right, hlines, placed, agrees⟩ := ih same' rest
    obtain ⟨old, new⟩ := sides_of_fit fit
    obtain ⟨hi, hj⟩ := rest.le
    obtain ⟨hold, hnew⟩ := length_sides fit (by omega) (by omega)
    -- the hunk with the ranges that are right, which need not be those that are printed
    let here : Hunk := ⟨⟨i + gap, total Block.oldLen hunk⟩, ⟨j + gap, total Block.newLen hunk⟩,
      hunk.flatMap (bodyOf a b)⟩
    have oldText : a.toList.drop i = (a.toList.drop i).take gap ++
        (oldSide here.lines ++ a.toList.drop (i + gap + total Block.oldLen hunk)) := by
      rw [old]
      exact drop_eq_parts ..
    have newText : b.toList.drop j = (a.toList.drop i).take gap ++
        (newSide here.lines ++ b.toList.drop (j + gap + total Block.newLen hunk)) := by
      rw [new, same.take_eq]
      exact drop_eq_parts ..
    refine ⟨here :: right, by simp [here, hlines], ?_, fun first last => ?_⟩
    · have := Placed.hunk (i := i) (j := j) (h := here) ((a.toList.drop i).take gap)
        (by rw [same.length_take, hold]) (by rw [same.length_take, hnew]) placed
      rwa [← oldText, ← newText] at this
    · have printed : Hunk.ofBlocks a b hunk = here := by
        refine range_of_start fit ne (first hunk rfl) ?_
        cases hunks with
        | nil =>
          obtain ⟨n, -, hi, hj⟩ : SameFrom a b _ _ := rest
          have := last (Hunk.ofBlocks a b hunk) rfl
          exact .inr (by omega)
        | cons => exact .inl (stops (by simp))
      rw [List.map_cons, printed, agrees starts]
      intro h hlast
      refine last h ?_
      rw [List.map_cons, List.getLast?_cons, hlast]
      rfl

end Placing

/-! ## Equal texts -/

section Equal

variable (a : Array String)

theorem runAhead_self {i most : Nat} (h : i + most ≤ a.size) : runAhead a a i i most = most := by
  induction most generalizing i with
  | zero => rfl
  | succ most ih =>
    have here : agree a a i i = true :=
      agree_iff.2 ⟨a[i], Array.getElem?_eq_getElem (by omega), Array.getElem?_eq_getElem (by omega)⟩
    rw [runAhead, if_pos here, ih (by omega)]

theorem script_self : script a a = Edit.equals 0 0 a.size := by
  have ahead : runAhead a a 0 0 a.size = a.size := runAhead_self a (by simp)
  rw [script, Window.edits]
  simp [ahead, runBack, Edit.equals]

/-- An equality alone makes no hunk. -/
theorem hunks_same (n : Nat) : hunks [.same 0 0 n] = [] := by
  have short : ((Block.same 0 0 n).drop (n - context)).take context =
      ⟨false, n - context, min n context, n - context, min n context⟩ := by
    simp [Block.same, Block.drop, Block.take]
    omega
  have trimmed : trimLast (trimHead [.same 0 0 n]) =
      [⟨false, n - context, min n context, n - context, min n context⟩] := by
    rw [← short]
    rfl
  have uncut : ¬ 2 * context < min n context := by omega
  rw [hunks, trimmed]
  simp [groups, uncut, isIdle]

theorem hunksOf_self : hunksOf a a = [] := by
  rw [hunksOf, script_self, Edit.equals]
  split
  · rfl
  · exact hunks_same a.size

end Equal

/-! ## The diff -/

/-- The text that hunks make of another. -/
def patch (hunks : List Hunk) (text : String) : Option String :=
  (applyFrom 0 0 (lines text) hunks).map String.join

theorem patch_of_placed {hunks : List Hunk} {before after : String}
    (h : Placed 0 0 (lines before) (lines after) hunks) : patch hunks before = some after := by
  rw [patch, applyFrom_eq_some_iff.2 h, Option.map_some, join_lines]

/-- Texts of which the lines are the same are the same. -/
theorem lines_inj {before after : String} : lines before = lines after ↔ before = after :=
  ⟨fun h => by rw [← join_lines before, h, join_lines], congrArg lines⟩

/-- The hunks of two texts, and ranges with which they lead from one to the other. -/
theorem exists_placed (before after : String) {a b : Array String}
    (ha : a = (lines before).toArray) (hb : b = (lines after).toArray) :
    (∀ hunk ∈ hunksOf a b, hunk.flatMap (bodyOf a b) ≠ []) ∧
      ∃ right, right.map Hunk.lines = (hunksOf a b).map (·.flatMap (bodyOf a b)) ∧
        Placed 0 0 (lines before) (lines after) right ∧
        (EndsAlike (lines before).length (lines after).length
            ((hunksOf a b).map (Hunk.ofBlocks a b)) →
          (hunksOf a b).map (Hunk.ofBlocks a b) = right) := by
  obtain ⟨gap, same, fit⟩ := fit_hunks (lead_blocks (fits_compact (fits_script a b)))
  change HunksFit a b gap gap (hunksOf a b) at fit
  obtain ⟨right, hlines, placed, agrees⟩ :=
    placed_of_fit (i := 0) (j := 0) same (by rwa [Nat.zero_add])
  have sizes : (lines before).length = a.size ∧ (lines after).length = b.size := by simp [ha, hb]
  refine ⟨fit.body_ne_nil, right, hlines, by simpa [ha, hb] using placed, fun alike => ?_⟩
  rw [sizes.1, sizes.2] at alike
  rw [Nat.zero_add] at agrees
  exact agrees (starts_of_alike fit alike.1) alike.2

theorem hunksOf_eq_nil_iff (before after : String) :
    hunksOf (lines before).toArray (lines after).toArray = [] ↔ before = after := by
  constructor
  · intro none
    obtain ⟨-, right, hlines, placed, -⟩ := exists_placed before after rfl rfl
    obtain rfl : right = [] := by simpa [none] using hlines
    exact lines_inj.1 (Option.some.inj (applyFrom_eq_some_iff.2 placed))
  · rintro rfl
    exact hunksOf_self _

theorem unified_eq_empty_iff (label before after : String) :
    unified label before after = "" ↔ before = after := by
  rw [← hunksOf_eq_nil_iff before after, unified]
  split
  · next none => simp [none]
  · next found => simpa [fileHeader] using found

/-- **A diff is a faithful patch.**  It is empty for equal texts alone.  Otherwise it reads back to
    hunks of which the lines, given the right ranges, lead from the old text to the new one, and
    turned round, back.  The ranges that it prints are the right ones just where they cut both texts
    off alike: the first hunk has as many lines in front of it in both, the last one as many behind
    it.  And a run that only shows what it would change tells this diff of the texts that another
    run would take from the file and put there. -/
theorem unified_patches (label before after : String) :
    (unified label before after = "" ↔ before = after) ∧
      (before ≠ after →
        ∃ hunks right, readDiff label (unified label before after) = some hunks ∧ hunks ≠ [] ∧
          right.map Hunk.lines = hunks.map Hunk.lines ∧
          patch right before = some after ∧ patch (right.map Hunk.swap) after = some before ∧
          (hunks = right ↔ EndsAlike (lines before).length (lines after).length hunks)) ∧
      ∀ plan p, Walk.replace plan p before after =
        if plan.dryRun then do
          Walk.tell (.info (unified p.display before after))
          return .ok ()
        else return (← writeSource p after plan.atomicWrite).mapError (.write p) := by
  refine ⟨unified_eq_empty_iff .., fun differ => ?_, fun plan p => rfl⟩
  obtain ⟨shows, right, hlines, placed, agrees⟩ := exists_placed before after rfl rfl
  have found := mt (hunksOf_eq_nil_iff before after).1 differ
  refine ⟨_, right, readDiff_unified label rfl rfl rfl found shows, ?_, ?_, patch_of_placed placed,
    patch_of_placed placed.swap, fun same => same ▸ placed.endsAlike, agrees⟩
  · simpa using found
  · rw [hlines, List.map_map]
    refine List.map_congr_left fun hunk _ => ?_
    cases hunk <;> rfl

/-- Two deletions in a text with all three line endings and none at its end. -/
theorem unified_patches_mixed_endings :
    "a\r\nb\rc\nd" ≠ "a\r\nc\n" ∧
      ∃ hunks right, readDiff "f" (unified "f" "a\r\nb\rc\nd" "a\r\nc\n") = some hunks ∧
        hunks ≠ [] ∧ right.map Hunk.lines = hunks.map Hunk.lines ∧
        patch right "a\r\nb\rc\nd" = some "a\r\nc\n" ∧
        patch (right.map Hunk.swap) "a\r\nc\n" = some "a\r\nb\rc\nd" ∧
        (hunks = right ↔ EndsAlike (lines "a\r\nb\rc\nd").length (lines "a\r\nc\n").length hunks) :=
  ⟨by decide, (unified_patches "f" "a\r\nb\rc\nd" "a\r\nc\n").2.1 (by decide)⟩

/-- A line that is deleted at the head of a text, where another one is inserted at its end. -/
theorem unified_misplaced :
    (readDiff "f" (unified "f" "b\na\n" "a\na\n")).bind (patch · "b\na\n") = none := by
  decide +kernel

end CallSweep.Diff
