/-
  What a second sweep of a text finds.

  Taking calls out of a text brings characters together that were apart, and these may spell a new
  call: `console.console.log(1)log(2)` is swept to `console.log(2)`.  This file says exactly when.

  1. **What is kept.**  `CallPattern.kept` is the swept text by recursion on the scan, and
     `toList_modified` says that it is what `sweep` gives.
  2. **Seams.**  `CallPattern.seams` are the byte offsets in the swept text where something was cut
     out.
  3. **No new call away from the seams.**  A call that ends before the next seam was a call of the
     text as it was (`matchAt_append_isSome`), and there every place that is kept had failed.  So
     `exists_seam_of_matchAt`: every call of the swept text lies over a seam.

  `spans_modified_eq_nil_iff` draws the conclusion: a second sweep changes nothing exactly if no
  call of the swept text lies over a seam.  And what it takes out, if anything, lies over seams
  (`exists_seam_of_mem_spans`).
-/
import Mathlib.Algebra.GroupWithZero.Nat
import CallSweep.Call.Sweep
import CallSweep.Proofs.Call.PlainScan

namespace CallSweep

open Text (isLineTerminator width width_nil width_cons width_append width_toList splitAtByte
  splitAtByte_width)

/-! ## Cutting at a byte -/

theorem splitAtByte_zero (cs : List Char) : splitAtByte 0 cs = ([], cs) :=
  splitAtByte_width [] cs

theorem splitAtByte_go_taken (taken : List Char) (n : Nat) (cs : List Char) :
    splitAtByte.go taken n cs =
      (taken.reverse ++ (splitAtByte n cs).1, (splitAtByte n cs).2) := by
  induction cs generalizing taken n with
  | nil => cases n <;> simp [splitAtByte, splitAtByte.go]
  | cons c cs ih =>
    cases n with
    | zero => simp [splitAtByte, splitAtByte.go]
    | succ n =>
      rw [splitAtByte, splitAtByte.go, splitAtByte.go, ih, ih [c]]
      simp

/-- A cut behind the first character. -/
theorem splitAtByte_cons (c : Char) (n : Nat) (cs : List Char) :
    splitAtByte (c.utf8Size + n) (c :: cs) = (c :: (splitAtByte n cs).1, (splitAtByte n cs).2) := by
  have hpos := c.utf8Size_pos
  have hsucc : c.utf8Size + n = c.utf8Size + n - 1 + 1 := by omega
  have hrest : c.utf8Size + n - 1 + 1 - c.utf8Size = n := by omega
  rw [hsucc, splitAtByte, splitAtByte.go, hrest, splitAtByte_go_taken]
  simp

namespace CallPattern

/-! ## What is kept -/

/-- The characters that a sweep leaves. -/
def kept (p : CallPattern) (cs : List Char) : List Char :=
  match cs with
  | [] => []
  | c :: cs =>
    match _hm : p.matchAt (c :: cs) with
    | some (_, rest) => p.kept rest
    | none => c :: p.kept cs
termination_by cs.length
decreasing_by
  · exact length_lt_of_matchAt _hm
  · exact Nat.lt_succ_self cs.length

@[simp] theorem kept_nil (p : CallPattern) : p.kept [] = [] := by
  rw [kept]

theorem kept_of_match {p : CallPattern} {stop : Nat} {c : Char} {cs rest : List Char}
    (h : p.matchAt (c :: cs) = some (stop, rest)) : p.kept (c :: cs) = p.kept rest := by
  rw [kept]
  split
  · next hm =>
    rw [h, Option.some.injEq, Prod.mk.injEq] at hm
    rw [hm.2]
  · next hm => simp [h] at hm

theorem kept_of_none {p : CallPattern} {c : Char} {cs : List Char}
    (h : p.matchAt (c :: cs) = none) : p.kept (c :: cs) = c :: p.kept cs := by
  rw [kept]
  split
  · next hm => simp [h] at hm
  · rfl

theorem length_kept_le (p : CallPattern) (cs : List Char) :
    (p.kept cs).length ≤ cs.length := by
  induction cs using p.scan_induction with
  | nil => simp
  | call c cs rest stop hm ih =>
    rw [kept_of_match hm]
    exact Nat.le_trans ih (Nat.le_of_lt (length_lt_of_matchAt hm))
  | plain c cs hm ih =>
    rw [kept_of_none hm, List.length_cons, List.length_cons]
    omega

/-- All is kept only where nothing is found. -/
theorem kept_eq_self_iff {p : CallPattern} {offset : Nat} {cs : List Char} :
    p.kept cs = cs ↔ p.spansFrom offset cs = [] := by
  induction cs using p.scan_induction generalizing offset with
  | nil => simp
  | call c cs rest stop hm ih =>
    rw [kept_of_match hm, spansFrom_of_match hm]
    have hlt : (p.kept rest).length < (c :: cs).length :=
      Nat.lt_of_le_of_lt (p.length_kept_le rest) (length_lt_of_matchAt hm)
    constructor
    · intro h
      rw [h] at hlt
      exact absurd hlt (Nat.lt_irrefl _)
    · intro h
      exact absurd h (List.cons_ne_nil _ _)
  | plain c cs hm ih =>
    rw [kept_of_none hm, spansFrom_of_none hm, List.cons.injEq, ← ih]
    simp

/-- Spans begin where the scan begins, or later. -/
theorem le_start_of_mem_spansFrom {p : CallPattern} {offset : Nat} {cs : List Char} {s : Span}
    (h : s ∈ p.spansFrom offset cs) : offset ≤ s.start := by
  induction cs using p.scan_induction generalizing offset with
  | nil => simp at h
  | call c cs rest stop hm ih =>
    rw [spansFrom_of_match hm] at h
    rcases List.mem_cons.1 h with rfl | h
    · exact Nat.le_refl offset
    · have := ih h
      omega
  | plain c cs hm ih =>
    rw [spansFrom_of_none hm] at h
    have := ih h
    omega

/-! ## What a sweep leaves -/

/-- Cutting passes over a character in front of all spans. -/
theorem cut_cons {offset : Nat} {here : Position} {c : Char} {cs : List Char}
    {spans : List Span} (h : ∀ s ∈ spans, offset + c.utf8Size ≤ s.start) :
    cut offset here (c :: cs) spans =
      (c :: (cut (offset + c.utf8Size) (here.step c) cs spans).1,
        (cut (offset + c.utf8Size) (here.step c) cs spans).2) := by
  cases spans with
  | nil => rfl
  | cons s spans =>
    have hstart := h s List.mem_cons_self
    have hdistance : s.start - offset = c.utf8Size + (s.start - (offset + c.utf8Size)) := by omega
    rw [cut, cut, hdistance, splitAtByte_cons]
    rfl

/-- Cutting takes out a span at the head of the text. -/
theorem cut_append {offset : Nat} {here : Position} {taken rest : List Char}
    {spans : List Span} :
    cut offset here (taken ++ rest) (.ofWidth offset (width taken) :: spans) =
      ((cut (offset + width taken) (here.advance taken) rest spans).1,
        ⟨.ofWidth offset (width taken), here, String.ofList taken⟩ ::
          (cut (offset + width taken) (here.advance taken) rest spans).2) := by
  have hlength : (Span.ofWidth offset (width taken)).length = width taken :=
    Nat.add_sub_cancel_left offset (width taken)
  have hstart : (Span.ofWidth offset (width taken)).start - offset = 0 := Nat.sub_self offset
  rw [cut, hstart, splitAtByte_zero, hlength]
  simp only [splitAtByte_width]
  rfl

theorem cut_spansFrom (p : CallPattern) (offset : Nat) (here : Position) (cs : List Char) :
    (cut offset here cs (p.spansFrom offset cs)).1 = p.kept cs := by
  induction cs using p.scan_induction generalizing offset here with
  | nil => simp [cut]
  | call c cs rest stop hm ih =>
    obtain ⟨taken, htaken, rfl⟩ := exists_taken_of_matchAt hm
    rw [spansFrom_of_match hm, kept_of_match hm, htaken, cut_append]
    exact ih _ _
  | plain c cs hm ih =>
    rw [spansFrom_of_none hm, kept_of_none hm, cut_cons fun s hs => le_start_of_mem_spansFrom hs,
      ih]

theorem toList_modified (p : CallPattern) (text : String) :
    (p.sweep text).modified.toList = p.kept text.toList := by
  show (String.ofList (cut 0 .start text.toList (p.spansFrom 0 text.toList)).1).toList = _
  rw [String.toList_ofList, cut_spansFrom]

/-- A sweep changes every text in which it finds something. -/
theorem modified_eq_self_iff (p : CallPattern) (text : String) :
    (p.sweep text).modified = text ↔ (p.sweep text).isUnchanged = true := by
  have nothing : (p.sweep text).isUnchanged = true ↔ p.spans text = [] := by
    show (cut 0 .start text.toList (p.spans text)).2.isEmpty = true ↔ _
    cases p.spans text with
    | nil => simp [cut]
    | cons span spans => simp [cut]
  rw [nothing, ← String.toList_inj, toList_modified, kept_eq_self_iff, spans]

end CallPattern

/-! ## Seams -/

/-- Where the cuts of some spans fall in the text that they leave, `removed` bytes having gone
    before. -/
def seamsOf (removed : Nat) : List Span → List Nat
  | [] => []
  | s :: spans => (s.start - removed) :: seamsOf (removed + s.length) spans

namespace CallPattern

/-- The byte offsets in the swept text at which a call was cut out. -/
def seams (p : CallPattern) (text : String) : List Nat := seamsOf 0 (p.spans text)

/-- Whether a call in a text begins before the byte `seam` and ends behind it. -/
def CallOver (p : CallPattern) (text : String) (seam : Nat) : Prop :=
  ∃ (before after : String) (stop : Nat), text = before ++ after ∧
    p.callAt? text before.utf8ByteSize = some stop ∧ before.utf8ByteSize < seam ∧ seam < stop

/-- The text up to the first seam is kept as it is; without a seam all of it is. -/
theorem kept_eq_or_exists_seam (p : CallPattern) (pos removed : Nat) (cs : List Char) :
    p.kept cs = cs ∨ ∃ front back behind : List Char, cs = front ++ back ∧
      p.kept cs = front ++ behind ∧
      pos + width front ∈ seamsOf removed (p.spansFrom (pos + removed) cs) := by
  induction cs using p.scan_induction generalizing pos with
  | nil => exact Or.inl p.kept_nil
  | call c cs rest stop hm ih =>
    refine Or.inr ⟨[], c :: cs, p.kept rest, rfl, kept_of_match hm, ?_⟩
    rw [spansFrom_of_match hm, seamsOf, width_nil]
    refine List.mem_cons.2 (Or.inl ?_)
    exact (Nat.add_sub_cancel pos removed).symm
  | plain c cs hm ih =>
    rw [kept_of_none hm, spansFrom_of_none hm]
    rcases ih (pos + c.utf8Size) with hall | ⟨front, back, behind, hcs, hkept, hmem⟩
    · exact Or.inl (by rw [hall])
    · refine Or.inr ⟨c :: front, back, behind, by rw [hcs]; rfl, by rw [hkept]; rfl, ?_⟩
      rw [width_cons, ← Nat.add_assoc, Nat.add_right_comm pos removed]
      exact hmem

/-- **Every call of what is kept lies over a seam.**  In front of the first seam the text is what it
    was, and at a character that is kept no call of it began. -/
theorem exists_seam_of_matchAt {p : CallPattern} (pos removed : Nat)
    {cs before after rest : List Char}
    {stop : Nat} (hkept : p.kept cs = before ++ after)
    (hcall : p.matchAt after = some (stop, rest)) :
    ∃ seam ∈ seamsOf removed (p.spansFrom (pos + removed) cs),
      pos + width before < seam ∧ seam < pos + width before + stop := by
  induction cs using p.scan_induction generalizing pos removed before with
  | nil =>
    obtain ⟨rfl, rfl⟩ := List.append_eq_nil_iff.1 (hkept.symm.trans p.kept_nil)
    simp [matchAt_nil] at hcall
  | call c cs rest' taken hm ih =>
    rw [kept_of_match hm] at hkept
    obtain ⟨seam, hseam, hlo, hhi⟩ := ih pos (removed + taken) hkept
    refine ⟨seam, ?_, hlo, hhi⟩
    have hlength : (Span.ofWidth (pos + removed) taken).length = taken :=
      Nat.add_sub_cancel_left _ _
    rw [spansFrom_of_match hm, seamsOf, hlength, Nat.add_assoc]
    exact List.mem_cons_of_mem _ hseam
  | plain c cs hm ih =>
    rw [kept_of_none hm] at hkept
    rw [spansFrom_of_none hm, Nat.add_right_comm]
    cases before with
    | cons d before =>
      rw [List.cons_append, List.cons.injEq] at hkept
      obtain ⟨rfl, hkept⟩ := hkept
      obtain ⟨seam, hseam, hlo, hhi⟩ := ih (pos + c.utf8Size) removed hkept
      rw [width_cons]
      exact ⟨seam, hseam, by omega, by omega⟩
    | nil =>
      rw [List.nil_append] at hkept
      rcases p.kept_eq_or_exists_seam (pos + c.utf8Size) removed cs with
        hall | ⟨front, back, behind, hcs, hfront, hmem⟩
      · -- without a seam this is the call that did not begin
        rw [← hkept, hall, hm] at hcall
        simp at hcall
      · refine ⟨_, hmem, ?_, ?_⟩
        · have := c.utf8Size_pos
          rw [width_nil]
          omega
        · by_contra hle
          rw [width_nil] at hle
          have hfits : stop ≤ width (c :: front) := by
            rw [width_cons]
            omega
          rw [← hkept, hfront, ← List.cons_append] at hcall
          have hwas := matchAt_append_isSome hcall hfits back
          rw [List.cons_append, ← hcs, hm] at hwas
          simp at hwas

/-! ## The second sweep -/

theorem exists_matchAt_of_mem_spansFrom {p : CallPattern} {offset : Nat} {cs : List Char}
    {s : Span} (h : s ∈ p.spansFrom offset cs) :
    ∃ (before after rest : List Char) (stop : Nat), cs = before ++ after ∧
      p.matchAt after = some (stop, rest) ∧ s = .ofWidth (offset + width before) stop := by
  induction cs using p.scan_induction generalizing offset with
  | nil => simp at h
  | call c cs rest stop hm ih =>
    rw [spansFrom_of_match hm] at h
    rcases List.mem_cons.1 h with rfl | h
    · exact ⟨[], c :: cs, rest, stop, rfl, hm, rfl⟩
    · obtain ⟨taken, htaken, rfl⟩ := exists_taken_of_matchAt hm
      obtain ⟨before, after, rest', stop', hrest, hcall, hs⟩ := ih h
      refine ⟨taken ++ before, after, rest', stop', ?_, hcall, ?_⟩
      · rw [htaken, hrest, List.append_assoc]
      · rw [hs, width_append, Nat.add_assoc]
  | plain c cs hm ih =>
    rw [spansFrom_of_none hm] at h
    obtain ⟨before, after, rest, stop, hcs, hcall, hs⟩ := ih h
    refine ⟨c :: before, after, rest, stop, by rw [hcs]; rfl, hcall, ?_⟩
    rw [hs, width_cons, Nat.add_assoc]

theorem exists_matchAt_of_spansFrom_ne_nil {p : CallPattern} {offset : Nat} {cs : List Char}
    (h : p.spansFrom offset cs ≠ []) :
    ∃ (before after rest : List Char) (stop : Nat), cs = before ++ after ∧
      p.matchAt after = some (stop, rest) := by
  obtain ⟨s, hs⟩ := List.exists_mem_of_ne_nil _ h
  obtain ⟨before, after, rest, stop, hcs, hcall, -⟩ := exists_matchAt_of_mem_spansFrom hs
  exact ⟨before, after, rest, stop, hcs, hcall⟩

/-- Every seam belongs to a cut, whose start it is when the earlier cuts are added again. -/
theorem exists_cut_of_mem_seamsOf {p : CallPattern} {pos removed seam : Nat} {cs : List Char}
    (h : seam ∈ seamsOf removed (p.spansFrom (pos + removed) cs)) :
    ∃ (earlier : List Span) (cut : Span) (later : List Span),
      p.spansFrom (pos + removed) cs = earlier ++ cut :: later ∧
        seam + (removed + (earlier.map Span.length).sum) = cut.start := by
  induction cs using p.scan_induction generalizing pos removed with
  | nil =>
    rw [spansFrom_nil] at h
    simp [seamsOf] at h
  | call c cs rest stop hm ih =>
    have hlength : (Span.ofWidth (pos + removed) stop).length = stop := Nat.add_sub_cancel_left _ _
    rw [spansFrom_of_match hm] at h ⊢
    rw [seamsOf, hlength] at h
    rcases List.mem_cons.1 h with rfl | h
    · refine ⟨[], _, _, rfl, ?_⟩
      show pos + removed - removed + (removed + 0) = pos + removed
      omega
    · rw [Nat.add_assoc] at h ⊢
      obtain ⟨earlier, cut, later, hspans, hseam⟩ := ih h
      refine ⟨_ :: earlier, cut, later, by rw [hspans]; rfl, ?_⟩
      rw [List.map_cons, List.sum_cons, hlength, ← Nat.add_assoc removed]
      exact hseam
  | plain c cs hm ih =>
    rw [spansFrom_of_none hm, Nat.add_right_comm] at h ⊢
    exact ih h

/-- A second sweep finds nothing, and so changes nothing, exactly if no call of the swept text lies
    over a seam. -/
theorem spans_modified_eq_nil_iff (p : CallPattern) (text : String) :
    (p.spans (p.sweep text).modified = [] ↔
      ∀ seam ∈ p.seams text, ¬p.CallOver (p.sweep text).modified seam) ∧
    ((p.sweep (p.sweep text).modified).modified = (p.sweep text).modified ↔
      ∀ seam ∈ p.seams text, ¬p.CallOver (p.sweep text).modified seam) := by
  have hnothing : p.spans (p.sweep text).modified = [] ↔
      ∀ seam ∈ p.seams text, ¬p.CallOver (p.sweep text).modified seam := by
    constructor
    · rintro hnil seam - ⟨before, after, stop, htext, hcall, -, -⟩
      rw [htext, callAt?_append, Option.map_eq_some_iff] at hcall
      obtain ⟨found, hfound, -⟩ := hcall
      obtain ⟨s, hs, -⟩ := exists_span_of_matchAt 0 String.toList_append
        (by rw [hfound]; rfl : (p.matchAt after.toList).isSome)
      rw [← htext] at hs
      rw [spans] at hnil
      simp [hnil] at hs
    · intro hover
      by_contra hspans
      obtain ⟨before, after, rest, stop, hcs, hcall⟩ := exists_matchAt_of_spansFrom_ne_nil hspans
      obtain ⟨seam, hseam, hlo, hhi⟩ :=
        exists_seam_of_matchAt 0 0 (by rw [← toList_modified]; exact hcs) hcall
      have hsize : (String.ofList before).utf8ByteSize = width before := by
        rw [← width_toList, String.toList_ofList]
      rw [Nat.zero_add] at hlo hhi
      refine hover seam hseam ⟨String.ofList before, String.ofList after,
        width before + stop, ?_, ?_, by rwa [hsize], hhi⟩
      · rw [← String.ofList_append, ← hcs, String.ofList_toList]
      · rw [← String.ofList_toList (s := (p.sweep text).modified), hcs, String.ofList_append,
          callAt?_append, String.toList_ofList, hcall, hsize]
        rfl
  refine ⟨hnothing, ?_⟩
  rw [← hnothing, ← String.toList_inj, toList_modified, kept_eq_self_iff, spans]

/-- **A second sweep takes out only what the first one has joined.**  Each call that it finds begins
    in front of a place where something was cut out and ends behind it. -/
theorem exists_seam_of_mem_spans {p : CallPattern} {text : String} {s : Span}
    (found : s ∈ p.spans (p.sweep text).modified) :
    ∃ (earlier : List Span) (cut : Span) (later : List Span) (seam : Nat),
      p.spans text = earlier ++ cut :: later ∧
        seam + (earlier.map Span.length).sum = cut.start ∧ s.start < seam ∧ seam < s.stop := by
  rw [spans, toList_modified] at found
  obtain ⟨before, after, rest, stop, hkept, hcall, rfl⟩ := exists_matchAt_of_mem_spansFrom found
  obtain ⟨seam, hseam, hlo, hhi⟩ := exists_seam_of_matchAt 0 0 hkept hcall
  obtain ⟨earlier, cut, later, hspans, hcut⟩ := exists_cut_of_mem_seamsOf hseam
  rw [Nat.zero_add] at hcut
  exact ⟨earlier, cut, later, seam, hspans, hcut, hlo, hhi⟩

/-- Two calls stand side by side in front of the one that is joined, and one in the middle of it. -/
theorem exists_seam_of_rejoined :
    (standard.sweep "console.console.log(1);console.log(2)log(3)console.log(4);;x").modified =
        "console.log(3);x" ∧
      ∃ (earlier : List Span) (cut : Span) (later : List Span) (seam : Nat),
        standard.spans "console.console.log(1);console.log(2)log(3)console.log(4);;x" =
            earlier ++ cut :: later ∧
          seam + (earlier.map Span.length).sum = cut.start ∧ 0 < seam ∧ seam < 15 :=
  ⟨by decide +kernel,
    exists_seam_of_mem_spans
      (show Span.ofWidth 0 15 ∈ standard.spans (standard.sweep
        "console.console.log(1);console.log(2)log(3)console.log(4);;x").modified by decide +kernel)⟩

end CallPattern

/-! ## The depth that a text asks for -/

/-- The most groups that are open at once as the scanner reads on, if any depth is allowed. -/
def deepest (opened : Nat) : Mode → List Char → Nat
  | _, [] => opened
  | .code, c :: cs =>
    if c = ')' then if opened = 0 then 0 else max opened (deepest (opened - 1) .code cs)
    else if c = '(' then deepest (opened + 1) .code cs
    else if isQuote c then deepest opened (.literal c) cs
    else deepest opened .code cs
  | .literal quote, c :: cs =>
    if c = quote then deepest opened .code cs
    else if c = '\\' then deepest opened (.escape quote) cs
    else deepest opened (.literal quote) cs
  | .escape quote, c :: cs =>
    if isLineTerminator c then opened else deepest opened (.literal quote) cs

theorem le_deepest (opened : Nat) (mode : Mode) (cs : List Char) :
    opened ≤ deepest opened mode cs := by
  fun_induction deepest opened mode cs <;> omega

/-- Beyond the depth that a text asks for, the depth allowed makes no difference. -/
theorem closeArguments_eq_of_deepest_le {depth more opened used : Nat} {mode : Mode}
    {cs : List Char} (hdeep : deepest opened mode cs ≤ depth) (hmore : depth ≤ more) :
    closeArguments more opened mode used cs = closeArguments depth opened mode used cs := by
  induction cs generalizing opened mode used with
  | nil => simp [closeArguments]
  | cons c cs ih =>
    cases mode with
    | code =>
      rw [deepest] at hdeep
      rw [closeArguments, closeArguments]
      by_cases hclose : c = ')'
      · rw [if_pos hclose] at hdeep
        rw [if_pos hclose, if_pos hclose]
        by_cases hzero : opened = 0
        · rw [if_pos hzero, if_pos hzero]
        · rw [if_neg hzero] at hdeep
          rw [if_neg hzero, if_neg hzero, ih (by omega)]
      rw [if_neg hclose] at hdeep
      rw [if_neg hclose, if_neg hclose]
      by_cases hopen : c = '('
      · rw [if_pos hopen] at hdeep
        have hfits := le_deepest (opened + 1) .code cs
        rw [if_pos hopen, if_pos hopen, if_pos (by omega), if_pos (by omega), ih hdeep]
      rw [if_neg hopen] at hdeep
      rw [if_neg hopen, if_neg hopen]
      by_cases hquote : isQuote c = true
      · rw [if_pos hquote] at hdeep
        rw [if_pos hquote, if_pos hquote, ih hdeep]
      · rw [if_neg hquote] at hdeep
        rw [if_neg hquote, if_neg hquote, ih hdeep]
    | literal quote =>
      rw [deepest] at hdeep
      rw [closeArguments, closeArguments]
      by_cases hquote : c = quote
      · rw [if_pos hquote] at hdeep
        rw [if_pos hquote, if_pos hquote, ih hdeep]
      rw [if_neg hquote] at hdeep
      rw [if_neg hquote, if_neg hquote]
      by_cases hback : c = '\\'
      · rw [if_pos hback] at hdeep
        rw [if_pos hback, if_pos hback, ih hdeep]
      · rw [if_neg hback] at hdeep
        rw [if_neg hback, if_neg hback, ih hdeep]
    | escape quote =>
      rw [deepest] at hdeep
      rw [closeArguments, closeArguments]
      by_cases hline : isLineTerminator c = true
      · rw [if_pos hline, if_pos hline]
      · rw [if_neg hline] at hdeep
        rw [if_neg hline, if_neg hline, ih hdeep]

namespace CallPattern

/-- Whether the argument list of every callee that is spelled out in a text stays within the depth
    allowed, be it a call or not. -/
def staysWithinDepth (p : CallPattern) (text : String) : Bool :=
  text.toList.tails.all fun here =>
    p.names.all fun name =>
      match name.isPrefixOf? here with
      | none => true
      | some after =>
        match (skipSpace 0 after).2 with
        | '(' :: args => deepest 0 .code args ≤ p.depth
        | _ => true

/-- Staying within the depth does not keep a sweep from joining what is left of two names. -/
theorem spans_modified_ne_nil :
    standard.staysWithinDepth "console.console.log(1)log(2)" = true ∧
      (standard.sweep "console.console.log(1)log(2)").modified = "console.log(2)" ∧
      standard.spans (standard.sweep "console.console.log(1)log(2)").modified ≠ [] ∧
      (standard.sweep (standard.sweep "console.console.log(1)log(2)").modified).modified ≠
        (standard.sweep "console.console.log(1)log(2)").modified := by
  decide +kernel

end CallPattern

end CallSweep
