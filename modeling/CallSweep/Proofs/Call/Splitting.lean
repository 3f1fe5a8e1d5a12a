/-
  A text may be swept in pieces.

  Cut a text at a boundary that lies strictly inside no span, and sweep the two parts by themselves:
  together they give what the sweep of the whole gives.

  1. **Scan steps and the cut** — the scan comes to the cut in one of its steps (`splits_at`).
     A call in front of it ends in front of it, and is found in the part as well
     (`matchAt_of_append`); where the whole has no call the part has none
     (`matchAt_eq_none_of_append`).  Behind the cut the scan sees the same characters, so it goes on
     as it would from the beginning.

  2. **Where spans lie** — spans are not empty, stay within the text and follow each other
     (`bounds_of_mem_spansFrom`, `pairwise_spansFrom`).

  3. **Pieces** (`spans_split`) — so a piece that no span touches, such as what is kept between two
     removals, has no call when it is taken by itself.
-/
import CallSweep.Proofs.Call.Seams

namespace CallSweep

open Text (width width_nil width_cons width_append width_toList)

/-! ## Shifted spans -/

/-- A span `n` bytes further on. -/
def Span.shift (n : Nat) (s : Span) : Span :=
  ⟨n + s.start, n + s.stop, Nat.add_le_add_left s.start_le_stop n⟩

/-- Whether a byte offset lies in a span and is neither its start nor its end. -/
def Span.Inside (s : Span) (offset : Nat) : Prop := s.start < offset ∧ offset < s.stop

instance (s : Span) (offset : Nat) : Decidable (s.Inside offset) :=
  inferInstanceAs (Decidable (_ ∧ _))

theorem Span.shift_ofWidth (n start width : Nat) :
    (Span.ofWidth start width).shift n = .ofWidth (n + start) width := by
  rw [shift, ofWidth, ofWidth, Span.mk.injEq]
  exact ⟨rfl, (Nat.add_assoc n start width).symm⟩

namespace CallPattern

variable {p : CallPattern}

theorem spansFrom_shift (p : CallPattern) (n offset : Nat) (cs : List Char) :
    p.spansFrom (n + offset) cs = (p.spansFrom offset cs).map (.shift n) := by
  induction cs using p.scan_induction generalizing offset with
  | nil => simp
  | call c cs rest stop hm ih =>
    rw [spansFrom_of_match hm, spansFrom_of_match hm, List.map_cons, Span.shift_ofWidth,
      Nat.add_assoc, ih]
  | plain c cs hm ih =>
    rw [spansFrom_of_none hm, spansFrom_of_none hm, Nat.add_assoc, ih]

/-! ## Where spans lie -/

theorem bounds_of_mem_spansFrom {offset : Nat} {cs : List Char} {s : Span}
    (h : s ∈ p.spansFrom offset cs) :
    offset ≤ s.start ∧ s.start < s.stop ∧ s.stop ≤ offset + width cs := by
  induction cs using p.scan_induction generalizing offset with
  | nil => simp at h
  | call c cs rest stop hm ih =>
    obtain ⟨taken, htaken, rfl⟩ := exists_taken_of_matchAt hm
    rw [htaken, width_append]
    rw [spansFrom_of_match hm] at h
    rcases List.mem_cons.1 h with rfl | h
    · -- a call has at least one character
      have hpos : 0 < width taken := by
        cases taken with
        | nil => exact absurd (length_lt_of_matchAt hm) (by simp [htaken])
        | cons d taken =>
          have := d.utf8Size_pos
          rw [width_cons]
          omega
      simp only [Span.ofWidth]
      omega
    · obtain ⟨hlo, hlt, hhi⟩ := ih h
      omega
  | plain c cs hm ih =>
    rw [spansFrom_of_none hm] at h
    obtain ⟨hlo, hlt, hhi⟩ := ih h
    rw [width_cons]
    omega

/-- Each span ends before the next one starts. -/
theorem pairwise_spansFrom (p : CallPattern) (offset : Nat) (cs : List Char) :
    (p.spansFrom offset cs).Pairwise fun s t => s.stop ≤ t.start := by
  induction cs using p.scan_induction generalizing offset with
  | nil => simp
  | call c cs rest stop hm ih =>
    rw [spansFrom_of_match hm, List.pairwise_cons]
    exact ⟨fun t ht => (bounds_of_mem_spansFrom ht).1, ih _⟩
  | plain c cs hm ih =>
    rw [spansFrom_of_none hm]
    exact ih _

/-! ## The scan in two parts -/

/-- Where a cut lies strictly inside no span, the scan of the whole is that of the first part
    followed by that of the second, in the spans it finds and in the text it keeps. -/
theorem splits_at {offset : Nat} {as bs : List Char}
    (outside : ∀ s ∈ p.spansFrom offset (as ++ bs), ¬s.Inside (offset + width as)) :
    p.spansFrom offset (as ++ bs) =
        p.spansFrom offset as ++ p.spansFrom (offset + width as) bs ∧
      p.kept (as ++ bs) = p.kept as ++ p.kept bs := by
  generalize hcs : as ++ bs = cs at outside
  induction cs using p.scan_induction generalizing offset as with
  | nil =>
    obtain ⟨rfl, rfl⟩ := List.append_eq_nil_iff.1 hcs
    simp [kept_nil]
  | call c cs rest stop hm ih =>
    cases as with
    | nil => simp [← hcs, kept_nil]
    | cons a as =>
      rw [List.cons_append, List.cons.injEq] at hcs
      obtain ⟨rfl, rfl⟩ := hcs
      rw [spansFrom_of_match hm] at outside
      by_cases hle : stop ≤ width (a :: as)
      · -- the call ends in the first part, and is found there as well
        have whole : p.matchAt (a :: as ++ bs) = some (stop, rest) := hm
        obtain ⟨mid, rfl, hm'⟩ := matchAt_of_append whole hle
        obtain ⟨taken, htaken, rfl⟩ := exists_taken_of_matchAt hm'
        have hwidth : offset + width (a :: as) = offset + width taken + width mid := by
          rw [htaken, width_append, Nat.add_assoc]
        rw [hwidth] at outside ⊢
        obtain ⟨hspans, hkept⟩ := ih rfl fun s hs => outside s (List.mem_cons_of_mem _ hs)
        constructor
        · rw [spansFrom_of_match hm, spansFrom_of_match hm', hspans, List.cons_append]
        · rw [kept_of_match hm, kept_of_match hm', hkept]
      · -- otherwise the cut would be inside of it
        refine absurd ⟨?_, ?_⟩ (outside _ List.mem_cons_self)
        · have := a.utf8Size_pos
          simp only [Span.ofWidth, width_cons]
          omega
        · simp only [Span.ofWidth]
          omega
  | plain c cs hm ih =>
    cases as with
    | nil => simp [← hcs, kept_nil]
    | cons a as =>
      rw [List.cons_append, List.cons.injEq] at hcs
      obtain ⟨rfl, rfl⟩ := hcs
      -- no call begins here in the whole, so none does in the first part
      have hm' : p.matchAt (a :: as) = none := by
        have whole : p.matchAt (a :: as ++ bs) = none := hm
        exact matchAt_eq_none_of_append whole
      rw [spansFrom_of_none hm, width_cons, ← Nat.add_assoc] at outside
      obtain ⟨hspans, hkept⟩ := ih rfl outside
      constructor
      · rw [spansFrom_of_none hm, spansFrom_of_none hm', hspans, width_cons, Nat.add_assoc]
      · rw [kept_of_none hm, kept_of_none hm', hkept, List.cons_append]

/-! ## Pieces -/

/-- A piece that touches no span has no call when it is taken by itself. -/
theorem spansFrom_eq_nil_of_untouched {offset : Nat} {as bs cs : List Char}
    (untouched : ∀ s ∈ p.spansFrom offset (as ++ (bs ++ cs)),
      s.stop ≤ offset + width as ∨ offset + width as + width bs ≤ s.start) :
    p.spansFrom (offset + width as) bs = [] := by
  -- the whole is cut at both ends of the piece; a span of its own would have to touch it
  have hfirst : p.spansFrom offset (as ++ (bs ++ cs)) =
      p.spansFrom offset as ++ p.spansFrom (offset + width as) (bs ++ cs) := by
    refine (splits_at ?_).1
    rintro s hs ⟨hlo, hhi⟩
    rcases untouched s hs with h | h <;> omega
  rw [hfirst] at untouched
  have hsecond : p.spansFrom (offset + width as) (bs ++ cs) =
      p.spansFrom (offset + width as) bs ++ p.spansFrom (offset + width as + width bs) cs := by
    refine (splits_at ?_).1
    rintro s hs ⟨hlo, hhi⟩
    have := (bounds_of_mem_spansFrom hs).1
    rcases untouched s (List.mem_append_right _ hs) with h | h <;> omega
  rw [hsecond] at untouched
  rw [List.eq_nil_iff_forall_not_mem]
  intro s hs
  obtain ⟨hlo, hlt, hhi⟩ := bounds_of_mem_spansFrom hs
  rcases untouched s (List.mem_append_right _ (List.mem_append_left _ hs)) with h | h <;> omega

theorem length_cut (offset : Nat) (here : Position) (cs : List Char) (spans : List Span) :
    (cut offset here cs spans).2.length = spans.length := by
  induction spans generalizing offset here cs with
  | nil => rfl
  | cons s spans ih => simp [cut, ih]

/-- As many calls are removed as are found. -/
theorem count_sweep (p : CallPattern) (text : String) :
    (p.sweep text).count = (p.spans text).length :=
  length_cut 0 .start text.toList (p.spans text)

/-- **A text may be swept in pieces.**  Let a text be cut in two at a byte that lies strictly inside
    no span.  Then its spans are those of the first part, followed by those of the second at their
    places in the whole; what is left of it is what is left of the two parts; and as many calls are
    removed from it as from them.  And what is kept between two spans that follow each other has no
    call when it is taken by itself. -/
theorem spans_split (p : CallPattern) (text : String) :
    (∀ before after : String, text = before ++ after →
      (∀ s ∈ p.spans text, ¬s.Inside before.utf8ByteSize) →
        p.spans text = p.spans before ++ (p.spans after).map (.shift before.utf8ByteSize) ∧
        (p.sweep text).modified = (p.sweep before).modified ++ (p.sweep after).modified ∧
        (p.sweep text).count = (p.sweep before).count + (p.sweep after).count) ∧
    ∀ (earlier later : List Span) (s t : Span) (before kept after : String),
      p.spans text = earlier ++ s :: t :: later → text = before ++ kept ++ after →
      before.utf8ByteSize = s.stop → (before ++ kept).utf8ByteSize = t.start →
        p.spans kept = [] := by
  constructor
  · rintro before after rfl outside
    rw [spans, String.toList_append, ← Nat.zero_add before.utf8ByteSize, ← width_toList] at outside
    obtain ⟨hspans, hkept⟩ := splits_at outside
    have hspans' : p.spans (before ++ after) =
        p.spans before ++ (p.spans after).map (.shift before.utf8ByteSize) := by
      rw [spans, String.toList_append, hspans, Nat.zero_add, width_toList,
        ← Nat.add_zero before.utf8ByteSize, spansFrom_shift]
      rfl
    refine ⟨hspans', ?_, ?_⟩
    · rw [← String.toList_inj, String.toList_append, toList_modified, toList_modified,
        toList_modified, String.toList_append, hkept]
    · rw [count_sweep, count_sweep, count_sweep, hspans', List.length_append, List.length_map]
  · rintro earlier later s t before kept after hspans rfl hstop hstart
    have hsorted := p.pairwise_spansFrom 0 (before ++ kept ++ after).toList
    rw [← spans, hspans, List.pairwise_append, List.pairwise_cons, List.pairwise_cons] at hsorted
    obtain ⟨-, ⟨-, hlater, -⟩, hearlier⟩ := hsorted
    have hend : before.utf8ByteSize + kept.utf8ByteSize = t.start := by
      rw [← hstart, String.utf8ByteSize_append]
    -- the spans are in order: those before `s` end by its end, those after `t` start from its start
    have huntouched : ∀ u ∈ p.spansFrom 0 (before.toList ++ (kept.toList ++ after.toList)),
        u.stop ≤ 0 + width before.toList ∨
          0 + width before.toList + width kept.toList ≤ u.start := by
      intro u hu
      rw [← List.append_assoc, ← String.toList_append, ← String.toList_append, ← spans,
        hspans] at hu
      rw [Nat.zero_add, width_toList, width_toList, hend, hstop]
      rcases List.mem_append.1 hu with hu | hu
      · have := hearlier u hu s List.mem_cons_self
        have := s.start_le_stop
        omega
      rcases List.mem_cons.1 hu with rfl | hu
      · exact Or.inl (Nat.le_refl _)
      rcases List.mem_cons.1 hu with rfl | hu
      · exact Or.inr (Nat.le_refl _)
      · have := hlater u hu
        have := t.start_le_stop
        omega
    have hnil := spansFrom_eq_nil_of_untouched huntouched
    rw [← Nat.add_zero (0 + width before.toList), spansFrom_shift, List.map_eq_nil_iff] at hnil
    exact hnil

/-- A text of two calls, cut right behind the first of them: the semicolon has gone with it, and
    the line between the calls has none. -/
theorem spans_split_two_calls :
    standard.spans ("console.log(';');" ++ "x;\nconsole.log(2) y") =
        standard.spans "console.log(';');" ++
          (standard.spans "x;\nconsole.log(2) y").map (.shift 17) ∧
      standard.spans "x;\n" = [] := by
  obtain ⟨split, kept⟩ := spans_split standard ("console.log(';');" ++ "x;\nconsole.log(2) y")
  constructor
  · exact (split "console.log(';');" "x;\nconsole.log(2) y" rfl (by decide +kernel)).1
  · exact kept [] [] (.ofWidth 0 17) (.ofWidth 20 14) "console.log(';');" "x;\n" "console.log(2) y"
      (by decide +kernel) (by decide +kernel) (by decide +kernel) (by decide +kernel)

end CallPattern

end CallSweep
