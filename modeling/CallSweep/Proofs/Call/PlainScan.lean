/-
  The search from candidate to candidate finds what trying every place finds.

  `CallPattern.plainSpansFrom` is the scan one would write without a search for candidates: it tries
  a call at every character, jumps behind the calls it finds and goes on by one character
  otherwise.  The bridge to `spansFrom` is a pair of equations, `spansFrom_of_match` and
  `spansFrom_of_none`, which say that `spansFrom` obeys the same recurrence:

  * where a callee is spelled out, the candidate is that very place (`nextCandidate_of_spelled`);
  * where none is, the candidate is that of the text behind the first character, one character
    further away (`nextCandidate_of_not_spelled`), and no call begins there either.
-/
import CallSweep.Call.Span
import CallSweep.Proofs.Call.Grammar

namespace CallSweep

open Text (width width_cons width_append width_toList exists_append_of_width_le)

/-! ## Places of a name -/

/-- `n` bytes further on. -/
def shift (n : Nat) (place : Nat × List Char) : Nat × List Char := (n + place.1, place.2)

theorem seek_eq_map_shift (name : List Char) (skipped : Nat) (cs : List Char) :
    seek name skipped cs = (seek name 0 cs).map (shift skipped) := by
  induction cs generalizing skipped with
  | nil =>
    rw [seek, seek]
    split <;> simp [shift]
  | cons c cs ih =>
    rw [seek, seek]
    split
    · simp [shift]
    · rw [ih, ih (0 + c.utf8Size), Option.map_map]
      congr 1
      funext place
      simp only [Function.comp_apply, shift]
      congr 1
      omega

theorem seek_of_spelled {name cs : List Char} {c : Char} (h : name.isPrefixOf (c :: cs) = true) :
    seek name 0 (c :: cs) = some (0, c :: cs) := by
  rw [seek, if_pos h]

theorem seek_of_not_spelled {name cs : List Char} {c : Char}
    (h : ¬name.isPrefixOf (c :: cs) = true) :
    seek name 0 (c :: cs) = (seek name 0 cs).map (shift c.utf8Size) := by
  rw [seek, if_neg h, seek_eq_map_shift, Nat.zero_add]

/-! ## The earliest place -/

theorem earlier_shift (n : Nat) (a b : Nat × List Char) :
    earlier (shift n a) (shift n b) = shift n (earlier a b) := by
  by_cases h : b.1 < a.1
  · have hs : (shift n b).1 < (shift n a).1 := Nat.add_lt_add_left h n
    rw [earlier, earlier, if_pos h, if_pos hs]
  · have hs : ¬(shift n b).1 < (shift n a).1 := fun hlt => h (Nat.lt_of_add_lt_add_left hlt)
    rw [earlier, earlier, if_neg h, if_neg hs]

theorem earliest_map_shift (n : Nat) (places : List (Nat × List Char)) :
    earliest (places.map (shift n)) = (earliest places).map (shift n) := by
  cases places with
  | nil => rfl
  | cons a places =>
    show some ((places.map (shift n)).foldl earlier (shift n a)) =
      some (shift n (places.foldl earlier a))
    congr 1
    induction places generalizing a with
    | nil => rfl
    | cons b places ih =>
      rw [List.map_cons, List.foldl_cons, List.foldl_cons, earlier_shift, ih]

/-- No place is earlier than the head of the text. -/
theorem earliest_of_mem_zero {here : List Char} {places : List (Nat × List Char)}
    (hmem : (0, here) ∈ places) (hzero : ∀ a ∈ places, a.1 = 0 → a = (0, here)) :
    earliest places = some (0, here) := by
  cases places with
  | nil => simp at hmem
  | cons a places =>
    show some (places.foldl earlier a) = _
    congr 1
    induction places generalizing a with
    | nil => exact (List.mem_singleton.1 hmem).symm
    | cons b places ih =>
      rw [List.foldl_cons]
      have hstay : earlier a b = a ∨ earlier a b = b := by
        unfold earlier
        split
        · exact Or.inr rfl
        · exact Or.inl rfl
      apply ih
      · rcases List.mem_cons.1 hmem with rfl | hmem
        · exact List.mem_cons.2 (Or.inl (by simp [earlier]))
        · rcases List.mem_cons.1 hmem with rfl | hmem
          · refine List.mem_cons.2 (Or.inl ?_)
            by_cases ha : a.1 = 0
            · rw [hzero a List.mem_cons_self ha]
              simp [earlier]
            · rw [earlier, if_pos (by show 0 < a.1; omega)]
          · exact List.mem_cons_of_mem _ hmem
      · intro x hx
        rcases List.mem_cons.1 hx with rfl | hx
        · rcases hstay with h | h <;> rw [h]
          · exact hzero a List.mem_cons_self
          · exact hzero b (List.mem_cons_of_mem _ List.mem_cons_self)
        · exact hzero x (List.mem_cons_of_mem _ (List.mem_cons_of_mem _ hx))

namespace CallPattern

/-! ## The candidate of a text -/

/-- Whether some callee is spelled out at the head of a text. -/
def SpelledAt (p : CallPattern) (cs : List Char) : Prop :=
  ∃ name ∈ p.names, name.isPrefixOf cs = true

theorem nextCandidate_nil (p : CallPattern) : p.nextCandidate [] = none := by
  have hnone : p.names.filterMap (seek · 0 []) = [] := by
    rw [List.filterMap_eq_nil_iff]
    intro name hname
    rw [seek, if_neg]
    simpa using ne_nil_of_mem_names hname
  rw [nextCandidate, hnone]
  rfl

theorem nextCandidate_of_spelled {p : CallPattern} {c : Char} {cs : List Char}
    (h : p.SpelledAt (c :: cs)) : p.nextCandidate (c :: cs) = some (0, c :: cs) := by
  obtain ⟨name, hname, hprefix⟩ := h
  apply earliest_of_mem_zero
  · exact List.mem_filterMap.2 ⟨name, hname, seek_of_spelled hprefix⟩
  · intro place hplace hzero
    obtain ⟨other, -, hother⟩ := List.mem_filterMap.1 hplace
    by_cases hp : other.isPrefixOf (c :: cs) = true
    · rw [seek_of_spelled hp, Option.some.injEq] at hother
      exact hother.symm
    · -- a place behind the first character is not at the head
      rw [seek_of_not_spelled hp] at hother
      obtain ⟨place', -, rfl⟩ := Option.map_eq_some_iff.1 hother
      have := c.utf8Size_pos
      simp only [shift] at hzero
      omega

theorem nextCandidate_of_not_spelled {p : CallPattern} {c : Char} {cs : List Char}
    (h : ¬p.SpelledAt (c :: cs)) :
    p.nextCandidate (c :: cs) = (p.nextCandidate cs).map (shift c.utf8Size) := by
  have hplaces : p.names.filterMap (seek · 0 (c :: cs)) =
      (p.names.filterMap (seek · 0 cs)).map (shift c.utf8Size) := by
    rw [List.map_filterMap]
    apply List.filterMap_congr
    intro name hname
    exact seek_of_not_spelled fun hp => h ⟨name, hname, hp⟩
  rw [nextCandidate, hplaces, earliest_map_shift]
  rfl

/-! ## Calls and where they can begin -/

theorem matchAt_nil (p : CallPattern) : p.matchAt [] = none := by
  cases h : p.matchAt [] with
  | none => rfl
  | some found => exact absurd (length_lt_of_matchAt h) (Nat.not_lt_zero _)

/-- A call begins with its callee. -/
theorem spelledAt_of_matchAt {p : CallPattern} {cs : List Char} (h : (p.matchAt cs).isSome) :
    p.SpelledAt cs := by
  obtain ⟨name, hname, ⟨c⟩⟩ := matchAt_isSome_iff.1 h
  refine ⟨name, hname, List.isPrefixOf_iff_prefix.2 ?_⟩
  rw [c.text_eq, callChars, List.append_assoc, List.append_assoc, List.append_assoc]
  exact List.prefix_append _ _

/-- What a call takes off a text is as wide as the call. -/
theorem exists_taken_of_matchAt {p : CallPattern} {cs rest : List Char} {stop : Nat}
    (h : p.matchAt cs = some (stop, rest)) :
    ∃ taken, cs = taken ++ rest ∧ width taken = stop := by
  obtain ⟨k, name, -, ⟨c, rfl, rfl⟩, -⟩ := matchAt_eq_some_iff.1 h
  exact ⟨c.chars, c.text_eq, rfl⟩

/-! ## The recurrence of the search -/

/-- What the search does with a candidate. -/
def spansFromCandidate (p : CallPattern) (offset : Nat) : Option (Nat × List Char) → List Span
  | none => []
  | some (_, []) => []
  | some (skipped, c :: here) =>
    match p.matchAt (c :: here) with
    | some (width, rest) =>
      .ofWidth (offset + skipped) width :: p.spansFrom (offset + skipped + width) rest
    | none => p.spansFrom (offset + skipped + c.utf8Size) here

theorem spansFrom_eq (p : CallPattern) (offset : Nat) (cs : List Char) :
    p.spansFrom offset cs = p.spansFromCandidate offset (p.nextCandidate cs) := by
  rw [spansFrom]
  split
  · next h => rw [h, spansFromCandidate]
  · next h => rw [h, spansFromCandidate]
  · next h =>
    split
    · next hm => simp only [h, spansFromCandidate, hm]
    · next hm => simp only [h, spansFromCandidate, hm]

theorem spansFromCandidate_shift (p : CallPattern) (offset n : Nat)
    (place : Option (Nat × List Char)) :
    p.spansFromCandidate offset (place.map (shift n)) =
      p.spansFromCandidate (offset + n) place := by
  match place with
  | none => rfl
  | some (_, []) => rfl
  | some (skipped, c :: here) =>
    show p.spansFromCandidate offset (some (n + skipped, c :: here)) = _
    rw [spansFromCandidate, spansFromCandidate, Nat.add_assoc offset n skipped]

@[simp] theorem spansFrom_nil (p : CallPattern) (offset : Nat) : p.spansFrom offset [] = [] := by
  rw [spansFrom_eq, nextCandidate_nil, spansFromCandidate]

theorem spansFrom_of_match {p : CallPattern} {offset stop : Nat} {c : Char} {cs rest : List Char}
    (h : p.matchAt (c :: cs) = some (stop, rest)) :
    p.spansFrom offset (c :: cs) = .ofWidth offset stop :: p.spansFrom (offset + stop) rest := by
  have hspelled : p.SpelledAt (c :: cs) := spelledAt_of_matchAt (by rw [h]; rfl)
  rw [spansFrom_eq, nextCandidate_of_spelled hspelled, spansFromCandidate, h]
  rfl

theorem spansFrom_of_none {p : CallPattern} {offset : Nat} {c : Char} {cs : List Char}
    (h : p.matchAt (c :: cs) = none) :
    p.spansFrom offset (c :: cs) = p.spansFrom (offset + c.utf8Size) cs := by
  by_cases hspelled : p.SpelledAt (c :: cs)
  · -- the candidate is here, and fails
    rw [spansFrom_eq, nextCandidate_of_spelled hspelled, spansFromCandidate, h]
    rfl
  · -- the candidate is that of the text behind `c`
    rw [spansFrom_eq, nextCandidate_of_not_spelled hspelled, spansFromCandidate_shift,
      ← spansFrom_eq]

/-- The scan of a text, one step at a time: it is at the end, a call begins, or none does. -/
theorem scan_induction {p : CallPattern} {motive : List Char → Prop} (nil : motive [])
    (call : ∀ (c : Char) (cs rest : List Char) (stop : Nat),
      p.matchAt (c :: cs) = some (stop, rest) → motive rest → motive (c :: cs))
    (plain : ∀ (c : Char) (cs : List Char), p.matchAt (c :: cs) = none → motive cs →
      motive (c :: cs)) (cs : List Char) : motive cs := by
  induction hn : cs.length using Nat.strongRecOn generalizing cs with
  | ind n ih =>
    cases cs with
    | nil => exact nil
    | cons c cs =>
      cases hm : p.matchAt (c :: cs) with
      | none => exact plain c cs hm (ih cs.length (by rw [← hn, List.length_cons]; omega) cs rfl)
      | some found =>
        obtain ⟨stop, rest⟩ := found
        exact call c cs rest stop hm (ih rest.length (hn ▸ length_lt_of_matchAt hm) rest rfl)

/-! ## The plain scan -/

/-- The spans of the calls in a text that begins at the byte `offset`, found by trying every
    character. -/
def plainSpansFrom (p : CallPattern) (offset : Nat) (cs : List Char) : List Span :=
  match cs with
  | [] => []
  | c :: cs =>
    match _hm : p.matchAt (c :: cs) with
    | some (width, rest) => .ofWidth offset width :: p.plainSpansFrom (offset + width) rest
    | none => p.plainSpansFrom (offset + c.utf8Size) cs
termination_by cs.length
decreasing_by
  · exact length_lt_of_matchAt _hm
  · exact Nat.lt_succ_self cs.length

/-- The spans that the plain scan finds in a text. -/
def plainSpans (p : CallPattern) (text : String) : List Span :=
  p.plainSpansFrom 0 text.toList

theorem spansFrom_eq_plainSpansFrom (p : CallPattern) (offset : Nat) (cs : List Char) :
    p.spansFrom offset cs = p.plainSpansFrom offset cs := by
  induction cs using p.scan_induction generalizing offset with
  | nil => rw [spansFrom_nil, plainSpansFrom]
  | call c cs rest stop hm ih =>
    rw [spansFrom_of_match hm, ih, plainSpansFrom]
    split
    · next hm' =>
      rw [hm, Option.some.injEq, Prod.mk.injEq] at hm'
      rw [hm'.1, hm'.2]
    · next hm' => simp [hm] at hm'
  | plain c cs hm ih =>
    rw [spansFrom_of_none hm, ih, plainSpansFrom]
    split
    · next hm' => simp [hm] at hm'
    · rfl

/-! ## Nothing is lost -/

/-- A call can begin only inside a span. -/
theorem exists_span_of_matchAt {p : CallPattern} (offset : Nat) {cs before after : List Char}
    (hcs : cs = before ++ after) (hcall : (p.matchAt after).isSome) :
    ∃ s ∈ p.spansFrom offset cs,
      s.start ≤ offset + width before ∧ offset + width before < s.stop := by
  induction cs using p.scan_induction generalizing offset before with
  | nil =>
    obtain ⟨rfl, rfl⟩ := List.append_eq_nil_iff.1 hcs.symm
    simp [matchAt_nil] at hcall
  | call c cs rest stop hm ih =>
    obtain ⟨taken, htaken, rfl⟩ := exists_taken_of_matchAt hm
    rw [spansFrom_of_match hm]
    by_cases hlt : width before < width taken
    · refine ⟨.ofWidth offset (width taken), List.mem_cons_self, ?_, ?_⟩
      · exact Nat.le_add_right _ _
      · exact Nat.add_lt_add_left hlt offset
    · -- beyond the span the scan goes on
      obtain ⟨mid, rfl, hrest⟩ :=
        exists_append_of_width_le (htaken.symm.trans hcs) (Nat.le_of_not_lt hlt)
      obtain ⟨s, hs, hlo, hhi⟩ := ih (offset + width taken) hrest
      refine ⟨s, List.mem_cons_of_mem _ hs, ?_⟩
      rw [width_append]
      omega
  | plain c cs hm ih =>
    cases before with
    | nil =>
      rw [List.nil_append] at hcs
      simp [← hcs, hm] at hcall
    | cons d before =>
      rw [List.cons_append, List.cons.injEq] at hcs
      obtain ⟨rfl, hcs⟩ := hcs
      obtain ⟨s, hs, hlo, hhi⟩ := ih (offset + c.utf8Size) hcs
      refine ⟨s, by rwa [spansFrom_of_none hm], ?_⟩
      rw [width_cons]
      omega

/-- **The search loses no call.**  It finds the spans that the plain scan finds, and at a boundary
    of the text where a call could begin there is a span over that boundary. -/
theorem spans_eq_plainSpans (p : CallPattern) (text : String) :
    p.spans text = p.plainSpans text ∧
      ∀ before after : String, text = before ++ after →
        (p.callAt? text before.utf8ByteSize).isSome →
          ∃ s ∈ p.spans text, s.start ≤ before.utf8ByteSize ∧ before.utf8ByteSize < s.stop := by
  refine ⟨spansFrom_eq_plainSpansFrom p 0 text.toList, ?_⟩
  rintro before after rfl hcall
  rw [callAt?_append, Option.isSome_map] at hcall
  obtain ⟨s, hs, hlo, hhi⟩ := exists_span_of_matchAt 0 String.toList_append hcall
  rw [Nat.zero_add, width_toList] at hlo hhi
  exact ⟨s, hs, hlo, hhi⟩

end CallPattern

end CallSweep
