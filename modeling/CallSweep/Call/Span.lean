/-
  Where the calls of a text are.

  `CallPattern.spans` goes from candidate to candidate: a candidate is the leftmost place where
  some callee is spelled out.  If a call begins there its span is recorded and the search goes on
  behind it; if not, the search goes on one character further.  Between two candidates no callee
  occurs, so no call can begin there, and nothing is missed.

  A span is a half-open range of byte offsets.  Every round of the search leaves a shorter text,
  which is why it ends.
-/
import CallSweep.Call.Pattern

namespace CallSweep

/-! ## Spans -/

/-- The bytes from `start` up to, but not including, `stop`. -/
structure Span where
  start : Nat
  stop : Nat
  start_le_stop : start ≤ stop
  deriving DecidableEq

namespace Span

/-- Bytes covered. -/
def length (s : Span) : Nat := s.stop - s.start

/-- Whether no byte is covered. -/
def isEmpty (s : Span) : Bool := s.start == s.stop

/-- The span of some width behind an offset. -/
def ofWidth (start width : Nat) : Span := ⟨start, start + width, Nat.le_add_right ..⟩

end Span

/-! ## Candidates -/

/-- The first place in a text where `name` is spelled out: the bytes in front of it, counted on top
    of `skipped`, and the text from there on. -/
def seek (name : List Char) : Nat → List Char → Option (Nat × List Char)
  | skipped, [] => if name.isEmpty then some (skipped, []) else none
  | skipped, c :: cs =>
    if name.isPrefixOf (c :: cs) then some (skipped, c :: cs)
    else seek name (skipped + c.utf8Size) cs

theorem length_le_of_seek {name cs here : List Char} {skipped at_ : Nat}
    (h : seek name skipped cs = some (at_, here)) : here.length ≤ cs.length := by
  induction cs generalizing skipped with
  | nil =>
    rw [seek] at h
    split at h
    · simp at h; simp [← h.2]
    · simp at h
  | cons c cs ih =>
    rw [seek] at h
    split at h
    · simp at h; simp [← h.2]
    · exact Nat.le_succ_of_le (ih h)

/-- The earlier of two places; the first of them where they coincide. -/
def earlier (a b : Nat × List Char) : Nat × List Char :=
  if b.1 < a.1 then b else a

/-- The earliest place of a list. -/
def earliest : List (Nat × List Char) → Option (Nat × List Char)
  | [] => none
  | a :: as => some (as.foldl earlier a)

theorem mem_of_earliest {as : List (Nat × List Char)} {a : Nat × List Char}
    (h : earliest as = some a) : a ∈ as := by
  cases as with
  | nil => simp [earliest] at h
  | cons b bs =>
    rw [earliest, Option.some.injEq] at h
    subst h
    induction bs generalizing b with
    | nil => simp
    | cons c cs ih =>
      rw [List.foldl_cons]
      have h := ih (earlier b c)
      rcases List.mem_cons.1 h with h | h
      · rw [h]
        unfold earlier
        split <;> simp
      · exact List.mem_cons_of_mem _ (List.mem_cons_of_mem _ h)

namespace CallPattern

/-- The leftmost place in a text where a callee is spelled out. -/
def nextCandidate (p : CallPattern) (cs : List Char) : Option (Nat × List Char) :=
  earliest (p.names.filterMap (seek · 0 cs))

theorem length_le_of_nextCandidate {p : CallPattern} {cs here : List Char} {skipped : Nat}
    (h : p.nextCandidate cs = some (skipped, here)) : here.length ≤ cs.length := by
  obtain ⟨name, -, hn⟩ := List.mem_filterMap.1 (mem_of_earliest h)
  exact length_le_of_seek hn

/-! ## The search -/

/-- The spans of the calls in a text that begins at the byte offset `offset`. -/
def spansFrom (p : CallPattern) (offset : Nat) (cs : List Char) : List Span :=
  match hc : p.nextCandidate cs with
  | none => []
  | some (_, []) => []
  | some (skipped, c :: here) =>
    match hm : p.matchAt (c :: here) with
    | some (width, rest) =>
      have : rest.length < cs.length :=
        Nat.lt_of_lt_of_le (length_lt_of_matchAt hm) (length_le_of_nextCandidate hc)
      .ofWidth (offset + skipped) width :: p.spansFrom (offset + skipped + width) rest
    | none =>
      have : here.length < cs.length := length_le_of_nextCandidate hc
      p.spansFrom (offset + skipped + c.utf8Size) here
  termination_by cs.length

/-- The spans of the calls in a text, from left to right and without overlap. -/
def spans (p : CallPattern) (text : String) : List Span :=
  p.spansFrom 0 text.toList

end CallPattern

end CallSweep
