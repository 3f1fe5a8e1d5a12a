/-
  Where removals are reported.

  A removal carries a line and a column.  They are those of its first byte in the text as it was,
  and whoever goes there finds the call.

  1. **Lines** — on bytes.  `LastLine bytes start` says that the last line of the bytes begins at
     `start`; `Position.offset?` goes to a line, past as many line feeds as there are lines in front
     of it, and then to a column.  Whoever passes all line feeds of some bytes comes to their last
     line (`LastLine.lineOffset?_eq`).

  2. **What a position says** — `Locates front line start` ties the position that is carried over
     the characters `front` to the bytes of these characters.  It is kept by each character
     (`Locates.step`), as the byte of a line feed is in no other one.  So it is kept where lines are
     counted on bytes instead (`countLines`, `Locates.count`), and holds of all texts.

  3. **Removals** — each stands behind some front part of the text, and its position is the one
     that was carried there (`Cuts.exists_front`).

  4. **The sweep on bytes** — `Bytewise.sweep` keeps lines in another way.  It counts line feeds
     between the start of one removal and that of the next, remembers where the last line began, and
     takes that from the start of the removal to get the column.  `Cursor.Stands` is what holds
     between two cuts; `Bytewise.sweep_eq` says that no piece it takes and no difference it makes is
     a fault, and that it reports the same.

  `positions_of_removals` puts them together.
-/
import CallSweep.Proofs.Call.Bytewise.Search

namespace CallSweep

open Text (width width_nil width_cons width_append width_toList encode encode_eq_flatMap)

/-! ## Lines -/

/-- The byte that ends a line. -/
def lineFeed : UInt8 := '\n'.toUInt8

/-- Whether the last line of some bytes begins at `start`: at their head or right behind a line
    feed, and without a line feed in it. -/
structure LastLine (bytes : List UInt8) (start : Nat) : Prop where
  le : start ≤ bytes.length
  begins : start = 0 ∨ (bytes.take start).getLast? = some lineFeed
  same_line : lineFeed ∉ bytes.drop start

/-- The byte at which a line begins that has `n` lines in front of it. -/
def lineOffset? : Nat → List UInt8 → Option Nat
  | 0, _ => some 0
  | _ + 1, [] => none
  | n + 1, b :: bs => (lineOffset? (if b = lineFeed then n else n + 1) bs).map (· + 1)

/-- The byte at a position: at its line first, and then at its column. -/
def Position.offset? (p : Position) (bytes : List UInt8) : Option Nat :=
  (lineOffset? (p.line - 1) bytes).map (· + (p.column - 1))

/-- Whether a reader comes to one position before the other. -/
def Position.Before (p q : Position) : Prop :=
  p.line < q.line ∨ p.line = q.line ∧ p.column < q.column

theorem lastLine_nil : LastLine [] 0 := ⟨Nat.le_refl 0, Or.inl rfl, List.not_mem_nil⟩

namespace LastLine

variable {bytes : List UInt8} {start : Nat}

/-- A line goes on where there is no line feed. -/
theorem append (h : LastLine bytes start) {more : List UInt8} (hmore : lineFeed ∉ more) :
    LastLine (bytes ++ more) start := by
  refine ⟨?_, ?_, ?_⟩
  · rw [List.length_append]
    exact Nat.le_trans h.le (Nat.le_add_right _ _)
  · rw [List.take_append_of_le_length h.le]
    exact h.begins
  · rw [List.drop_append_of_le_length h.le, List.mem_append, not_or]
    exact ⟨h.same_line, hmore⟩

/-- A line feed begins a line. -/
theorem next (bytes : List UInt8) : LastLine (bytes ++ [lineFeed]) (bytes.length + 1) := by
  have hlength : (bytes ++ [lineFeed]).length = bytes.length + 1 := by simp
  rw [← hlength]
  refine ⟨Nat.le_refl _, Or.inr ?_, ?_⟩
  · rw [List.take_length, List.getLast?_concat]
  · rw [List.drop_length]
    exact List.not_mem_nil

end LastLine

/-- A line begins behind the line feed that ends the one in front of it. -/
theorem lineOffset?_append (front rest : List UInt8) :
    lineOffset? (front.count lineFeed + 1) (front ++ lineFeed :: rest) =
      some (front.length + 1) := by
  induction front with
  | nil =>
    rw [List.count_nil, List.nil_append, lineOffset?, if_pos rfl, lineOffset?]
    rfl
  | cons b front ih =>
    rw [List.cons_append, lineOffset?]
    by_cases hb : b = lineFeed
    · rw [if_pos hb, hb, List.count_cons_self, ih]
      rfl
    · rw [if_neg hb, List.count_cons_of_ne hb, ih]
      rfl

/-- Who goes past all the line feeds of some bytes comes to their last line. -/
theorem LastLine.lineOffset?_eq {bytes : List UInt8} {start : Nat} (h : LastLine bytes start)
    (rest : List UInt8) : lineOffset? (bytes.count lineFeed) (bytes ++ rest) = some start := by
  have hsplit : bytes = bytes.take start ++ bytes.drop start := (List.take_append_drop ..).symm
  have hlength : (bytes.take start).length = start := List.length_take_of_le h.le
  have hnone : (bytes.drop start).count lineFeed = 0 := List.count_eq_zero.2 h.same_line
  rcases h.begins with rfl | hlast
  · rw [List.drop_zero] at hnone
    rw [hnone, lineOffset?]
  · obtain ⟨earlier, hearlier⟩ := List.getLast?_eq_some_iff.1 hlast
    rw [hearlier] at hsplit hlength
    rw [hsplit, List.count_append, hnone, List.count_append, List.count_singleton_self,
      List.append_assoc, List.append_assoc]
    rw [← hlength, List.length_append]
    exact lineOffset?_append earlier _

/-! ## What a position says -/

theorem count_utf8EncodeChar (c : Char) :
    (String.utf8EncodeChar c).count lineFeed = if c = '\n' then 1 else 0 := by
  by_cases hc : c = '\n'
  · rw [if_pos hc, hc]
    rfl
  · rw [if_neg hc, List.count_eq_zero]
    exact fun hmem => hc (eq_of_mem_utf8EncodeChar (by decide) hmem)

/-- The position behind `front`, told by its line and by the byte where that line begins. -/
structure Locates (front : List Char) (line start : Nat) : Prop where
  position : Position.start.advance front = ⟨line, width front - start + 1⟩
  line_eq : line = 1 + (bytesOf front).count lineFeed
  lastLine : LastLine (bytesOf front) start

theorem Position.advance_append (p : Position) (as bs : List Char) :
    p.advance (as ++ bs) = (p.advance as).advance bs := List.foldl_append

theorem bytesOf_concat (front : List Char) (c : Char) :
    bytesOf (front ++ [c]) = bytesOf front ++ String.utf8EncodeChar c := by
  rw [bytesOf_append, bytesOf, bytesOf, List.flatMap_singleton]

theorem locates_nil : Locates [] 1 0 := ⟨rfl, rfl, lastLine_nil⟩

namespace Locates

variable {front : List Char} {line start : Nat}

theorem le (h : Locates front line start) : start ≤ width front := by
  rw [← length_bytesOf]
  exact h.lastLine.le

/-- A line feed begins a line, and any other character goes on with it. -/
theorem step (h : Locates front line start) (c : Char) :
    Locates (front ++ [c]) (if c = '\n' then (line + 1, width front + 1) else (line, start)).1
      (if c = '\n' then (line + 1, width front + 1) else (line, start)).2 := by
  have hposition : Position.start.advance (front ++ [c]) =
      Position.step ⟨line, width front - start + 1⟩ c := by
    rw [Position.advance_append, h.position]
    rfl
  have hcount := count_utf8EncodeChar c
  by_cases hc : c = '\n'
  · subst hc
    rw [if_pos rfl] at hcount ⊢
    have hwidth : width (front ++ ['\n']) = width front + 1 := width_append front ['\n']
    refine ⟨?_, ?_, ?_⟩
    · rw [hposition, Position.step, if_pos rfl, hwidth, Nat.sub_self]
    · rw [bytesOf_concat, List.count_append, hcount, h.line_eq, Nat.add_assoc]
    · rw [bytesOf_concat, ← length_bytesOf]
      exact LastLine.next (bytesOf front)
  · rw [if_neg hc] at hcount ⊢
    have hle := h.le
    refine ⟨?_, ?_, ?_⟩
    · rw [hposition, Position.step, if_neg hc, width_append, width_cons, width_nil,
        Position.mk.injEq]
      exact ⟨rfl, by show width front - start + 1 + c.utf8Size = _; omega⟩
    · rw [bytesOf_concat, List.count_append, hcount, h.line_eq, Nat.add_zero]
    · rw [bytesOf_concat]
      exact h.lastLine.append (List.count_eq_zero.1 hcount)

end Locates

/-- The lines that have begun and the byte where the last of them did, counted on over some bytes
    from the byte `pos` on. -/
def countLines (pos : Nat) (found : Nat × Nat) : List UInt8 → Nat × Nat
  | [] => found
  | b :: bs => countLines (pos + 1) (if b = lineFeed then (found.1 + 1, pos + 1) else found) bs

theorem countLines_append (pos : Nat) (found : Nat × Nat) (as bs : List UInt8) :
    countLines pos found (as ++ bs) =
      countLines (pos + as.length) (countLines pos found as) bs := by
  induction as generalizing pos found with
  | nil => rfl
  | cons a as ih =>
    rw [List.cons_append, countLines, countLines, ih, List.length_cons, Nat.add_right_comm pos,
      Nat.add_assoc pos]

theorem countLines_of_not_mem {bytes : List UInt8} (pos : Nat) (found : Nat × Nat)
    (h : lineFeed ∉ bytes) : countLines pos found bytes = found := by
  induction bytes generalizing pos with
  | nil => rfl
  | cons b bs ih =>
    rw [List.mem_cons, not_or] at h
    rw [countLines, if_neg (Ne.symm h.1), ih _ h.2]

theorem countLines_char (pos : Nat) (found : Nat × Nat) (c : Char) :
    countLines pos found (String.utf8EncodeChar c) =
      if c = '\n' then (found.1 + 1, pos + 1) else found := by
  have hcount := count_utf8EncodeChar c
  by_cases hc : c = '\n'
  · rw [if_pos hc, hc]
    rfl
  · rw [if_neg hc] at hcount ⊢
    exact countLines_of_not_mem pos found (List.count_eq_zero.1 hcount)

/-- **Lines can be counted on bytes.**  From a place on that is located, counting leads to the next
    one. -/
theorem Locates.count {front : List Char} {line start : Nat} (h : Locates front line start)
    (piece : List Char) :
    Locates (front ++ piece) (countLines (width front) (line, start) (bytesOf piece)).1
      (countLines (width front) (line, start) (bytesOf piece)).2 := by
  induction piece generalizing front line start with
  | nil =>
    rw [List.append_nil]
    exact h
  | cons c piece ih =>
    have hbytes : bytesOf (c :: piece) = String.utf8EncodeChar c ++ bytesOf piece := rfl
    have hfront : front ++ c :: piece = front ++ [c] ++ piece := by simp
    have hwidth : width front + (String.utf8EncodeChar c).length = width (front ++ [c]) := by
      rw [String.length_utf8EncodeChar, width_append, width_cons, width_nil]
      rfl
    rw [hbytes, countLines_append, countLines_char, hfront, hwidth]
    exact ih (h.step c)

/-- Every place of a text has a line, which begins somewhere. -/
theorem exists_locates (front : List Char) : ∃ line start, Locates front line start :=
  ⟨_, _, locates_nil.count front⟩

/-- Whoever goes to the line and the column of a place comes to its byte. -/
theorem Locates.offset?_eq {front : List Char} {line start : Nat} (h : Locates front line start)
    (rest : List UInt8) :
    (Position.start.advance front).offset? (bytesOf front ++ rest) = some (width front) := by
  have hle := h.le
  rw [h.position, h.line_eq, Position.offset?, Nat.add_sub_cancel_left, h.lastLine.lineOffset?_eq,
    Nat.add_sub_cancel, Option.map_some, Nat.add_sub_cancel' hle]

namespace Position

theorem Before.trans {p q r : Position} (hpq : p.Before q) (hqr : q.Before r) : p.Before r := by
  unfold Before at *
  omega

theorem before_step (p : Position) (c : Char) : p.Before (p.step c) := by
  rw [step]
  split
  · exact Or.inl (Nat.lt_succ_self p.line)
  · exact Or.inr ⟨rfl, Nat.lt_add_of_pos_right c.utf8Size_pos⟩

/-- Reading on leads to later positions. -/
theorem before_advance (p : Position) {cs : List Char} (hne : cs ≠ []) :
    p.Before (p.advance cs) := by
  induction cs generalizing p with
  | nil => exact absurd rfl hne
  | cons c cs ih =>
    cases cs with
    | nil => exact p.before_step c
    | cons d cs => exact (p.before_step c).trans (ih (p.step c) (List.cons_ne_nil d cs))

end Position

/-! ## Removals -/

/-- A removal stands behind some front part of the text, and has the position that is carried
    there. -/
theorem Cuts.exists_front {offset : Nat} {cs : List Char} {spans : List Span}
    (cuts : Cuts offset cs spans) (here : Position) {r : Removal}
    (h : r ∈ (cut offset here cs spans).2) :
    ∃ front gone back, cs = front ++ (gone ++ back) ∧
      r = ⟨.ofWidth (offset + width front) (width gone), here.advance front,
        String.ofList gone⟩ := by
  induction cuts generalizing here with
  | none => cases h
  | @span offset kept gone rest spans later ih =>
    rw [cut_kept_append] at h
    rcases List.mem_cons.1 h with rfl | h
    · exact ⟨kept, gone, rest, rfl, rfl⟩
    · obtain ⟨front, gone', back, rfl, rfl⟩ := ih _ h
      refine ⟨kept ++ (gone ++ front), gone', back, by simp, ?_⟩
      rw [width_append, width_append, Position.advance_append, Position.advance_append,
        ← Nat.add_assoc, ← Nat.add_assoc]

theorem CallPattern.exists_front (p : CallPattern) (text : String) {r : Removal}
    (h : r ∈ (p.sweep text).removals) :
    ∃ front gone back, text.toList = front ++ (gone ++ back) ∧
      r = ⟨.ofWidth (width front) (width gone), Position.start.advance front,
        String.ofList gone⟩ := by
  obtain ⟨front, gone, back, htext, hr⟩ := (p.cuts_spansFrom 0 text.toList).exists_front .start h
  rw [Nat.zero_add] at hr
  exact ⟨front, gone, back, htext, hr⟩

/-- Removals that start later have later positions. -/
theorem CallPattern.before_of_lt (p : CallPattern) (text : String) {r s : Removal}
    (hr : r ∈ (p.sweep text).removals) (hs : s ∈ (p.sweep text).removals)
    (hlt : r.span.start < s.span.start) : r.position.Before s.position := by
  obtain ⟨front, gone, back, htext, rfl⟩ := p.exists_front text hr
  obtain ⟨front', gone', back', htext', rfl⟩ := p.exists_front text hs
  obtain ⟨mid, rfl, -⟩ :=
    Text.exists_append_of_width_le (htext.symm.trans htext') (Nat.le_of_lt hlt)
  show Position.Before _ (Position.start.advance (front ++ mid))
  rw [Position.advance_append]
  apply Position.before_advance
  rintro rfl
  rw [List.append_nil] at hlt
  exact Nat.lt_irrefl _ hlt

/-! ## The sweep on bytes -/

namespace Bytewise

/-- What is left of a number when another is taken from it. -/
def difference (a b : Nat) : Checked Nat :=
  if b ≤ a then pure (a - b) else throw (.negative a b)

/-- How far a sweep has come: up to where the text has been copied or removed, up to where its lines
    have been counted, and what has been found by then. -/
structure Cursor where
  copied : Nat
  counted : Nat
  line : Nat
  lineStart : Nat
  modified : String
  removals : List Removal

def Cursor.start : Cursor := ⟨0, 0, 1, 0, "", []⟩

/-- Copies the text up to a span and removes what the span covers. -/
def cutNext (text : String) (c : Cursor) (span : Span) : Checked Cursor := do
  let kept ← textBetween text c.copied span.start
  let passed ← textBetween text c.counted span.start
  let lines := countLines c.counted (c.line, c.lineStart) (bytesOf passed)
  let distance ← difference span.start lines.2
  let gone ← textBetween text span.start span.stop
  pure
    { copied := span.stop, counted := span.start, line := lines.1, lineStart := lines.2
      modified := c.modified ++ String.ofList kept
      removals := c.removals ++ [⟨span, ⟨lines.1, distance + 1⟩, String.ofList gone⟩] }

/-- Copies what is behind the last span. -/
def finish (text : String) (c : Cursor) : Checked Sweep := do
  let rest ← textFrom text c.copied
  pure ⟨c.modified ++ String.ofList rest, c.removals⟩

/-- Removes every call of a pattern from a text. -/
def sweep (p : CallPattern) (text : String) : Checked Sweep := do
  let spans ← spans p text
  let c ← spans.foldlM (cutNext text) .start
  finish text c

/-- Where a cursor stands: lines have been counted over `front`, `behind` has been removed after
    that, and `cs` is still to come. -/
structure Cursor.Stands (c : Cursor) (text : String) (front behind cs : List Char) : Prop where
  text_eq : text.toList = front ++ (behind ++ cs)
  counted_eq : c.counted = width front
  copied_eq : c.copied = width front + width behind
  locates : Locates front c.line c.lineStart

/-- **One cut has no fault**, and reports the position that is carried over the text. -/
theorem cutNext_eq {text : String} {c : Cursor} {front behind kept gone rest : List Char}
    (stands : c.Stands text front behind (kept ++ (gone ++ rest))) :
    ∃ c' : Cursor, cutNext text c (.ofWidth (c.copied + width kept) (width gone)) = pure c' ∧
      c'.Stands text (front ++ (behind ++ kept)) gone rest ∧
      c'.modified = c.modified ++ String.ofList kept ∧
      c'.removals = c.removals ++ [⟨.ofWidth (c.copied + width kept) (width gone),
        (Position.start.advance (front ++ behind)).advance kept, String.ofList gone⟩] := by
  have counted : Ahead text c.counted (behind ++ kept ++ (gone ++ rest)) :=
    ⟨front, by rw [stands.text_eq, List.append_assoc], stands.counted_eq.symm⟩
  have copied : Ahead text c.copied (kept ++ (gone ++ rest)) := by
    refine ⟨front ++ behind, by rw [stands.text_eq, List.append_assoc], ?_⟩
    rw [width_append, stands.copied_eq]
  have start : Ahead text (c.copied + width kept) (gone ++ rest) := copied.append
  have hstart : c.copied + width kept = c.counted + width (behind ++ kept) := by
    rw [stands.copied_eq, stands.counted_eq, width_append, Nat.add_assoc]
  have found := stands.locates.count (behind ++ kept)
  rw [← stands.counted_eq] at found
  have hwidth : width (front ++ (behind ++ kept)) = c.copied + width kept := by
    rw [width_append, hstart, stands.counted_eq]
  generalize hlines : countLines c.counted (c.line, c.lineStart) (bytesOf (behind ++ kept)) = lines
    at found
  have hle := found.le
  have hposition := found.position
  rw [hwidth] at hle hposition
  rw [← List.append_assoc, Position.advance_append] at hposition
  refine ⟨⟨c.copied + width kept + width gone, c.copied + width kept, lines.1, lines.2,
    c.modified ++ String.ofList kept, _⟩, ?_, ⟨?_, hwidth.symm, ?_, found⟩, rfl, rfl⟩
  · have hpassed : textBetween text c.counted (c.copied + width kept) = pure (behind ++ kept) := by
      rw [hstart]
      exact counted.textBetween
    have hdistance : difference (c.copied + width kept) lines.2 =
        pure (c.copied + width kept - lines.2) := if_pos hle
    rw [hposition]
    simp only [cutNext, Span.ofWidth, copied.textBetween, hpassed, hlines, start.textBetween,
      hdistance, pure_bind]
  · rw [stands.text_eq]
    simp
  · show c.copied + width kept + width gone = _
    rw [hwidth]

/-- A sweep goes on as the cuts that are ahead of it. -/
theorem finish_cuts {text : String} {offset : Nat} {cs : List Char} {spans : List Span}
    (cuts : Cuts offset cs spans) {c : Cursor} {front behind : List Char}
    (stands : c.Stands text front behind cs) (hoffset : c.copied = offset) :
    (spans.foldlM (cutNext text) c >>= finish text) =
      pure ⟨c.modified ++
          String.ofList (cut offset (Position.start.advance (front ++ behind)) cs spans).1,
        c.removals ++ (cut offset (Position.start.advance (front ++ behind)) cs spans).2⟩ := by
  induction cuts generalizing c front behind with
  | none offset cs =>
    have copied : Ahead text c.copied cs := by
      refine ⟨front ++ behind, by rw [stands.text_eq, List.append_assoc], ?_⟩
      rw [width_append, stands.copied_eq]
    rw [List.foldlM_nil, pure_bind, finish, copied.textFrom, pure_bind, cut, List.append_nil]
  | @span offset kept gone rest spans later ih =>
    subst hoffset
    obtain ⟨c', hcut, stands', hmodified, hremovals⟩ := cutNext_eq stands
    have hcopied : c'.copied = c.copied + width kept + width gone := by
      rw [stands'.copied_eq, width_append, width_append, stands.copied_eq]
      omega
    have hhere : (Position.start.advance (front ++ behind)).advance kept =
        Position.start.advance (front ++ (behind ++ kept)) := by
      rw [← Position.advance_append, List.append_assoc]
    rw [List.foldlM_cons, hcut, pure_bind, ih stands' hcopied, cut_kept_append, hmodified, hremovals,
      hhere, ← Position.advance_append]
    simp only [String.ofList_append, String.append_assoc, List.append_assoc, List.singleton_append]

/-- **A sweep on bytes has no fault**, and gives what the sweep of the pattern gives. -/
theorem sweep_eq (p : CallPattern) (text : String) : sweep p text = pure (p.sweep text) := by
  have stands : Cursor.start.Stands text [] [] text.toList :=
    ⟨rfl, rfl, rfl, locates_nil⟩
  have done := finish_cuts (p.cuts_spansFrom 0 text.toList) stands rfl
  rw [sweep, spans_eq, pure_bind]
  refine done.trans ?_
  rw [Cursor.start, String.empty_append, List.nil_append]
  rfl

end Bytewise

namespace CallPattern

/-- **A removal is found where it is reported.**  Its line is one more than the line feeds in front
    of it in the text as it was, and its column one more than the bytes between the begin of that
    line and it; whoever goes to that line and column comes to the start of its span, where its text
    is; and the positions come in order.  A sweep on bytes, which takes its columns from offsets,
    takes no larger number from a smaller one and reports the same. -/
theorem positions_of_removals (p : CallPattern) (text : String) :
    (∀ r ∈ (p.sweep text).removals,
      r.position.line = 1 + ((encode text).take r.span.start).count lineFeed ∧
      (∃ lineStart, LastLine ((encode text).take r.span.start) lineStart ∧
        lineStart ≤ r.span.start ∧ r.position.column = r.span.start - lineStart + 1) ∧
      r.position.offset? (encode text) = some r.span.start ∧
      r.span.slice (encode text) = encode r.text) ∧
    (p.sweep text).removals.Pairwise (fun r s => r.position.Before s.position) ∧
    Bytewise.sweep p text = pure (p.sweep text) := by
  refine ⟨?_, ?_, Bytewise.sweep_eq p text⟩
  · intro r hr
    obtain ⟨front, gone, back, htext, rfl⟩ := p.exists_front text hr
    obtain ⟨line, lineStart, located⟩ := exists_locates front
    have hbytes : encode text = bytesOf front ++ (bytesOf gone ++ bytesOf back) := by
      rw [encode_eq_flatMap, htext, ← bytesOf_append, ← bytesOf_append]
      rfl
    have hfront : (encode text).take (Span.ofWidth (width front) (width gone)).start =
        bytesOf front := by
      rw [hbytes]
      exact List.take_left' (length_bytesOf front)
    rw [hfront]
    refine ⟨?_, ⟨lineStart, located.lastLine, located.le, ?_⟩, ?_, ?_⟩
    · rw [located.position, located.line_eq]
    · rw [located.position]
      rfl
    · rw [hbytes]
      exact located.offset?_eq _
    · rw [hbytes, encode_ofList]
      apply slice_append
      · exact (length_bytesOf front).symm
      · rw [length_bytesOf]
        exact Nat.add_sub_cancel_left _ _
  · have inOrder : ((p.sweep text).removals.map Removal.span).Pairwise
        fun s t => s.start < t.start := by
      rw [CallPattern.sweep, map_span_cut]
      apply (p.pairwise_spansFrom 0 text.toList).imp_of_mem
      intro s t hs _ hle
      obtain ⟨-, hlt, -⟩ := bounds_of_mem_spansFrom hs
      exact Nat.lt_of_lt_of_le hlt hle
    rw [List.pairwise_map] at inOrder
    apply inOrder.imp_of_mem
    intro r s hr hs hlt
    exact p.before_of_lt text hr hs hlt

/-- A removal goes over the end of a line, the next one is on the line where it ends, behind a
    character of two bytes, and a carriage return ends no line. -/
theorem positions_of_removals_across_lines :
    (standard.sweep "a\rconsole.log(\n1);\u00e9 console.log(2)").removals.map Removal.position =
        [⟨1, 3⟩, ⟨2, 7⟩] ∧
      (standard.sweep "a\rconsole.log(\n1);\u00e9 console.log(2)").removals.Pairwise
        fun r s => r.position.Before s.position :=
  ⟨by decide +kernel, (positions_of_removals standard _).2.1⟩

end CallPattern

end CallSweep
