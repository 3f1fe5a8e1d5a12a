/-
  Where spans lie, and that nothing is read outside of the text.

  A span is where a search has stopped twice, so both of its ends are boundaries of the text, and
  what lies between them is a call: its callee and two parentheses at least.

  1. **Spans** — each is one call at one boundary (`Bytewise.ahead_of_mem_spans`), which is not
     shorter than the shortest callee and two bytes more (`shortest_add_two_le`).

  2. **Readers** — on bytes, a reader that begins at a boundary stops at one.  `Lands` says this of
     a run: it ends, without a fault, and the offset that it may answer with is a boundary.  A
     reader goes over the bytes of a character one by one, and lands all the same.

  `spans_wellFormed` puts them together with what the search and the sweep on bytes give.
-/
import CallSweep.Proofs.Call.Position

namespace CallSweep

open Text (width width_toList)

namespace CallPattern

/-! ## Spans -/

/-- Bytes of the shortest callee. -/
def shortest (p : CallPattern) : Nat := (p.callees.map String.utf8ByteSize).min?.getD 0

theorem shortest_le {p : CallPattern} {name : List Char} (h : name ∈ p.names) :
    p.shortest ≤ width name := by
  obtain ⟨callee, hcallee, rfl⟩ := List.mem_map.1 h
  rw [width_toList]
  exact List.min?_getD_le_of_mem (List.mem_map_of_mem hcallee)

/-- A call is its callee and two parentheses at least. -/
theorem shortest_add_two_le {p : CallPattern} {cs rest : List Char} {stop : Nat}
    (h : p.matchAt cs = some (stop, rest)) : p.shortest + 2 ≤ stop := by
  obtain ⟨k, name, hname, ⟨c, rfl, -⟩, -⟩ := matchAt_eq_some_iff.1 h
  have hle := shortest_le (List.mem_of_getElem? hname)
  rw [Call.width, Call.chars, width_callChars]
  omega

end CallPattern

namespace Bytewise

/-- A span starts and stops at boundaries, and there is a call in between. -/
theorem ahead_of_mem_spans {p : CallPattern} {text : String} {s : Span} (h : s ∈ p.spans text) :
    ∃ cs rest, Ahead text s.start cs ∧ p.matchAt cs = some (s.length, rest) ∧
      Ahead text s.stop rest := by
  obtain ⟨before, cs, rest, stop, htext, hcall, rfl⟩ :=
    CallPattern.exists_matchAt_of_mem_spansFrom h
  obtain ⟨taken, htaken, rfl⟩ := CallPattern.exists_taken_of_matchAt hcall
  have hlength : (Span.ofWidth (0 + width before) (width taken)).length = width taken :=
    Nat.add_sub_cancel_left _ _
  have start : Ahead text (0 + width before) (taken ++ rest) :=
    ⟨before, by rw [htext, htaken], (Nat.zero_add _).symm⟩
  exact ⟨taken ++ rest, rest, start, by rw [hlength, ← htaken, hcall], start.append⟩

/-! ## Readers -/

/-- Whether a run over bytes ends without a fault, and at a boundary if it finds an end. -/
def Lands (text : String) (run : Checked (Option Nat)) : Prop :=
  ∃ found, run = pure found ∧ ∀ stop ∈ found, isBoundary text stop

variable {text : String} {pos : Nat}

theorem exists_ahead (h : isBoundary text pos) : ∃ cs, Ahead text pos cs := by
  rw [isBoundary, String.Pos.Raw.isValid_eq_true_iff,
    String.Pos.Raw.isValid_iff_exists_append] at h
  obtain ⟨before, after, htext, hpos⟩ := h
  have hsize : before.utf8ByteSize = pos := (congrArg String.Pos.Raw.byteIdx hpos).symm
  exact ⟨after.toList, hsize ▸ ahead_of_append htext⟩

/-- A run lands if it finds what a reader on characters finds, who stops at boundaries. -/
theorem lands_of_eq {run : Checked (Option Nat)} {found : Option (Nat × List Char)}
    (hrun : run = pure (found.map Prod.fst))
    (ahead : ∀ stop rest, found = some (stop, rest) → Ahead text stop rest) : Lands text run := by
  refine ⟨_, hrun, ?_⟩
  intro stop hstop
  obtain ⟨⟨stop', rest⟩, hfound, rfl⟩ := Option.map_eq_some_iff.1 hstop
  exact (ahead stop' rest hfound).isBoundary

theorem readLiteral_lands {quote : Char} (hquote : isQuote quote = true) (h : isBoundary text pos) :
    Lands text (readLiteral text quote.toUInt8 pos) := by
  obtain ⟨cs, ahead⟩ := exists_ahead h
  apply lands_of_eq (readLiteral_eq hquote ahead)
  intro stop rest hfound
  exact (ahead_of_closeLiteral ahead hfound).1

theorem readGroup_lands (depth : Nat) (h : isBoundary text pos) :
    Lands text (readGroup text depth pos) := by
  obtain ⟨cs, ahead⟩ := exists_ahead h
  apply lands_of_eq (readGroup_eq depth ahead)
  intro stop rest hfound
  exact ahead_of_closeArguments ahead hfound

theorem passSpaces_lands (h : isBoundary text pos) :
    ∃ stop, passSpaces text pos = pure stop ∧ isBoundary text stop := by
  obtain ⟨cs, ahead⟩ := exists_ahead h
  exact ⟨_, passSpaces_eq ahead, (ahead_skipSpace ahead).isBoundary⟩

theorem callAt_lands (p : CallPattern) (h : isBoundary text pos) :
    Lands text (callAt p text pos) := by
  obtain ⟨cs, ahead⟩ := exists_ahead h
  refine ⟨_, callAt_eq p ahead, ?_⟩
  intro stop hstop
  obtain ⟨⟨stop', rest⟩, hcall, rfl⟩ := Option.map_eq_some_iff.1 hstop
  obtain ⟨taken, rfl, rfl⟩ := CallPattern.exists_taken_of_matchAt hcall
  exact ahead.append.isBoundary

end Bytewise

namespace CallPattern

/-- **Spans are well formed, and no piece of the text is taken that has no place in it.**  Spans come
    in order and do not overlap; each lies in the text between two boundaries, and has room for the
    shortest callee and two parentheses.  On bytes, the search and the sweep end without a fault and
    give the same; and each reader that they use lands, from whatever boundary it begins at. -/
theorem spans_wellFormed (p : CallPattern) (text : String) :
    (p.spans text).Pairwise (fun s t => s.stop ≤ t.start) ∧
    (∀ s ∈ p.spans text, s.start < s.stop ∧ s.stop ≤ text.utf8ByteSize ∧
      Bytewise.isBoundary text s.start ∧ Bytewise.isBoundary text s.stop ∧
      p.shortest + 2 ≤ s.length) ∧
    Bytewise.spans p text = pure (p.spans text) ∧
    Bytewise.sweep p text = pure (p.sweep text) ∧
    ∀ pos, Bytewise.isBoundary text pos →
      Bytewise.Lands text (Bytewise.callAt p text pos) ∧
      (∃ stop, Bytewise.passSpaces text pos = pure stop ∧ Bytewise.isBoundary text stop) ∧
      (∀ depth, Bytewise.Lands text (Bytewise.readGroup text depth pos)) ∧
      ∀ quote, isQuote quote = true →
        Bytewise.Lands text (Bytewise.readLiteral text quote.toUInt8 pos) := by
  refine ⟨p.pairwise_spansFrom 0 text.toList, ?_, Bytewise.spans_eq p text,
    Bytewise.sweep_eq p text, ?_⟩
  · intro s hs
    obtain ⟨cs, rest, start, hcall, stop⟩ := Bytewise.ahead_of_mem_spans hs
    obtain ⟨-, hlt, hle⟩ := bounds_of_mem_spansFrom hs
    rw [Nat.zero_add, width_toList] at hle
    exact ⟨hlt, hle, start.isBoundary, stop.isBoundary, shortest_add_two_le hcall⟩
  · intro pos hpos
    exact ⟨Bytewise.callAt_lands p hpos, Bytewise.passSpaces_lands hpos,
      fun depth => Bytewise.readGroup_lands depth hpos,
      fun quote hquote => Bytewise.readLiteral_lands hquote hpos⟩

/-- A callee of three characters and six bytes, behind one that ends in a quote and fails; a
    backslash takes a character of three bytes with it. -/
theorem spans_wellFormed_wide_callee :
    (ofNames ["\u043b\u043e\u0433", "", "\u00e9\""] 1).spans
        "\u00e9\"(\u043b\u043e\u0433 ('\\\u20ac(');" = [.ofWidth 4 17] ∧
      (ofNames ["\u043b\u043e\u0433", "", "\u00e9\""] 1).shortest = 3 ∧
      Bytewise.spans (ofNames ["\u043b\u043e\u0433", "", "\u00e9\""] 1)
          "\u00e9\"(\u043b\u043e\u0433 ('\\\u20ac(');" =
        pure ((ofNames ["\u043b\u043e\u0433", "", "\u00e9\""] 1).spans
          "\u00e9\"(\u043b\u043e\u0433 ('\\\u20ac(');") :=
  ⟨by decide +kernel, by decide, (spans_wellFormed _ _).2.2.1⟩

end CallPattern

end CallSweep
