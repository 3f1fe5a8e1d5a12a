/-
  The search on bytes has no fault, and finds what the search on characters finds.

  From a boundary of the text each reader ends with the answer of its counterpart on characters,
  which is a boundary again:

  * `readLiteral_eq` — a literal, against `closeLiteral`, the part of the scanner that is inside of
    one.  A backslash is where the machine needs a character, and it stands at a boundary there.
  * `readGroup_eq` — a group, against `closeArguments`.  The machine calls itself for a group inside
    and the scanner counts the groups that are open; `closeArguments_succ` is the equation between
    the two.
  * `readCall_eq`, `callAt_eq` — a call, against `CallPattern.matchAt`.
  * `spansFrom_eq` — the search, against `CallPattern.spansFrom`.

  Each proof is by induction on the characters that are ahead.  They get fewer with every step, so
  that each loop gets on (`Ahead.gets_on`).
-/
import CallSweep.Proofs.Call.Bytewise

namespace CallSweep

open Text (isLineTerminator width width_cons)

namespace Bytewise

/-! ## Literals -/

/-- Reads to the quote that closes a literal, on characters: the bytes up to there, counted on top
    of `used`, and the text behind it. -/
def closeLiteral (quote : Char) (used : Nat) : List Char → Option (Nat × List Char)
  | [] => none
  | c :: cs =>
    if c = quote then some (used + c.utf8Size, cs)
    else if c = '\\' then
      match cs with
      | [] => none
      | e :: cs =>
        if isLineTerminator e then none else closeLiteral quote (used + 1 + e.utf8Size) cs
    else closeLiteral quote (used + c.utf8Size) cs

/-- In a literal the scanner first comes to its quote. -/
theorem closeArguments_eq_closeLiteral (depth opened used : Nat) (quote : Char) (cs : List Char) :
    closeArguments depth opened (.literal quote) used cs =
      (closeLiteral quote used cs).bind fun found =>
        closeArguments depth opened .code found.1 found.2 := by
  fun_induction closeLiteral quote used cs with
  | case1 used => rw [closeArguments]; rfl
  | case2 used cs => rw [closeArguments, if_pos rfl]; rfl
  | case3 used hquote => rw [closeArguments, if_neg hquote, if_pos rfl, closeArguments]; rfl
  | case4 used e cs hline hquote =>
    rw [closeArguments, if_neg hquote, if_pos rfl, closeArguments, if_pos hline]
    rfl
  | case5 used e cs hline hquote ih =>
    rw [closeArguments, if_neg hquote, if_pos rfl, closeArguments, if_neg hline, ih]
  | case6 used c cs hquote hback ih =>
    rw [closeArguments, if_neg hquote, if_neg hback, ih]

variable {text : String} {pos : Nat} {cs : List Char}

/-- Behind a literal the text goes on with a boundary and with fewer characters. -/
theorem ahead_of_closeLiteral {quote : Char} {stop : Nat} {rest : List Char}
    (ahead : Ahead text pos cs) (h : closeLiteral quote pos cs = some (stop, rest)) :
    Ahead text stop rest ∧ rest.length < cs.length := by
  fun_induction closeLiteral quote pos cs with
  | case1 pos => simp at h
  | case2 pos cs =>
    rw [Option.some.injEq, Prod.mk.injEq] at h
    obtain ⟨rfl, rfl⟩ := h
    exact ⟨ahead.step, Nat.lt_succ_self _⟩
  | case3 pos hquote => simp at h
  | case4 pos e cs hline hquote => simp at h
  | case5 pos e cs hline hquote ih =>
    obtain ⟨hahead, hlt⟩ := ih ahead.step.step h
    exact ⟨hahead, Nat.lt_succ_of_lt (Nat.lt_succ_of_lt hlt)⟩
  | case6 pos c cs hquote hback ih =>
    obtain ⟨hahead, hlt⟩ := ih ahead.step h
    exact ⟨hahead, Nat.lt_succ_of_lt hlt⟩

theorem ascii_of_isQuote {c : Char} (h : isQuote c = true) : c.toNat < 128 := by
  rcases isQuote_iff.1 h with rfl | rfl | rfl <;> decide

theorem readLiteral_plain {quote c : Char} (hq : isQuote quote = true)
    (ahead : Ahead text pos (c :: cs)) (hquote : c ≠ quote) (hback : c ≠ '\\') :
    readLiteral text quote.toUInt8 pos = readLiteral text quote.toUInt8 (pos + c.utf8Size) := by
  apply Ahead.pass_char (readLiteral text quote.toUInt8)
    (fun b => b ≠ quote.toUInt8 ∧ b ≠ '\\'.toUInt8) ?_ ahead
  · intro b hb
    refine ⟨?_, ?_⟩
    · rintro rfl
      exact hquote (eq_of_mem_utf8EncodeChar (ascii_of_isQuote hq) hb)
    · rintro rfl
      exact hback (eq_of_mem_utf8EncodeChar (by decide) hb)
  · rintro pos b hbyte ⟨hb, hb'⟩
    rw [readLiteral, hbyte]
    simp only [if_neg hb, if_neg hb', onward_eq ⟨Nat.lt_succ_self pos, le_of_byte? hbyte⟩, pure_bind]

/-- A literal is read without a fault. -/
theorem readLiteral_eq {quote : Char} (hq : isQuote quote = true) (ahead : Ahead text pos cs) :
    readLiteral text quote.toUInt8 pos = pure ((closeLiteral quote pos cs).map Prod.fst) := by
  have hne : '\\'.toUInt8 ≠ quote.toUInt8 := by
    rcases isQuote_iff.1 hq with rfl | rfl | rfl <;> decide
  fun_induction closeLiteral quote pos cs with
  | case1 pos =>
    rw [readLiteral, ahead.byte?_nil]
    rfl
  | case2 pos cs =>
    rw [readLiteral, ahead.byte?_cons (ascii_of_isQuote hq), utf8Size_of_isQuote hq]
    simp only [if_true, Option.map_some]
  | case3 pos hquote =>
    have behind : Ahead text (pos + 1) [] := ahead.step
    rw [readLiteral, ahead.byte?_cons (by decide)]
    simp only [if_neg hne, if_true, behind.textFrom, pure_bind, Option.map_none]
  | case4 pos e cs hline hquote =>
    have behind : Ahead text (pos + 1) (e :: cs) := ahead.step
    rw [readLiteral, ahead.byte?_cons (by decide)]
    simp only [if_neg hne, if_true, behind.textFrom, pure_bind, if_pos hline, Option.map_none]
  | case5 pos e cs hline hquote ih =>
    have behind : Ahead text (pos + 1) (e :: cs) := ahead.step
    have hshorter : cs.length < ('\\' :: e :: cs).length :=
      Nat.lt_succ_of_lt (Nat.lt_succ_self cs.length)
    have getsOn := ahead.gets_on behind.step hshorter
    rw [readLiteral, ahead.byte?_cons (by decide)]
    simp only [if_neg hne, if_true, behind.textFrom, pure_bind, if_neg hline, onward_eq getsOn,
      ih behind.step]
  | case6 pos c cs hquote hback ih =>
    rw [readLiteral_plain hq ahead hquote hback, ih ahead.step]

/-! ## Groups -/

/-- A scan with one more group open is the scan of that group, and then of what follows it. -/
theorem closeArguments_succ (depth opened used : Nat) (mode : Mode) (cs : List Char) :
    closeArguments (depth + 1) (opened + 1) mode used cs =
      (closeArguments depth opened mode used cs).bind fun found =>
        closeArguments (depth + 1) 0 .code found.1 found.2 := by
  fun_induction closeArguments depth opened mode used cs with
  | case1 opened mode used => cases mode <;> rfl
  | case2 used cs => rw [closeArguments, if_pos rfl, if_neg (Nat.succ_ne_zero 0)]; rfl
  | case3 opened used cs hzero ih =>
    rw [closeArguments, if_pos rfl, if_neg (Nat.succ_ne_zero opened), Nat.add_sub_cancel, ← ih,
      Nat.sub_add_cancel (Nat.pos_of_ne_zero hzero)]
  | case4 opened used cs hlt hclose ih =>
    rw [closeArguments, if_neg hclose, if_pos rfl, if_pos (Nat.succ_lt_succ hlt), ih]
  | case5 opened used cs hle hclose =>
    rw [closeArguments, if_neg hclose, if_pos rfl, if_neg (mt Nat.lt_of_succ_lt_succ hle)]
    rfl
  | case6 opened used c cs hclose hopen hquote ih =>
    rw [closeArguments, if_neg hclose, if_neg hopen, if_pos hquote, ih]
  | case7 opened used c cs hclose hopen hquote ih =>
    rw [closeArguments, if_neg hclose, if_neg hopen, if_neg hquote, ih]
  | case8 opened used c cs ih => rw [closeArguments, if_pos rfl, ih]
  | case9 opened quote used cs hquote ih => rw [closeArguments, if_neg hquote, if_pos rfl, ih]
  | case10 opened quote used c cs hquote hback ih =>
    rw [closeArguments, if_neg hquote, if_neg hback, ih]
  | case11 opened quote used c cs hline => rw [closeArguments, if_pos hline]; rfl
  | case12 opened quote used c cs hline ih => rw [closeArguments, if_neg hline, ih]

/-- Behind an argument list the text goes on with a boundary. -/
theorem ahead_of_closeArguments {depth stop : Nat} {rest : List Char} (ahead : Ahead text pos cs)
    (h : closeArguments depth 0 .code pos cs = some (stop, rest)) : Ahead text stop rest := by
  obtain ⟨b, rfl, rfl⟩ := closeArguments_eq_some_iff.1 h
  have closing : Ahead text (pos + width b.chars) (')' :: rest) := ahead.append
  exact closing.step

theorem toUInt8_of_isQuote {c : Char} (h : isQuote c = true) :
    c.toUInt8 ≠ ')'.toUInt8 ∧ c.toUInt8 ≠ '('.toUInt8 ∧ isQuoteByte c.toUInt8 = true := by
  rcases isQuote_iff.1 h with rfl | rfl | rfl <;> decide

theorem readGroup_plain {c : Char} (ahead : Ahead text pos (c :: cs)) (plain : isPlain c = true)
    (depth : Nat) : readGroup text depth pos = readGroup text depth (pos + c.utf8Size) := by
  obtain ⟨hopen, hclose, hquote⟩ := isPlain_iff.1 plain
  apply Ahead.pass_char (readGroup text depth)
    (fun b => b ≠ ')'.toUInt8 ∧ b ≠ '('.toUInt8 ∧ isQuoteByte b = false) ?_ ahead
  · intro b hb
    refine ⟨?_, ?_, ?_⟩
    · rintro rfl
      exact hclose (eq_of_mem_utf8EncodeChar (by decide) hb)
    · rintro rfl
      exact hopen (eq_of_mem_utf8EncodeChar (by decide) hb)
    · by_contra hbyte
      have hnot : ∀ q, isQuote q = true → b ≠ q.toUInt8 := by
        rintro q hq rfl
        rw [eq_of_mem_utf8EncodeChar (ascii_of_isQuote hq) hb, hq] at hquote
        cases hquote
      have hany : b = '"'.toUInt8 ∨ b = '\''.toUInt8 ∨ b = '\x60'.toUInt8 := by
        simpa [isQuoteByte, ← or_iff_not_imp_left] using hbyte
      rcases hany with h | h | h
      · exact hnot '"' rfl h
      · exact hnot '\'' rfl h
      · exact hnot '\x60' rfl h
  · rintro pos b hbyte ⟨hb, hb', hb''⟩
    have getsOn := onward_eq ⟨Nat.lt_succ_self pos, le_of_byte? hbyte⟩
    rw [readGroup.eq_def, hbyte]
    simp [hb, hb', hb'', getsOn]

/-- **A group is read without a fault**, up to where the scanner closes it. -/
theorem readGroup_eq (depth : Nat) (ahead : Ahead text pos cs) :
    readGroup text depth pos = pure ((closeArguments depth 0 .code pos cs).map Prod.fst) := by
  induction hlen : cs.length using Nat.strongRecOn generalizing cs pos depth with
  | ind len ih =>
    cases cs with
    | nil =>
      rw [readGroup.eq_def, ahead.byte?_nil]
      rfl
    | cons c cs =>
      have hlt : cs.length < len := by
        rw [← hlen]
        exact Nat.lt_succ_self _
      by_cases hclose : c = ')'
      · subst hclose
        rw [readGroup.eq_def, ahead.byte?_cons (by decide), closeArguments, if_pos rfl]
        simp only [if_true, Option.map_some]
      by_cases hopen : c = '('
      · -- a group, and then the rest of this one
        subst hopen
        have hne : '('.toUInt8 ≠ ')'.toUInt8 := by decide
        have inside : Ahead text (pos + 1) cs := ahead.step
        rw [readGroup.eq_def, ahead.byte?_cons (by decide), closeArguments, if_neg (by decide),
          if_pos rfl]
        cases depth with
        | zero => simp only [if_neg hne, if_true, if_neg (Nat.lt_irrefl 0), Option.map_none]
        | succ inner =>
          have getsIn := ahead.gets_on inside (Nat.lt_succ_self _)
          simp only [if_neg hne, if_true, if_pos (Nat.succ_pos inner), closeArguments_succ,
            onward_eq getsIn, ih cs.length hlt inner inside rfl, pure_bind]
          cases hfound : closeArguments inner 0 .code (pos + 1) cs with
          | none => rfl
          | some found =>
            have behind := ahead_of_closeArguments inside hfound
            have hshorter := Nat.lt_succ_of_lt (length_lt_of_closeArguments hfound)
            simp only [Option.map_some, onward_eq (ahead.gets_on behind hshorter), pure_bind]
            exact ih found.2.length (hlen ▸ hshorter) (inner + 1) behind rfl
      by_cases hquote : isQuote c = true
      · -- a literal, and then the rest of the group
        obtain ⟨hne, hne', hbyte⟩ := toUInt8_of_isQuote hquote
        have inside : Ahead text (pos + 1) cs := utf8Size_of_isQuote hquote ▸ ahead.step
        rw [readGroup.eq_def, ahead.byte?_cons (ascii_of_isQuote hquote), closeArguments,
          if_neg hclose, if_neg hopen, if_pos hquote, closeArguments_eq_closeLiteral]
        simp only [if_neg hne, if_neg hne', hbyte, if_true, readLiteral_eq hquote inside, pure_bind]
        cases hfound : closeLiteral c (pos + 1) cs with
        | none => rfl
        | some found =>
          obtain ⟨behind, hshorter⟩ := ahead_of_closeLiteral inside hfound
          have getsOn := ahead.gets_on behind (Nat.lt_succ_of_lt hshorter)
          simp only [Option.map_some, onward_eq getsOn, pure_bind]
          exact ih found.2.length (Nat.lt_trans hshorter hlt) depth behind rfl
      · have plain : isPlain c = true := isPlain_iff.2 ⟨hopen, hclose, by simpa using hquote⟩
        rw [readGroup_plain ahead plain, closeArguments, if_neg hclose, if_neg hopen, if_neg hquote]
        exact ih cs.length hlt depth ahead.step rfl

/-! ## Calls -/

theorem ahead_skipSpace (ahead : Ahead text pos cs) :
    Ahead text (skipSpace pos cs).1 (skipSpace pos cs).2 := by
  fun_induction skipSpace pos cs with
  | case1 pos => exact ahead
  | case2 pos c cs hspace ih => exact ih ahead.step
  | case3 pos c cs hspace => exact ahead

theorem passSpaces_eq (ahead : Ahead text pos cs) :
    passSpaces text pos = pure (skipSpace pos cs).1 := by
  rw [passSpaces, ahead.textFrom, pure_bind]

theorem callAfter_of_open {depth used opening : Nat} {args : List Char}
    (h : skipSpace used cs = (opening, '(' :: args)) :
    callAfter depth used cs =
      (closeArguments depth 0 .code (opening + 1) args).map takeSemicolon := by
  simp only [callAfter, h]

theorem callAfter_of_not_open {depth used : Nat} (h : (skipSpace used cs).2.head? ≠ some '(') :
    callAfter depth used cs = none := by
  unfold callAfter
  split
  · next hplace => simp [hplace] at h
  · rfl

/-- The rest of a call is read without a fault. -/
theorem readCall_eq (depth : Nat) (ahead : Ahead text pos cs) :
    readCall text depth pos = pure ((callAfter depth pos cs).map Prod.fst) := by
  have behind := ahead_skipSpace ahead
  rw [readCall, passSpaces_eq ahead, pure_bind]
  by_cases hopen : (skipSpace pos cs).2.head? = some '('
  · obtain ⟨args, hargs⟩ := List.head?_eq_some_iff.1 hopen
    have inside : Ahead text ((skipSpace pos cs).1 + 1) args := by
      rw [hargs] at behind
      exact behind.step
    rw [if_pos ((behind.byte?_eq_some_iff (by decide)).2 hopen), readGroup_eq depth inside,
      pure_bind, callAfter_of_open (Prod.ext rfl hargs)]
    cases hclosed : closeArguments depth 0 .code ((skipSpace pos cs).1 + 1) args with
    | none => rfl
    | some found =>
      obtain ⟨closed, rest⟩ := found
      have closing := ahead_of_closeArguments inside hclosed
      by_cases hsemi : rest.head? = some ';'
      · obtain ⟨rest, rfl⟩ := List.head?_eq_some_iff.1 hsemi
        exact if_pos ((closing.byte?_eq_some_iff (by decide)).2 rfl)
      · have hkept : takeSemicolon (closed, rest) = (closed, rest) :=
          takeSemicolon_eq closed false rest fun _ => hsemi
        rw [Option.map_some, Option.map_some, Option.map_some, hkept]
        exact if_neg (mt (closing.byte?_eq_some_iff (by decide)).1 hsemi)
  · rw [if_neg (mt (behind.byte?_eq_some_iff (by decide)).1 hopen), callAfter_of_not_open hopen]
    rfl

theorem skipSpace_add (n used : Nat) (cs : List Char) :
    skipSpace (n + used) cs = shift n (skipSpace used cs) := by
  induction cs generalizing used with
  | nil => rfl
  | cons c cs ih =>
    rw [skipSpace, skipSpace]
    split
    · rw [Nat.add_assoc, ih]
    · rfl

theorem closeArguments_add (depth n used : Nat) (cs : List Char) :
    closeArguments depth 0 .code (n + used) cs =
      (closeArguments depth 0 .code used cs).map (shift n) := by
  apply Option.ext
  rintro ⟨stop, rest⟩
  rw [closeArguments_eq_some_iff, Option.map_eq_some_iff]
  constructor
  · rintro ⟨b, hcs, rfl⟩
    refine ⟨(used + width b.chars + 1, rest), closeArguments_eq_some_iff.2 ⟨b, hcs, rfl⟩, ?_⟩
    rw [shift, ← Nat.add_assoc, ← Nat.add_assoc]
  · rintro ⟨⟨stop', rest'⟩, h, hshift⟩
    obtain ⟨b, hcs, rfl⟩ := closeArguments_eq_some_iff.1 h
    rw [shift, Prod.mk.injEq] at hshift
    obtain ⟨rfl, rfl⟩ := hshift
    exact ⟨b, hcs, by rw [← Nat.add_assoc, ← Nat.add_assoc]⟩

theorem takeSemicolon_shift (n : Nat) (found : Nat × List Char) :
    takeSemicolon (shift n found) = shift n (takeSemicolon found) := by
  obtain ⟨stop, rest⟩ := found
  by_cases hsemi : rest.head? = some ';'
  · obtain ⟨rest, rfl⟩ := List.head?_eq_some_iff.1 hsemi
    rfl
  · have kept : ∀ k, takeSemicolon (k, rest) = (k, rest) :=
      fun k => takeSemicolon_eq k false rest fun _ => hsemi
    rw [kept, shift, kept]

/-- A call ends as much later as it begins. -/
theorem callAfter_add (depth n used : Nat) (cs : List Char) :
    callAfter depth (n + used) cs = (callAfter depth used cs).map (shift n) := by
  have hplace := skipSpace_add n used cs
  by_cases hopen : (skipSpace used cs).2.head? = some '('
  · obtain ⟨args, hargs⟩ := List.head?_eq_some_iff.1 hopen
    have hshifted : skipSpace (n + used) cs = (n + (skipSpace used cs).1, '(' :: args) := by
      rw [hplace, shift, hargs]
    rw [callAfter_of_open (Prod.ext rfl hargs), callAfter_of_open hshifted, Nat.add_assoc,
      closeArguments_add, Option.map_map, Option.map_map]
    congr 1
    funext found
    exact takeSemicolon_shift n found
  · rw [callAfter_of_not_open hopen, callAfter_of_not_open (by rw [hplace]; exact hopen)]
    rfl

/-- **The call at an offset is found without a fault**, and it is the one that the pattern finds. -/
theorem callAt_eq (p : CallPattern) (ahead : Ahead text pos cs) :
    callAt p text pos = pure ((p.matchAt cs).map fun found => pos + found.1) := by
  rw [callAt, ahead.textFrom, pure_bind, CallPattern.matchAt_eq]
  induction p.names with
  | nil => rfl
  | cons name names ih =>
    rw [List.filter_cons, List.findSome?_cons]
    cases hprefix : name.isPrefixOf? cs with
    | none =>
      have hnot : ¬name.isPrefixOf cs = true := by
        rw [List.isPrefixOf_iff_prefix]
        rintro ⟨after, htext⟩
        rw [List.isPrefixOf?_eq_some_iff_append_eq.2 htext] at hprefix
        cases hprefix
      have hcall : callOf p.depth name cs = none := by simp only [callOf, hprefix]
      rw [if_neg hnot, hcall]
      exact ih
    | some after =>
      have htext : name ++ after = cs := List.isPrefixOf?_eq_some_iff_append_eq.1 hprefix
      have hspelled : name.isPrefixOf cs = true := List.isPrefixOf_iff_prefix.2 ⟨after, htext⟩
      have hcall : callOf p.depth name cs = callAfter p.depth (width name) after := by
        simp only [callOf, hprefix]
      have behind : Ahead text (pos + width name) after := by
        rw [← htext] at ahead
        exact ahead.append
      rw [if_pos hspelled, List.findSomeM?_cons, readCall_eq p.depth behind, pure_bind,
        callAfter_add, hcall]
      cases callAfter p.depth (width name) after with
      | none => exact ih
      | some found => rfl

/-! ## The search -/

/-- A place that the search for a name comes to is a boundary where the name is spelled out. -/
theorem exists_of_seek {name cs here : List Char} {skipped place : Nat}
    (h : seek name skipped cs = some (place, here)) : name.isPrefixOf here = true ∧
      ∃ between, cs = between ++ here ∧ skipped + width between = place := by
  induction cs generalizing skipped with
  | nil =>
    rw [seek] at h
    split at h
    · next hempty =>
      rw [Option.some.injEq, Prod.mk.injEq] at h
      obtain ⟨rfl, rfl⟩ := h
      obtain rfl : name = [] := List.isEmpty_iff.1 hempty
      exact ⟨rfl, [], rfl, rfl⟩
    · cases h
  | cons c cs ih =>
    rw [seek] at h
    split at h
    · next hspelled =>
      rw [Option.some.injEq, Prod.mk.injEq] at h
      obtain ⟨rfl, rfl⟩ := h
      exact ⟨hspelled, [], rfl, rfl⟩
    · obtain ⟨hspelled, between, rfl, hplace⟩ := ih h
      refine ⟨hspelled, c :: between, rfl, ?_⟩
      rw [width_cons, ← Nat.add_assoc, hplace]

theorem ahead_of_nextCandidate {p : CallPattern} {skipped : Nat} {here : List Char}
    (ahead : Ahead text pos cs) (h : p.nextCandidate cs = some (skipped, here)) :
    Ahead text (pos + skipped) here ∧ here ≠ [] := by
  obtain ⟨name, hname, hseek⟩ := List.mem_filterMap.1 (mem_of_earliest h)
  obtain ⟨hspelled, between, rfl, hplace⟩ := exists_of_seek hseek
  rw [Nat.zero_add] at hplace
  refine ⟨hplace ▸ ahead.append, ?_⟩
  rintro rfl
  rw [List.isPrefixOf_iff_prefix, List.prefix_nil] at hspelled
  exact CallPattern.ne_nil_of_mem_names hname hspelled

theorem nextCandidate_eq (p : CallPattern) (ahead : Ahead text pos cs) :
    nextCandidate p text pos = (p.nextCandidate cs).map fun place => pos + place.1 := by
  rw [nextCandidate, if_pos ahead.isBoundary, ahead.splitAtByte_eq]

/-- **Every span is found without a fault**, and the search gets on between them. -/
theorem spansFrom_eq (p : CallPattern) (ahead : Ahead text pos cs) :
    spansFrom p text pos = pure (p.spansFrom pos cs) := by
  induction hlen : cs.length using Nat.strongRecOn generalizing cs pos with
  | ind len ih =>
    rw [spansFrom, nextCandidate_eq p ahead, CallPattern.spansFrom_eq]
    cases hplace : p.nextCandidate cs with
    | none => rfl
    | some place =>
      obtain ⟨skipped, here⟩ := place
      obtain ⟨start, hne⟩ := ahead_of_nextCandidate ahead hplace
      have hle := CallPattern.length_le_of_nextCandidate hplace
      cases here with
      | nil => exact absurd rfl hne
      | cons c here =>
        simp only [Option.map_some, callAt_eq p start, pure_bind]
        rw [CallPattern.spansFromCandidate]
        cases hcall : p.matchAt (c :: here) with
        | none =>
          -- the search goes on one character further
          have behind : Ahead text (pos + skipped + c.utf8Size) here := start.step
          have hstep : (c :: here).head?.elim 1 Char.utf8Size = c.utf8Size := rfl
          simp only [Option.map_none, start.textFrom, pure_bind, hstep,
            onward_eq (ahead.gets_on behind hle)]
          exact ih here.length (hlen ▸ hle) behind rfl
        | some found =>
          obtain ⟨stop, rest⟩ := found
          obtain ⟨taken, htaken, rfl⟩ := CallPattern.exists_taken_of_matchAt hcall
          have behind : Ahead text (pos + skipped + width taken) rest := by
            rw [htaken] at start
            exact start.append
          have hlt : rest.length < cs.length :=
            Nat.lt_of_lt_of_le (CallPattern.length_lt_of_matchAt hcall) hle
          have inOrder : pos + skipped ≤ pos + skipped + width taken := Nat.le_add_right _ _
          simp only [Option.map_some, spanBetween, dif_pos inOrder, pure_bind,
            onward_eq (ahead.gets_on behind hlt), ih rest.length (hlen ▸ hlt) behind rfl]
          rfl

theorem spans_eq (p : CallPattern) (text : String) : spans p text = pure (p.spans text) :=
  spansFrom_eq p (ahead_zero text)

end Bytewise

end CallSweep
