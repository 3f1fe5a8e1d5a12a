/-
  The search for calls, done on bytes.

  `CallPattern.spans` reads characters and hands on what is left of them.  Here the search is done
  as a machine does it that keeps one text and byte offsets in it.  It looks at single bytes and
  steps over single bytes, inside of characters too; and where it needs characters it takes a piece
  of the text between two offsets.

  1. **What can go wrong** — `Fault`.  A piece may be asked for whose ends are not boundaries of the
     text; a number may be taken from a smaller one; and a loop may not get on.  Every loop is asked
     at every step whether it does (`onward`), as one that does not would go on without end.

  2. **The machine** — `readLiteral`, `readGroup`, `readCall`, `callAt`, `spans`.  Each of them is
     told a byte offset and answers with one.

  3. **Where characters begin** — `Ahead text pos cs` says that the byte `pos` is a boundary and
     that the characters `cs` are ahead of it.  There every piece can be taken.  Inside of a
     character a loop passes over each byte, as none of them is that of a parenthesis, a quote or a
     backslash (`eq_of_mem_utf8EncodeChar`); so it gets to the boundary behind it (`pass_char`).
-/
import CallSweep.Proofs.Call.Pieces

namespace CallSweep

open Text (isScriptSpace isLineTerminator width width_nil width_cons width_append width_toList
  splitAtByte splitAtByte_width encode encode_eq_flatMap)

/-! ## Characters of one byte -/

theorem utf8EncodeChar_of_ascii {c : Char} (ascii : c.toNat < 128) :
    String.utf8EncodeChar c = [c.toUInt8] := by
  have hle : c.val.toNat ≤ 127 := Nat.le_of_lt_succ ascii
  simp only [String.utf8EncodeChar, if_pos hle]
  rfl

theorem le_of_mem_utf8EncodeChar {c : Char} {b : UInt8} (wide : ¬c.toNat < 128)
    (h : b ∈ String.utf8EncodeChar c) : 128 ≤ b.toNat := by
  have hlt : ¬c.val.toNat ≤ 127 := fun hle => wide (Nat.lt_succ_of_le hle)
  unfold String.utf8EncodeChar at h
  simp only [if_neg hlt] at h
  split at h
  · simp only [List.mem_cons, List.not_mem_nil, or_false] at h
    rcases h with rfl | rfl <;> simp <;> omega
  split at h
  · simp only [List.mem_cons, List.not_mem_nil, or_false] at h
    rcases h with rfl | rfl | rfl <;> simp <;> omega
  · simp only [List.mem_cons, List.not_mem_nil, or_false] at h
    rcases h with rfl | rfl | rfl | rfl <;> simp <;> omega

/-- The byte of a character of one byte occurs in no other character. -/
theorem eq_of_mem_utf8EncodeChar {c d : Char} (ascii : d.toNat < 128)
    (h : d.toUInt8 ∈ String.utf8EncodeChar c) : c = d := by
  have byte_of : ∀ {e : Char}, e.toNat < 128 → e.toUInt8.toNat = e.toNat :=
    fun he => Nat.mod_eq_of_lt (Nat.lt_trans he (by decide))
  by_cases hc : c.toNat < 128
  · rw [utf8EncodeChar_of_ascii hc, List.mem_singleton] at h
    rw [← Char.toNat_inj, ← byte_of hc, ← byte_of ascii, h]
  · have := le_of_mem_utf8EncodeChar hc h
    rw [byte_of ascii] at this
    omega

/-! ## What can go wrong -/

/-- What stops a run over bytes: a piece of the text was asked for between two offsets that are not
    boundaries in order, a number was to be taken from a smaller one, or a loop was to go on from
    an offset to one that is not behind it, or from outside of the text. -/
inductive Fault where
  | piece (start stop : Nat)
  | negative (minuend subtrahend : Nat)
  | stuck (pos next : Nat)

/-- A run over bytes: it stops with a fault, or it has an answer. -/
abbrev Checked := Except Fault

namespace Bytewise

/-- Whether a byte offset lies between two characters of a text or at one of its ends. -/
def isBoundary (text : String) (pos : Nat) : Bool := String.Pos.Raw.isValid text ⟨pos⟩

/-- The byte at an offset, if the text has that many. -/
def byte? (text : String) (pos : Nat) : Option UInt8 := (encode text)[pos]?

/-- The text from an offset on. -/
def textFrom (text : String) (start : Nat) : Checked (List Char) :=
  if isBoundary text start then pure (splitAtByte start text.toList).2
  else throw (.piece start text.utf8ByteSize)

/-- The text between two offsets. -/
def textBetween (text : String) (start stop : Nat) : Checked (List Char) :=
  if start ≤ stop ∧ isBoundary text start ∧ isBoundary text stop then
    pure (splitAtByte (stop - start) (splitAtByte start text.toList).2).1
  else throw (.piece start stop)

/-- The span between two offsets. -/
def spanBetween (start stop : Nat) : Checked Span :=
  if h : start ≤ stop then pure ⟨start, stop, h⟩ else throw (.piece start stop)

/-- Where a loop goes on that is at the offset `pos`: further on, so that it ends with the text. -/
def onward (text : String) (pos next : Nat) :
    Checked { n : Nat // pos < n ∧ pos ≤ text.utf8ByteSize } :=
  if h : pos < next ∧ pos ≤ text.utf8ByteSize then pure ⟨next, h⟩ else throw (.stuck pos next)

theorem onward_eq {text : String} {pos next : Nat}
    (h : pos < next ∧ pos ≤ text.utf8ByteSize) : onward text pos next = pure ⟨next, h⟩ := dif_pos h

/-- A byte is in the text. -/
theorem le_of_byte? {text : String} {pos : Nat} {b : UInt8} (h : byte? text pos = some b) :
    pos ≤ text.utf8ByteSize := by
  obtain ⟨hlt, -⟩ := List.getElem?_eq_some_iff.1 h
  rw [Text.length_encode] at hlt
  exact Nat.le_of_lt hlt

/-! ## The machine -/

/-- Reads to the byte `quote` that closes a literal, and answers with the offset behind it.  Only
    behind a backslash are characters looked at. -/
def readLiteral (text : String) (quote : UInt8) (pos : Nat) : Checked (Option Nat) := do
  match byte? text pos with
  | none => pure none
  | some b =>
    if b = quote then pure (some (pos + 1))
    else if b = '\\'.toUInt8 then
      match ← textFrom text (pos + 1) with
      | [] => pure none
      | escaped :: _ =>
        if isLineTerminator escaped then pure none
        else
          let next ← onward text pos (pos + 1 + escaped.utf8Size)
          readLiteral text quote next
    else
      let next ← onward text pos (pos + 1)
      readLiteral text quote next
termination_by text.utf8ByteSize + 1 - pos
decreasing_by all_goals omega

/-- Whether a byte is one of the quotes. -/
def isQuoteByte (b : UInt8) : Bool := b == '"'.toUInt8 || b == '\''.toUInt8 || b == '\x60'.toUInt8

/-- Reads to the parenthesis that closes a group in which groups may nest `depth` deep, and answers
    with the offset behind it. -/
def readGroup (text : String) (depth pos : Nat) : Checked (Option Nat) := do
  match byte? text pos with
  | none => pure none
  | some b =>
    if b = ')'.toUInt8 then pure (some (pos + 1))
    else if b = '('.toUInt8 then
      match depth with
      | 0 => pure none
      | inner + 1 =>
        let inside ← onward text pos (pos + 1)
        match ← readGroup text inner inside with
        | none => pure none
        | some closed =>
          let next ← onward text pos closed
          readGroup text (inner + 1) next
    else if isQuoteByte b then
      match ← readLiteral text b (pos + 1) with
      | none => pure none
      | some closed =>
        let next ← onward text pos closed
        readGroup text depth next
    else
      let next ← onward text pos (pos + 1)
      readGroup text depth next
termination_by text.utf8ByteSize + 1 - pos
decreasing_by all_goals omega

/-- The offset behind the spaces at an offset. -/
def passSpaces (text : String) (pos : Nat) : Checked Nat := do
  let rest ← textFrom text pos
  pure (skipSpace pos rest).1

/-- The end of the call whose callee ends at an offset. -/
def readCall (text : String) (depth pos : Nat) : Checked (Option Nat) := do
  let opening ← passSpaces text pos
  if byte? text opening = some '('.toUInt8 then
    match ← readGroup text depth (opening + 1) with
    | none => pure none
    | some closed =>
      if byte? text closed = some ';'.toUInt8 then pure (some (closed + 1)) else pure (some closed)
  else pure none

/-- The end of the call that begins at an offset. -/
def callAt (p : CallPattern) (text : String) (start : Nat) : Checked (Option Nat) := do
  let rest ← textFrom text start
  (p.names.filter (·.isPrefixOf rest)).findSomeM? fun name =>
    readCall text p.depth (start + width name)

/-- The leftmost offset, from `pos` on, where a callee is spelled out.  There is none if `pos` is no
    boundary. -/
def nextCandidate (p : CallPattern) (text : String) (pos : Nat) : Option Nat :=
  if isBoundary text pos then
    (p.nextCandidate (splitAtByte pos text.toList).2).map fun place => pos + place.1
  else none

/-- The spans of the calls from an offset on. -/
def spansFrom (p : CallPattern) (text : String) (pos : Nat) : Checked (List Span) := do
  match nextCandidate p text pos with
  | none => pure []
  | some start =>
    match ← callAt p text start with
    | some stop =>
      let span ← spanBetween start stop
      let next ← onward text pos stop
      let later ← spansFrom p text next
      pure (span :: later)
    | none =>
      let rest ← textFrom text start
      let next ← onward text pos (start + rest.head?.elim 1 Char.utf8Size)
      spansFrom p text next
termination_by text.utf8ByteSize + 1 - pos
decreasing_by all_goals omega

/-- The spans of the calls in a text. -/
def spans (p : CallPattern) (text : String) : Checked (List Span) := spansFrom p text 0

/-! ## Where characters begin -/

/-- Whether the characters `cs` are what a text has from the byte `pos` on. -/
def Ahead (text : String) (pos : Nat) (cs : List Char) : Prop :=
  ∃ before, text.toList = before ++ cs ∧ width before = pos

theorem ahead_zero (text : String) : Ahead text 0 text.toList := ⟨[], rfl, rfl⟩

theorem ahead_of_append {text : String} {before after : String} (h : text = before ++ after) :
    Ahead text before.utf8ByteSize after.toList :=
  ⟨before.toList, by rw [h, String.toList_append], width_toList before⟩

namespace Ahead

variable {text : String} {pos : Nat} {c : Char} {cs as bs : List Char}

theorem append (h : Ahead text pos (as ++ bs)) : Ahead text (pos + width as) bs := by
  obtain ⟨before, htext, rfl⟩ := h
  exact ⟨before ++ as, by rw [htext, List.append_assoc], width_append before as⟩

theorem step (h : Ahead text pos (c :: cs)) : Ahead text (pos + c.utf8Size) cs := by
  obtain ⟨before, htext, rfl⟩ := h
  exact ⟨before ++ [c], by rw [htext, List.append_assoc, List.singleton_append], by simp⟩

theorem isBoundary (h : Ahead text pos cs) : isBoundary text pos = true := by
  obtain ⟨before, htext, rfl⟩ := h
  rw [Bytewise.isBoundary, String.Pos.Raw.isValid_eq_true_iff,
    String.Pos.Raw.isValid_iff_exists_append]
  refine ⟨String.ofList before, String.ofList cs, ?_, ?_⟩
  · rw [← String.ofList_append, ← htext, String.ofList_toList]
  · rw [← String.toList_ofList (l := before), width_toList, String.toList_ofList]
    rfl

theorem le (h : Ahead text pos cs) : pos ≤ text.utf8ByteSize := by
  obtain ⟨before, htext, rfl⟩ := h
  rw [← width_toList, htext, width_append]
  exact Nat.le_add_right _ _

/-- Where fewer characters are ahead, one is further on in the text. -/
theorem gets_on {next : Nat} (h : Ahead text pos cs) (h' : Ahead text next bs)
    (hlt : bs.length < cs.length) : pos < next ∧ pos ≤ text.utf8ByteSize := by
  refine ⟨?_, h.le⟩
  obtain ⟨before, htext, rfl⟩ := h
  obtain ⟨before', htext', rfl⟩ := h'
  rw [htext] at htext'
  rcases List.append_eq_append_iff.1 htext' with ⟨mid, rfl, rfl⟩ | ⟨mid, -, rfl⟩
  · cases mid with
    | nil => exact absurd hlt (Nat.lt_irrefl _)
    | cons c mid =>
      have hpos := c.utf8Size_pos
      rw [width_append, width_cons]
      omega
  · rw [List.length_append] at hlt
    omega

theorem splitAtByte_eq (h : Ahead text pos cs) : (splitAtByte pos text.toList).2 = cs := by
  obtain ⟨before, htext, rfl⟩ := h
  rw [htext, splitAtByte_width]

theorem textFrom (h : Ahead text pos cs) : textFrom text pos = pure cs := by
  rw [Bytewise.textFrom, if_pos h.isBoundary, h.splitAtByte_eq]

theorem textBetween (h : Ahead text pos (as ++ bs)) :
    textBetween text pos (pos + width as) = pure as := by
  have inOrder : pos ≤ pos + width as := Nat.le_add_right pos (width as)
  rw [Bytewise.textBetween, if_pos ⟨inOrder, h.isBoundary, h.append.isBoundary⟩, h.splitAtByte_eq,
    Nat.add_sub_cancel_left, splitAtByte_width]

/-- The bytes ahead are those of the characters ahead. -/
theorem byte?_add (h : Ahead text pos cs) (i : Nat) : byte? text (pos + i) = (bytesOf cs)[i]? := by
  obtain ⟨before, htext, rfl⟩ := h
  have hbytes : encode text = bytesOf before ++ bytesOf cs := by
    rw [encode_eq_flatMap, htext, ← bytesOf_append]
    rfl
  rw [byte?, hbytes, ← length_bytesOf, List.getElem?_append_right (Nat.le_add_right _ i),
    Nat.add_sub_cancel_left]

theorem byte?_nil (h : Ahead text pos []) : byte? text pos = none := h.byte?_add 0

/-- A character of one byte is ahead as that byte. -/
theorem byte?_cons (h : Ahead text pos (c :: cs)) (ascii : c.toNat < 128) :
    byte? text pos = some c.toUInt8 := by
  rw [← Nat.add_zero pos, h.byte?_add 0, bytesOf, List.flatMap_cons, utf8EncodeChar_of_ascii ascii]
  rfl

/-- The bytes of the character that is ahead. -/
theorem exists_byte? (h : Ahead text pos (c :: cs)) {i : Nat} (hi : i < c.utf8Size) :
    ∃ b ∈ String.utf8EncodeChar c, byte? text (pos + i) = some b := by
  rw [← String.length_utf8EncodeChar] at hi
  refine ⟨(String.utf8EncodeChar c)[i], List.getElem_mem hi, ?_⟩
  rw [h.byte?_add i, bytesOf, List.flatMap_cons, List.getElem?_append_left hi,
    List.getElem?_eq_getElem hi]

theorem byte?_eq_some_iff (h : Ahead text pos cs) {d : Char} (ascii : d.toNat < 128) :
    byte? text pos = some d.toUInt8 ↔ cs.head? = some d := by
  cases cs with
  | nil => simp [h.byte?_nil]
  | cons c cs =>
    obtain ⟨b, hb, hbyte⟩ := h.exists_byte? c.utf8Size_pos
    rw [List.head?_cons, Option.some.injEq]
    constructor
    · intro hd
      rw [Nat.add_zero, hd, Option.some.injEq] at hbyte
      subst hbyte
      exact eq_of_mem_utf8EncodeChar ascii hb
    · rintro rfl
      exact h.byte?_cons ascii

/-- **A loop gets behind a character** whose bytes it passes over one by one. -/
theorem pass_char {α : Type} (loop : Nat → α) (passes : UInt8 → Prop)
    (step : ∀ pos b, byte? text pos = some b → passes b → loop pos = loop (pos + 1))
    (h : Ahead text pos (c :: cs)) (hc : ∀ b ∈ String.utf8EncodeChar c, passes b) :
    loop pos = loop (pos + c.utf8Size) := by
  have steps : ∀ i, i ≤ c.utf8Size → loop pos = loop (pos + i) := by
    intro i
    induction i with
    | zero =>
      intro _
      rfl
    | succ i ih =>
      intro hi
      obtain ⟨b, hb, hbyte⟩ := h.exists_byte? (Nat.lt_of_succ_le hi)
      rw [ih (Nat.le_of_succ_le hi), step _ b hbyte (hc b hb), Nat.add_assoc]
  exact steps c.utf8Size (Nat.le_refl _)

end Ahead

end Bytewise

end CallSweep
