/-
  The grammar of calls, and the proof that the scanner accepts exactly what it derives.

  The grammar is stated over characters and says nothing of offsets, modes or open groups:

  * `Literal q`  — what may stand between two quotes `q`;
  * `Body n`     — an argument list in which groups nest at most `n` deep, as a derivation tree;
  * `Call n name text` — a way to read the head of `text` as a call of `name`.

  1. **Reading a tree.**  `closeArguments_body` says that the scanner passes over the characters of
     any `Body` that still fits into its depth, and comes out with the same groups open.
  2. **Finding a tree.**  `exists_body_of_closeArguments` is the converse: whatever the scanner
     closes was a `Body`.  The induction is on the length of the text; a group splits off two
     shorter texts, its inside and what follows it.
  3. **One tree only.**  `Body.chars_append_inj`: a text has at most one `Body` at its head that a
     closing parenthesis follows, so a call has one derivation and one end.

  `callAt?_eq_some_iff` puts these together for a pattern with several callees.
-/
import Mathlib.Data.List.Basic
import CallSweep.Call.Pattern

namespace CallSweep

open Text (isScriptSpace isLineTerminator width width_cons width_append width_toList splitAtByte
  splitAtByte_width exists_append_of_width_le)

/-! ## Derivation trees -/

/-- The characters that stand for themselves in an argument list. -/
def isPlain (c : Char) : Bool := c != '(' && c != ')' && !isQuote c

/-- What may stand between two quotes: any character but that quote and the backslash, or a
    backslash with one more character, which is no line terminator. -/
inductive Literal (quote : Char) : Type where
  | nil
  | plain (c : Char) (ne_quote : c ≠ quote) (ne_backslash : c ≠ '\\') (rest : Literal quote)
  | escape (c : Char) (inLine : isLineTerminator c = false) (rest : Literal quote)

/-- An argument list with at most `n` levels of groups. -/
inductive Body : Nat → Type where
  | nil {n : Nat} : Body n
  | plain {n : Nat} (c : Char) (isPlain : isPlain c = true) (rest : Body n) : Body n
  | literal {n : Nat} (quote : Char) (isQuote : isQuote quote = true) (inside : Literal quote)
      (rest : Body n) : Body n
  | group {n : Nat} (inner : Body n) (rest : Body (n + 1)) : Body (n + 1)

/-- The characters of a literal's inside. -/
def Literal.chars {quote : Char} : Literal quote → List Char
  | .nil => []
  | .plain c _ _ rest => c :: rest.chars
  | .escape c _ rest => '\\' :: c :: rest.chars

/-- The characters of an argument list, without the parentheses around it. -/
def Body.chars {n : Nat} : Body n → List Char
  | .nil => []
  | .plain c _ rest => c :: rest.chars
  | .literal quote _ inside rest => quote :: inside.chars ++ quote :: rest.chars
  | .group inner rest => '(' :: inner.chars ++ ')' :: rest.chars

/-- A call as it is written. -/
def callChars (name spaces body : List Char) (semicolon : Bool) : List Char :=
  name ++ spaces ++ '(' :: body ++ ')' :: if semicolon then [';'] else []

/-- A call of `name` at the head of a text: `name`, spaces, an argument list in parentheses, and
    the semicolon if one follows directly. -/
structure Call (n : Nat) (name text : List Char) where
  spaces : List Char
  body : Body n
  semicolon : Bool
  rest : List Char
  text_eq : text = callChars name spaces body.chars semicolon ++ rest
  spaces_all : ∀ c ∈ spaces, isScriptSpace c = true
  semicolon_taken : semicolon = false → rest.head? ≠ some ';'

namespace Call

variable {n : Nat} {name text : List Char}

/-- The characters of a call. -/
def chars (c : Call n name text) : List Char :=
  callChars name c.spaces c.body.chars c.semicolon

/-- The bytes of a call. -/
def width (c : Call n name text) : Nat := Text.width c.chars

end Call

/-! ## Single characters -/

theorem isPlain_iff {c : Char} :
    isPlain c = true ↔ c ≠ '(' ∧ c ≠ ')' ∧ isQuote c = false := by
  simp [isPlain, and_assoc]

theorem isQuote_iff {c : Char} : isQuote c = true ↔ c = '"' ∨ c = '\'' ∨ c = '\x60' := by
  simp [isQuote, or_assoc]

theorem isQuote_ne_paren {c : Char} (h : isQuote c = true) : c ≠ '(' ∧ c ≠ ')' := by
  rcases isQuote_iff.1 h with rfl | rfl | rfl <;> decide

theorem isQuote_ne_backslash {c : Char} (h : isQuote c = true) : c ≠ '\\' := by
  rcases isQuote_iff.1 h with rfl | rfl | rfl <;> decide

theorem utf8Size_of_isQuote {c : Char} (h : isQuote c = true) : c.utf8Size = 1 := by
  rcases isQuote_iff.1 h with rfl | rfl | rfl <;> rfl

theorem utf8Size_backslash : '\\'.utf8Size = 1 := rfl

theorem utf8Size_openParen : '('.utf8Size = 1 := rfl

theorem utf8Size_closeParen : ')'.utf8Size = 1 := rfl

theorem utf8Size_semicolon : ';'.utf8Size = 1 := rfl

/-! ## The scanner reads derivation trees -/

/-- In a literal the scanner comes to the quote behind its inside. -/
theorem closeArguments_literal {depth opened : Nat} {quote : Char} (hq : isQuote quote = true)
    (l : Literal quote) (used : Nat) (cs : List Char) :
    closeArguments depth opened (.literal quote) used (l.chars ++ quote :: cs) =
      closeArguments depth opened .code (used + width l.chars + 1) cs := by
  induction l generalizing used with
  | nil => simp [Literal.chars, closeArguments, utf8Size_of_isQuote hq]
  | plain c ne_quote ne_backslash rest ih =>
    show closeArguments depth opened (.literal quote) used (c :: (rest.chars ++ quote :: cs)) = _
    rw [closeArguments, if_neg ne_quote, if_neg ne_backslash, ih]
    congr 1
    simp only [Literal.chars, width_cons]
    omega
  | escape c inLine rest ih =>
    show closeArguments depth opened (.literal quote) used
      ('\\' :: c :: (rest.chars ++ quote :: cs)) = _
    rw [closeArguments, if_neg (isQuote_ne_backslash hq).symm, if_pos rfl, closeArguments,
      if_neg (by simp [inLine]), ih]
    congr 1
    simp only [Literal.chars, width_cons, utf8Size_backslash]
    omega

/-- In an argument list the scanner comes to the end of any `Body` that fits under the groups that
    are open, with the same groups open. -/
theorem closeArguments_body {depth n : Nat} (b : Body n) (opened used : Nat) (cs : List Char)
    (fits : opened + n ≤ depth) :
    closeArguments depth opened .code used (b.chars ++ cs) =
      closeArguments depth opened .code (used + width b.chars) cs := by
  induction b generalizing opened used cs with
  | nil => simp [Body.chars]
  | plain c isPlain rest ih =>
    obtain ⟨hopen, hclose, hquote⟩ := isPlain_iff.1 isPlain
    show closeArguments depth opened .code used (c :: (rest.chars ++ cs)) = _
    rw [closeArguments, if_neg hclose, if_neg hopen, if_neg (by simp [hquote]), ih _ _ _ fits]
    congr 1
    simp only [Body.chars, width_cons]
    omega
  | literal quote isQuote inside rest ih =>
    obtain ⟨hopen, hclose⟩ := isQuote_ne_paren isQuote
    have htext : (Body.literal quote isQuote inside rest).chars ++ cs =
        quote :: (inside.chars ++ quote :: (rest.chars ++ cs)) := by
      simp [Body.chars]
    rw [htext, closeArguments, if_neg hclose, if_neg hopen, if_pos isQuote,
      closeArguments_literal isQuote, ih _ _ _ fits]
    congr 1
    simp only [Body.chars, List.cons_append, width_cons, width_append,
      utf8Size_of_isQuote isQuote]
    omega
  | @group n inner rest ihInner ihRest =>
    have htext : (Body.group inner rest).chars ++ cs =
        '(' :: (inner.chars ++ ')' :: (rest.chars ++ cs)) := by
      simp [Body.chars]
    rw [htext, closeArguments, if_neg (by decide), if_pos rfl, if_pos (by omega),
      ihInner (opened + 1) _ _ (by omega), closeArguments, if_pos rfl, if_neg (by omega),
      Nat.add_sub_cancel, ihRest opened _ _ fits]
    congr 1
    simp only [Body.chars, List.cons_append, width_cons, width_append, utf8Size_openParen,
      utf8Size_closeParen]
    omega

/-! ## What the scanner reads is a derivation tree -/

/-- What the scanner passes over in a literal, up to the quote that closes it. -/
theorem exists_literal_of_closeArguments {depth opened : Nat} {quote : Char} {cs : List Char}
    {found : Nat × List Char} :
    ∀ {used : Nat}, closeArguments depth opened (.literal quote) used cs = some found →
      ∃ (l : Literal quote) (after : List Char) (used' : Nat), cs = l.chars ++ quote :: after ∧
        closeArguments depth opened .code used' after = some found := by
  -- An escape takes two characters, so the induction is on the length.
  induction hn : cs.length using Nat.strongRecOn generalizing cs with
  | ind n ih =>
    intro used h
    cases cs with
    | nil => simp [closeArguments] at h
    | cons c cs =>
      rw [closeArguments] at h
      by_cases hquote : c = quote
      · rw [if_pos hquote] at h
        exact ⟨.nil, cs, _, by simp [Literal.chars, hquote], h⟩
      rw [if_neg hquote] at h
      by_cases hback : c = '\\'
      · rw [if_pos hback] at h
        cases cs with
        | nil => simp [closeArguments] at h
        | cons e cs =>
          rw [closeArguments] at h
          by_cases hline : isLineTerminator e = true
          · rw [if_pos hline] at h
            simp at h
          rw [if_neg hline] at h
          obtain ⟨l, after, used', heq, hrest⟩ := ih cs.length (by simp at hn; omega) rfl h
          exact ⟨.escape e (by simpa using hline) l, after, used',
            by simp [Literal.chars, hback, heq], hrest⟩
      · rw [if_neg hback] at h
        obtain ⟨l, after, used', heq, hrest⟩ := ih cs.length (by simp at hn; omega) rfl h
        exact ⟨.plain c hquote hback l, after, used', by simp [Literal.chars, heq], hrest⟩

/-- What the scanner passes over in an argument list, up to the parenthesis that closes it: the
    answer if no group was open, and otherwise the rest of the same scan with one group less. -/
theorem exists_body_of_closeArguments {depth : Nat} {cs : List Char} {found : Nat × List Char} :
    ∀ {opened n used : Nat}, opened + n = depth →
      closeArguments depth opened .code used cs = some found →
      ∃ (b : Body n) (after : List Char) (used' : Nat), cs = b.chars ++ ')' :: after ∧
        match opened with
        | 0 => found.2 = after
        | outer + 1 => closeArguments depth outer .code used' after = some found := by
  induction hlen : cs.length using Nat.strongRecOn generalizing cs with
  | ind len ih =>
    intro opened n used hdepth h
    cases cs with
    | nil => simp [closeArguments] at h
    | cons c cs =>
      have hlt : cs.length < len := by simp at hlen; omega
      rw [closeArguments] at h
      by_cases hclose : c = ')'
      · -- the closing parenthesis: the empty body, and the outer scan goes on
        rw [if_pos hclose] at h
        cases opened with
        | zero =>
          rw [if_pos rfl, Option.some.injEq] at h
          exact ⟨.nil, cs, 0, by simp [Body.chars, hclose], by simp [← h]⟩
        | succ outer =>
          rw [if_neg (by omega), Nat.add_sub_cancel] at h
          exact ⟨.nil, cs, _, by simp [Body.chars, hclose], h⟩
      rw [if_neg hclose] at h
      by_cases hopen : c = '('
      · -- a group: its inside, and then the rest of this body
        rw [if_pos hopen] at h
        by_cases hfit : opened < depth
        · rw [if_pos hfit] at h
          obtain ⟨m, rfl⟩ : ∃ m, n = m + 1 := ⟨n - 1, by omega⟩
          have hinside : opened + 1 + m = depth := by omega
          obtain ⟨inner, mid, used₁, hinner, hmid⟩ := ih cs.length hlt rfl hinside h
          have hmidlt : mid.length < len := by
            have := congrArg List.length hinner
            simp at this
            omega
          obtain ⟨rest, after, used₂, hrest, hafter⟩ :=
            ih mid.length hmidlt rfl hdepth hmid
          exact ⟨.group inner rest, after, used₂, by simp [Body.chars, hopen, hinner, hrest],
            hafter⟩
        · rw [if_neg hfit] at h
          simp at h
      rw [if_neg hopen] at h
      by_cases hquote : isQuote c = true
      · -- a literal, and then the rest of this body
        rw [if_pos hquote] at h
        obtain ⟨l, mid, used₁, hlit, hmid⟩ := exists_literal_of_closeArguments h
        have hmidlt : mid.length < len := by
          have := congrArg List.length hlit
          simp at this
          omega
        obtain ⟨rest, after, used₂, hrest, hafter⟩ := ih mid.length hmidlt rfl hdepth hmid
        exact ⟨.literal c hquote l rest, after, used₂, by simp [Body.chars, hlit, hrest], hafter⟩
      · rw [if_neg hquote] at h
        obtain ⟨rest, after, used₂, hrest, hafter⟩ := ih cs.length hlt rfl hdepth h
        exact ⟨.plain c (isPlain_iff.2 ⟨hopen, hclose, by simpa using hquote⟩) rest, after, used₂,
          by simp [Body.chars, hrest], hafter⟩

/-- The scanner closes an argument list exactly behind a `Body` of the depth allowed. -/
theorem closeArguments_eq_some_iff {depth used stop : Nat} {cs rest : List Char} :
    closeArguments depth 0 .code used cs = some (stop, rest) ↔
      ∃ b : Body depth, cs = b.chars ++ ')' :: rest ∧ stop = used + width b.chars + 1 := by
  have reads : ∀ (b : Body depth) (rest : List Char),
      closeArguments depth 0 .code used (b.chars ++ ')' :: rest) =
        some (used + width b.chars + 1, rest) := by
    intro b rest
    rw [closeArguments_body b 0 used _ (by omega), closeArguments, if_pos rfl, if_pos rfl]
  constructor
  · intro h
    obtain ⟨b, after, -, rfl, hafter⟩ :=
      exists_body_of_closeArguments (Nat.zero_add depth) h
    rw [reads, Option.some.injEq, Prod.mk.injEq] at h
    exact ⟨b, by rw [h.2], h.1.symm⟩
  · rintro ⟨b, rfl, rfl⟩
    exact reads b rest

/-! ## A text has one derivation -/

theorem Literal.chars_append_inj {quote : Char} (hq : isQuote quote = true)
    (a b : Literal quote) {r s : List Char}
    (h : a.chars ++ quote :: r = b.chars ++ quote :: s) : a = b ∧ r = s := by
  have hback := isQuote_ne_backslash hq
  induction a generalizing b with
  | nil =>
    cases b with
    | nil => simpa [Literal.chars] using h
    | plain c ne_quote => simp [Literal.chars, ne_quote.symm] at h
    | escape c => simp [Literal.chars, hback] at h
  | plain c ne_quote ne_backslash rest ih =>
    cases b with
    | nil => simp [Literal.chars, ne_quote] at h
    | plain c' _ _ rest' =>
      simp only [Literal.chars, List.cons_append, List.cons.injEq] at h
      obtain ⟨rfl, h⟩ := h
      obtain ⟨rfl, hr⟩ := ih rest' h
      exact ⟨rfl, hr⟩
    | escape c' => simp [Literal.chars, ne_backslash] at h
  | escape c inLine rest ih =>
    cases b with
    | nil => simp [Literal.chars, hback.symm] at h
    | plain c' _ ne_backslash => simp [Literal.chars, ne_backslash.symm] at h
    | escape c' _ rest' =>
      simp only [Literal.chars, List.cons_append, List.cons.injEq, true_and] at h
      obtain ⟨rfl, h⟩ := h
      obtain ⟨rfl, hr⟩ := ih rest' h
      exact ⟨rfl, hr⟩

/-- Two argument lists at the head of one text, each with its closing parenthesis, are the same
    tree: their first characters tell which constructor they begin with. -/
theorem Body.chars_append_inj {n : Nat} (a b : Body n) {r s : List Char}
    (h : a.chars ++ ')' :: r = b.chars ++ ')' :: s) : a = b ∧ r = s := by
  induction a generalizing r s with
  | nil =>
    cases b with
    | nil => simpa [Body.chars] using h
    | plain c isPlain => simp [Body.chars, (isPlain_iff.1 isPlain).2.1.symm] at h
    | literal quote isQuote => simp [Body.chars, (isQuote_ne_paren isQuote).2.symm] at h
    | group inner rest => simp [Body.chars] at h
  | plain c isPlain rest ih =>
    obtain ⟨hopen, hclose, hquote⟩ := isPlain_iff.1 isPlain
    cases b with
    | nil => simp [Body.chars, hclose] at h
    | plain c' _ rest' =>
      simp only [Body.chars, List.cons_append, List.cons.injEq] at h
      obtain ⟨rfl, h⟩ := h
      obtain ⟨rfl, hr⟩ := ih rest' h
      exact ⟨rfl, hr⟩
    | literal quote isQuote =>
      simp only [Body.chars, List.cons_append, List.cons.injEq] at h
      rw [h.1, isQuote] at hquote
      exact absurd hquote (by decide)
    | group inner rest' => simp [Body.chars, hopen] at h
  | literal quote isQuote inside rest ih =>
    obtain ⟨hopen, hclose⟩ := isQuote_ne_paren isQuote
    cases b with
    | nil => simp [Body.chars, hclose] at h
    | plain c isPlain =>
      simp only [Body.chars, List.cons_append, List.cons.injEq] at h
      have hquote := (isPlain_iff.1 isPlain).2.2
      rw [← h.1, isQuote] at hquote
      exact absurd hquote (by decide)
    | literal quote' _ inside' rest' =>
      simp only [Body.chars, List.cons_append, List.append_assoc, List.cons.injEq] at h
      obtain ⟨rfl, h⟩ := h
      obtain ⟨rfl, hrest⟩ := Literal.chars_append_inj isQuote inside inside' h
      obtain ⟨rfl, hr⟩ := ih rest' hrest
      exact ⟨rfl, hr⟩
    | group inner rest' => simp [Body.chars, hopen] at h
  | group inner rest ihInner ihRest =>
    cases b with
    | nil => simp [Body.chars] at h
    | plain c isPlain => simp [Body.chars, (isPlain_iff.1 isPlain).1.symm] at h
    | literal quote isQuote => simp [Body.chars, (isQuote_ne_paren isQuote).1.symm] at h
    | group inner' rest' =>
      simp only [Body.chars, List.cons_append, List.append_assoc, List.cons.injEq, true_and] at h
      obtain ⟨rfl, hrest⟩ := ihInner inner' h
      obtain ⟨rfl, hr⟩ := ihRest rest' hrest
      exact ⟨rfl, hr⟩

/-- Spaces in front of an opening parenthesis end where the parenthesis stands. -/
theorem spaces_append_inj {xs ys r s : List Char} (hx : ∀ c ∈ xs, isScriptSpace c = true)
    (hy : ∀ c ∈ ys, isScriptSpace c = true) (h : xs ++ '(' :: r = ys ++ '(' :: s) :
    xs = ys ∧ r = s := by
  have notSpace : isScriptSpace '(' = false := by decide
  induction xs generalizing ys with
  | nil =>
    cases ys with
    | nil => simpa using h
    | cons y ys =>
      simp only [List.nil_append, List.cons_append, List.cons.injEq] at h
      rw [h.1, hy y List.mem_cons_self] at notSpace
      exact absurd notSpace (by decide)
  | cons x xs ih =>
    cases ys with
    | nil =>
      simp only [List.nil_append, List.cons_append, List.cons.injEq] at h
      rw [← h.1, hx x List.mem_cons_self] at notSpace
      exact absurd notSpace (by decide)
    | cons y ys =>
      simp only [List.cons_append, List.cons.injEq] at h
      obtain ⟨rfl, h⟩ := h
      obtain ⟨rfl, hr⟩ := ih (fun c hc => hx c (List.mem_cons_of_mem _ hc))
        (fun c hc => hy c (List.mem_cons_of_mem _ hc)) h
      exact ⟨rfl, hr⟩

/-- A text has at most one reading as a call of a given name. -/
theorem Call.eq_of_same_text {n : Nat} {name text : List Char} (a b : Call n name text) :
    a = b := by
  obtain ⟨spaces, body, semicolon, rest, ha, hspaces, htaken⟩ := a
  obtain ⟨spaces', body', semicolon', rest', hb, hspaces', htaken'⟩ := b
  rw [ha] at hb
  simp only [callChars, List.append_assoc, List.cons_append, List.append_cancel_left_eq] at hb
  obtain ⟨rfl, hargs⟩ := spaces_append_inj hspaces hspaces' hb
  obtain ⟨rfl, htail⟩ := Body.chars_append_inj body body' hargs
  -- the two tails are equal, and a tail tells whether a semicolon was taken
  cases semicolon <;> cases semicolon'
  · obtain rfl : rest = rest' := by simpa using htail
    rfl
  · have : rest = ';' :: rest' := by simpa using htail
    exact absurd (by simp [this]) (htaken rfl)
  · have : ';' :: rest = rest' := by simpa using htail
    exact absurd (by simp [← this]) (htaken' rfl)
  · obtain rfl : rest = rest' := by simpa using htail
    rfl

/-! ## The scanner and the grammar of calls -/

theorem skipSpace_append {used : Nat} {spaces : List Char} (cs : List Char)
    (h : ∀ c ∈ spaces, isScriptSpace c = true) :
    skipSpace used (spaces ++ cs) = skipSpace (used + width spaces) cs := by
  induction spaces generalizing used with
  | nil => simp
  | cons c spaces ih =>
    rw [List.cons_append, skipSpace, if_pos (h c List.mem_cons_self),
      ih fun d hd => h d (List.mem_cons_of_mem _ hd)]
    congr 1
    rw [width_cons]
    omega

/-- What is passed over in front of a text are its spaces. -/
theorem exists_spaces_of_skipSpace {used used' : Nat} {cs rest : List Char}
    (h : skipSpace used cs = (used', rest)) :
    ∃ spaces, (∀ c ∈ spaces, isScriptSpace c = true) ∧ cs = spaces ++ rest := by
  induction cs generalizing used with
  | nil =>
    simp only [skipSpace, Prod.mk.injEq] at h
    exact ⟨[], by simp, by simp [← h.2]⟩
  | cons c cs ih =>
    rw [skipSpace] at h
    by_cases hc : isScriptSpace c = true
    · rw [if_pos hc] at h
      obtain ⟨spaces, hall, heq⟩ := ih h
      refine ⟨c :: spaces, ?_, by rw [heq, List.cons_append]⟩
      intro d hd
      rcases List.mem_cons.1 hd with rfl | hd
      · exact hc
      · exact hall d hd
    · rw [if_neg hc, Prod.mk.injEq] at h
      exact ⟨[], by simp, by simp [h.2]⟩

/-- A semicolon right behind the argument list is taken, and nothing else is. -/
theorem takeSemicolon_eq (used : Nat) (semicolon : Bool) (rest : List Char)
    (h : semicolon = false → rest.head? ≠ some ';') :
    takeSemicolon (used, (if semicolon then [';'] else []) ++ rest) =
      (used + if semicolon then 1 else 0, rest) := by
  cases semicolon with
  | true => rfl
  | false =>
    have hne := h rfl
    show takeSemicolon (used, rest) = (used, rest)
    unfold takeSemicolon
    split
    · next heq =>
      cases heq
      simp at hne
    · rfl

/-- Any text is a semicolon that is taken, or none, and a rest. -/
theorem exists_semicolon (cs : List Char) :
    ∃ (semicolon : Bool) (rest : List Char), cs = (if semicolon then [';'] else []) ++ rest ∧
      (semicolon = false → rest.head? ≠ some ';') := by
  by_cases h : cs.head? = some ';'
  · obtain ⟨rest, rfl⟩ := List.head?_eq_some_iff.1 h
    exact ⟨true, rest, rfl, by simp⟩
  · exact ⟨false, cs, rfl, fun _ => h⟩

namespace Call

variable {n : Nat} {name as : List Char}

/-- A call stays one whatever is put behind the text, which can at most add a semicolon to it. -/
theorem nonempty_append (c : Call n name as) (bs : List Char) :
    Nonempty (Call n name (as ++ bs)) := by
  obtain ⟨spaces, body, semicolon, rest, htext, hall, -⟩ := c
  cases semicolon with
  | true => exact ⟨⟨spaces, body, true, rest ++ bs, by simp [htext], hall, by simp⟩⟩
  | false =>
    obtain ⟨semicolon, rest', htail, hfree⟩ := exists_semicolon (rest ++ bs)
    refine ⟨⟨spaces, body, semicolon, rest', ?_, hall, hfree⟩⟩
    rw [htext, List.append_assoc, htail]
    simp [callChars]

/-- A call that does not reach beyond `as` is a call of `as`. -/
theorem exists_within {bs : List Char} (c : Call n name (as ++ bs))
    (hle : c.width ≤ Text.width as) :
    ∃ c' : Call n name as, c'.width = c.width ∧ c.rest = c'.rest ++ bs := by
  obtain ⟨mid, has, hrest⟩ := exists_append_of_width_le c.text_eq.symm hle
  refine ⟨⟨c.spaces, c.body, c.semicolon, mid, has, c.spaces_all, ?_⟩, rfl, hrest⟩
  intro hsemi hhead
  refine c.semicolon_taken hsemi ?_
  rw [hrest, List.head?_append, hhead, Option.some_or]

end Call

theorem width_callChars (name spaces body : List Char) (semicolon : Bool) :
    width (callChars name spaces body semicolon) =
      width name + width spaces + 1 + width body + 1 + if semicolon then 1 else 0 := by
  simp only [callChars, width_append, width_cons, utf8Size_openParen, utf8Size_closeParen]
  cases semicolon
  · simp
    omega
  · simp [utf8Size_semicolon]
    omega

/-- The call of one name that a pattern finds at the head of a text. -/
def callOf (depth : Nat) (name cs : List Char) : Option (Nat × List Char) :=
  match name.isPrefixOf? cs with
  | some after => callAfter depth (width name) after
  | none => none

/-- A call of a name is found exactly where the grammar has one, with its width and its rest. -/
theorem callOf_eq_some_iff {depth stop : Nat} {name cs rest : List Char} :
    callOf depth name cs = some (stop, rest) ↔
      ∃ c : Call depth name cs, c.width = stop ∧ c.rest = rest := by
  constructor
  · intro h
    unfold callOf at h
    split at h
    case h_2 => simp at h
    case h_1 after hafter =>
      have htext : name ++ after = cs := List.isPrefixOf?_eq_some_iff_append_eq.1 hafter
      unfold callAfter at h
      split at h
      case h_2 => simp at h
      case h_1 used args hspaces =>
        obtain ⟨spaces, hall, rfl⟩ := exists_spaces_of_skipSpace hspaces
        obtain ⟨⟨closed, tail⟩, hclosed, htaken⟩ := Option.map_eq_some_iff.1 h
        obtain ⟨body, rfl, rfl⟩ := closeArguments_eq_some_iff.1 hclosed
        obtain ⟨semicolon, rest', rfl, hfree⟩ := exists_semicolon tail
        rw [takeSemicolon_eq _ _ _ hfree, Prod.mk.injEq] at htaken
        rw [skipSpace_append _ hall, skipSpace, if_neg (by decide), Prod.mk.injEq] at hspaces
        refine ⟨⟨spaces, body, semicolon, rest', ?_, hall, hfree⟩, ?_, htaken.2⟩
        · rw [← htext]
          simp [callChars]
        · rw [← htaken.1, ← hspaces.1]
          exact width_callChars ..
  · rintro ⟨⟨spaces, body, semicolon, rest', htext, hall, hfree⟩, rfl, rfl⟩
    have hprefix : name.isPrefixOf? cs = some (spaces ++ '(' :: (body.chars ++ ')' ::
        ((if semicolon then [';'] else []) ++ rest'))) := by
      rw [List.isPrefixOf?_eq_some_iff_append_eq, htext]
      simp [callChars]
    have hspaces : ∀ args, skipSpace (width name) (spaces ++ '(' :: args) =
        (width name + width spaces, '(' :: args) := by
      intro args
      rw [skipSpace_append _ hall, skipSpace, if_neg (by decide)]
    have hclosed : ∀ tail, closeArguments depth 0 .code (width name + width spaces + 1)
        (body.chars ++ ')' :: tail) =
        some (width name + width spaces + 1 + width body.chars + 1, tail) :=
      fun tail => closeArguments_eq_some_iff.2 ⟨body, rfl, rfl⟩
    simp only [callOf, hprefix, callAfter, hspaces, hclosed, Option.map_some,
      takeSemicolon_eq _ _ _ hfree]
    rw [Call.width, Call.chars, width_callChars]

theorem CallPattern.matchAt_eq (p : CallPattern) (cs : List Char) :
    p.matchAt cs = p.names.findSome? (callOf p.depth · cs) := rfl

namespace CallPattern

/-- A pattern finds a call somewhere among its names exactly where the grammar has one. -/
theorem matchAt_isSome_iff {p : CallPattern} {cs : List Char} :
    (p.matchAt cs).isSome ↔ ∃ name ∈ p.names, Nonempty (Call p.depth name cs) := by
  rw [matchAt_eq, List.findSome?_isSome_iff]
  refine exists_congr fun name => and_congr_right fun _ => ?_
  rw [Option.isSome_iff_exists]
  constructor
  · rintro ⟨⟨stop, rest⟩, h⟩
    obtain ⟨c, -, -⟩ := callOf_eq_some_iff.1 h
    exact ⟨c⟩
  · rintro ⟨c⟩
    exact ⟨_, callOf_eq_some_iff.2 ⟨c, rfl, rfl⟩⟩

/-- The call that is found is one of the first name that has one. -/
theorem matchAt_eq_some_iff {p : CallPattern} {cs rest : List Char} {stop : Nat} :
    p.matchAt cs = some (stop, rest) ↔
      ∃ (k : Nat) (name : List Char), p.names[k]? = some name ∧
        (∃ c : Call p.depth name cs, c.width = stop ∧ c.rest = rest) ∧
        ∀ (j : Nat) (other : List Char), j < k → p.names[j]? = some other →
          IsEmpty (Call p.depth other cs) := by
  rw [matchAt_eq, List.findSome?_eq_some_iff]
  constructor
  · rintro ⟨before, name, after, hnames, hfound, hbefore⟩
    refine ⟨before.length, name, by simp [hnames], callOf_eq_some_iff.1 hfound, ?_⟩
    intro j other hj hother
    rw [hnames, List.getElem?_append_left hj] at hother
    have hnone := hbefore other (List.mem_of_getElem? hother)
    refine ⟨fun c => ?_⟩
    rw [callOf_eq_some_iff.2 ⟨c, rfl, rfl⟩] at hnone
    simp at hnone
  · rintro ⟨k, name, hname, hfound, hnone⟩
    obtain ⟨hk, rfl⟩ := List.getElem?_eq_some_iff.1 hname
    refine ⟨p.names.take k, p.names[k], p.names.drop (k + 1), by simp,
      callOf_eq_some_iff.2 hfound, fun other hother => ?_⟩
    obtain ⟨j, hj, rfl⟩ := List.mem_take_iff_getElem.1 hother
    rw [Option.eq_none_iff_forall_ne_some]
    rintro ⟨stop, rest⟩ h
    obtain ⟨c, -, -⟩ := callOf_eq_some_iff.1 h
    exact (hnone j _ (by omega) (by simp)).false c

/-- A call that does not reach beyond `as` stays one whatever follows `as`, which can at most add a
    semicolon to it. -/
theorem matchAt_append_isSome {p : CallPattern} {as bs rest : List Char} {stop : Nat}
    (h : p.matchAt (as ++ bs) = some (stop, rest)) (hle : stop ≤ width as) (cs : List Char) :
    (p.matchAt (as ++ cs)).isSome := by
  obtain ⟨k, name, hname, ⟨c, rfl, -⟩, -⟩ := matchAt_eq_some_iff.1 h
  obtain ⟨c', -⟩ := c.exists_within hle
  rw [matchAt_isSome_iff]
  exact ⟨name, List.mem_of_getElem? hname, c'.nonempty_append cs⟩

/-- Where a text is cut behind a call, the call is found all the same. -/
theorem matchAt_of_append {p : CallPattern} {as bs rest : List Char} {stop : Nat}
    (h : p.matchAt (as ++ bs) = some (stop, rest)) (hle : stop ≤ width as) :
    ∃ mid, rest = mid ++ bs ∧ p.matchAt as = some (stop, mid) := by
  obtain ⟨k, name, hname, ⟨c, rfl, rfl⟩, hnone⟩ := matchAt_eq_some_iff.1 h
  obtain ⟨c', hwidth, hrest⟩ := c.exists_within hle
  refine ⟨c'.rest, hrest, matchAt_eq_some_iff.2 ⟨k, name, hname, ⟨c', hwidth, rfl⟩, ?_⟩⟩
  -- a name of higher priority with a call in `as` would have had one in the whole text
  refine fun j other hj hother => ⟨fun d => ?_⟩
  obtain ⟨d'⟩ := d.nonempty_append bs
  exact (hnone j other hj hother).false d'

/-- Where a text has no call, none appears when it is cut. -/
theorem matchAt_eq_none_of_append {p : CallPattern} {as bs : List Char}
    (h : p.matchAt (as ++ bs) = none) : p.matchAt as = none := by
  cases hm : p.matchAt as with
  | none => rfl
  | some found =>
    obtain ⟨k, name, hname, ⟨c, -⟩, -⟩ := matchAt_eq_some_iff.1 hm
    have hsome := matchAt_isSome_iff.2
      ⟨name, List.mem_of_getElem? hname, c.nonempty_append bs⟩
    rw [h] at hsome
    cases hsome

/-! ## Byte offsets -/

/-- The byte behind the call that begins at the byte `start` of a text. -/
def callAt? (p : CallPattern) (text : String) (start : Nat) : Option Nat :=
  (p.matchAt (splitAtByte start text.toList).2).map fun found => start + found.1

theorem callAt?_append (p : CallPattern) (before after : String) :
    p.callAt? (before ++ after) before.utf8ByteSize =
      (p.matchAt after.toList).map fun found => before.utf8ByteSize + found.1 := by
  rw [callAt?, ← width_toList, String.toList_append, splitAtByte_width]

/-- A boundary of a text is a way to cut it into `before` and `after`.  A pattern finds a call there
    that ends at the byte `stop` if and only if its first name with a derivation at the head of
    `after` has one of that width; and no name has two. -/
theorem callAt?_eq_some_iff (p : CallPattern) (before after : String) (stop : Nat) :
    (p.callAt? (before ++ after) before.utf8ByteSize = some stop ↔
      ∃ (k : Nat) (name : List Char), p.names[k]? = some name ∧
        (∃ c : Call p.depth name after.toList, before.utf8ByteSize + c.width = stop) ∧
        ∀ (j : Nat) (other : List Char), j < k → p.names[j]? = some other →
          IsEmpty (Call p.depth other after.toList)) ∧
    ∀ name : List Char, Subsingleton (Call p.depth name after.toList) := by
  refine ⟨?_, fun name => ⟨Call.eq_of_same_text⟩⟩
  rw [callAt?_append, Option.map_eq_some_iff]
  constructor
  · rintro ⟨⟨w, rest⟩, hfound, rfl⟩
    obtain ⟨k, name, hname, ⟨c, rfl, -⟩, hnone⟩ := matchAt_eq_some_iff.1 hfound
    exact ⟨k, name, hname, ⟨c, rfl⟩, hnone⟩
  · rintro ⟨k, name, hname, ⟨c, rfl⟩, hnone⟩
    have hfound := matchAt_eq_some_iff.2 ⟨k, name, hname, ⟨c, rfl, rfl⟩, hnone⟩
    exact ⟨(c.width, c.rest), hfound, rfl⟩

end CallPattern

end CallSweep
