/-
  The calls to be swept, and the scanner that recognises one of them at the head of a text.

  A call is written `name space* ( body ) ;?` where `name` is one of the pattern's callees, the
  spaces are those of ECMAScript, and the body is any run of

  * plain characters, that is, all but the parentheses and the three quotes;
  * literals between two equal quotes, in which a backslash takes the next character with it and
    must not stand in front of a line terminator;
  * groups `( body )`, nested no deeper than the pattern allows.

  The scanner is one pass over the characters.  Where it stands is told by the number of groups
  that are open and by a `Mode`; a group that would go too deep, a literal that does not close and
  the end of the text all fail the attempt, and the text is then left as it is.

  Lengths are counted in bytes of UTF-8; `matchAt` answers with the width of the call together with
  the text behind it, which is always shorter (`length_lt_of_matchAt`).
-/
import CallSweep.Text.Space
import CallSweep.Text.Width

namespace CallSweep

open Text (isScriptSpace isLineTerminator width)

/-! ## Patterns -/

/-- Deepest nesting of groups that a pattern may allow. -/
def maxDepth : Nat := 64

/-- The callees whose calls are swept, in order of priority, and how deep groups may nest inside
    the argument list of a call. -/
structure CallPattern where
  callees : List String
  depth : Nat
  callee_ne : "" ∉ callees
  depth_le : depth ≤ maxDepth

namespace CallPattern

/-- The pattern for some names: empty names are left out, and the depth is cut to `maxDepth`. -/
def ofNames (names : List String) (depth : Nat) : CallPattern where
  callees := names.filter (· ≠ "")
  depth := min depth maxDepth
  callee_ne := by simp
  depth_le := Nat.min_le_right ..

/-- The pattern that sweeps `console.log` calls with one level of groups. -/
def standard : CallPattern := ofNames ["console.log"] 1

/-- The callees as lists of characters. -/
def names (p : CallPattern) : List (List Char) := p.callees.map String.toList

theorem ne_nil_of_mem_names {p : CallPattern} {n : List Char} (h : n ∈ p.names) : n ≠ [] := by
  obtain ⟨s, hs, rfl⟩ := List.mem_map.1 h
  intro he
  rw [String.toList_eq_nil_iff] at he
  exact p.callee_ne (he ▸ hs)

end CallPattern

/-! ## The argument list -/

/-- Where the scanner stands in an argument list. -/
inductive Mode where
  /-- Outside every literal. -/
  | code
  /-- In a literal that `quote` closes. -/
  | literal (quote : Char)
  /-- In such a literal, behind a backslash. -/
  | escape (quote : Char)
  deriving DecidableEq, Repr

/-- The characters that open and close a literal. -/
def isQuote (c : Char) : Bool := c == '"' || c == '\'' || c == '\x60'

/-- Reads to the parenthesis that closes the argument list, `opened` groups being open inside it
    and `used` bytes read before.  Answers with the bytes read, that parenthesis included, and the
    text behind it. -/
def closeArguments (depth : Nat) : Nat → Mode → Nat → List Char → Option (Nat × List Char)
  | _, _, _, [] => none
  | opened, .code, used, c :: cs =>
    if c = ')' then
      if opened = 0 then some (used + 1, cs)
      else closeArguments depth (opened - 1) .code (used + 1) cs
    else if c = '(' then
      if opened < depth then closeArguments depth (opened + 1) .code (used + 1) cs else none
    else if isQuote c then closeArguments depth opened (.literal c) (used + 1) cs
    else closeArguments depth opened .code (used + c.utf8Size) cs
  | opened, .literal quote, used, c :: cs =>
    if c = quote then closeArguments depth opened .code (used + c.utf8Size) cs
    else if c = '\\' then closeArguments depth opened (.escape quote) (used + 1) cs
    else closeArguments depth opened (.literal quote) (used + c.utf8Size) cs
  | opened, .escape quote, used, c :: cs =>
    if isLineTerminator c then none
    else closeArguments depth opened (.literal quote) (used + c.utf8Size) cs

/-- What follows the argument list is shorter than the text that was read. -/
theorem length_lt_of_closeArguments {depth opened used : Nat} {mode : Mode} {cs rest : List Char}
    {stop : Nat} (h : closeArguments depth opened mode used cs = some (stop, rest)) :
    rest.length < cs.length := by
  induction cs generalizing opened mode used with
  | nil => simp [closeArguments] at h
  | cons c cs ih =>
    have step : ∀ {o m u}, closeArguments depth o m u cs = some (stop, rest) →
        rest.length < (c :: cs).length := fun h => Nat.lt_succ_of_lt (ih h)
    cases mode with
    | code =>
      rw [closeArguments] at h
      split at h
      · split at h
        · simp only [Option.some.injEq, Prod.mk.injEq] at h
          simp [← h.2]
        · exact step h
      · split at h
        · split at h
          · exact step h
          · simp at h
        · split at h <;> exact step h
    | literal quote =>
      rw [closeArguments] at h
      split at h
      · exact step h
      · split at h <;> exact step h
    | escape quote =>
      rw [closeArguments] at h
      split at h
      · simp at h
      · exact step h

/-! ## The call -/

/-- Passes over the spaces at the head of a text, counting their bytes on top of `used`. -/
def skipSpace (used : Nat) : List Char → Nat × List Char
  | [] => (used, [])
  | c :: cs => if isScriptSpace c then skipSpace (used + c.utf8Size) cs else (used, c :: cs)

theorem length_skipSpace_le (used : Nat) (cs : List Char) :
    (skipSpace used cs).2.length ≤ cs.length := by
  induction cs generalizing used with
  | nil => simp [skipSpace]
  | cons c cs ih =>
    rw [skipSpace]
    split
    · exact Nat.le_succ_of_le (ih _)
    · simp

/-- A semicolon that directly follows the argument list belongs to the call. -/
def takeSemicolon : Nat × List Char → Nat × List Char
  | (used, ';' :: cs) => (used + 1, cs)
  | found => found

theorem length_takeSemicolon_le (found : Nat × List Char) :
    (takeSemicolon found).2.length ≤ found.2.length := by
  unfold takeSemicolon
  split <;> simp

/-- The rest of a call whose callee took `used` bytes. -/
def callAfter (depth used : Nat) (cs : List Char) : Option (Nat × List Char) :=
  match skipSpace used cs with
  | (used, '(' :: cs) => (closeArguments depth 0 .code (used + 1) cs).map takeSemicolon
  | _ => none

theorem length_lt_of_callAfter {depth used stop : Nat} {cs rest : List Char}
    (h : callAfter depth used cs = some (stop, rest)) : rest.length < cs.length := by
  unfold callAfter at h
  split at h
  case h_1 u r hs =>
    obtain ⟨⟨width, after⟩, hf, he⟩ := Option.map_eq_some_iff.1 h
    have h1 := length_lt_of_closeArguments hf
    have h2 := length_takeSemicolon_le (width, after)
    have h3 := length_skipSpace_le used cs
    rw [hs] at h3
    rw [he] at h2
    simp at h3
    simp at h2
    omega
  case h_2 => simp at h

namespace CallPattern

/-- The call at the head of a text: the first callee in order of priority that begins one.
    Answers with the width of the call and the text behind it. -/
def matchAt (p : CallPattern) (cs : List Char) : Option (Nat × List Char) :=
  p.names.findSome? fun name =>
    match name.isPrefixOf? cs with
    | some after => callAfter p.depth (width name) after
    | none => none

/-- What is left over by `isPrefixOf?` is not longer than the whole. -/
theorem length_le_of_isPrefixOf? {name cs after : List Char}
    (h : name.isPrefixOf? cs = some after) : after.length ≤ cs.length := by
  induction name generalizing cs with
  | nil =>
    cases h
    exact Nat.le_refl _
  | cons n ns ih =>
    cases cs with
    | nil => cases h
    | cons c cs =>
      have step : (if n == c then ns.isPrefixOf? cs else none) = some after := h
      split at step
      · exact Nat.le_succ_of_le (ih step)
      · cases step

/-- A call takes at least one character of the text. -/
theorem length_lt_of_matchAt {p : CallPattern} {cs rest : List Char} {stop : Nat}
    (h : p.matchAt cs = some (stop, rest)) : rest.length < cs.length := by
  obtain ⟨name, -, hn⟩ := List.exists_of_findSome?_eq_some h
  split at hn
  case h_1 after ha =>
    exact Nat.lt_of_lt_of_le (length_lt_of_callAfter hn) (length_le_of_isPrefixOf? ha)
  case h_2 => simp at hn

end CallPattern

end CallSweep
