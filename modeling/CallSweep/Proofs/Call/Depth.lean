/-
  The depth that is allowed is a threshold.

  Whether an argument list closes depends on the depth allowed; where it closes does not.

  1. **Nesting** — `Body.nesting` is the most groups of a derivation tree that lie in each other.
     A `Body n` has at most `n` of them (`Body.nesting_le`), and it is a `Body` of every depth that
     its nesting fits into (`Body.exists_ofDepth`), with the same characters.

  2. **One body** — at all depths together a text has one body that a closing parenthesis follows
     (`Body.eq_of_chars`): two bodies of different depths are brought to a common one, where
     `Body.chars_append_inj` applies.

  3. **The threshold** — so a text that closes at some depth closes at all depths from the nesting
     of its body on, at the same byte, and at none below (`closeArguments_eq_ite`).

  Groups side by side count once: a body made of any number of them nests one deeper than the
  deepest of them (`Body.siblings`).
-/
import CallSweep.Proofs.Call.Grammar

namespace CallSweep

open Text (width)

namespace Body

/-! ## Nesting -/

/-- The most groups that lie in each other.  Parentheses in literals are no groups. -/
def nesting {n : Nat} : Body n → Nat
  | .nil => 0
  | .plain _ _ rest => rest.nesting
  | .literal _ _ _ rest => rest.nesting
  | .group inner rest => max (inner.nesting + 1) rest.nesting

theorem nesting_le {n : Nat} (b : Body n) : b.nesting ≤ n := by
  induction b with
  | nil => exact Nat.zero_le _
  | plain c isPlain rest ih => exact ih
  | literal quote isQuote inside rest ih => exact ih
  | group inner rest ihInner ihRest =>
    rw [nesting]
    omega

/-- A body is one of every depth that it fits into. -/
theorem exists_ofDepth {n : Nat} (b : Body n) {depth : Nat} (fits : b.nesting ≤ depth) :
    ∃ b' : Body depth, b'.chars = b.chars ∧ b'.nesting = b.nesting := by
  induction b generalizing depth with
  | nil => exact ⟨.nil, rfl, rfl⟩
  | plain c isPlain rest ih =>
    obtain ⟨rest', hchars, hnesting⟩ := ih fits
    exact ⟨.plain c isPlain rest', by rw [chars, chars, hchars], hnesting⟩
  | literal quote isQuote inside rest ih =>
    obtain ⟨rest', hchars, hnesting⟩ := ih fits
    exact ⟨.literal quote isQuote inside rest', by rw [chars, chars, hchars], hnesting⟩
  | group inner rest ihInner ihRest =>
    rw [nesting] at fits
    obtain ⟨depth, rfl⟩ : ∃ outer, depth = outer + 1 := ⟨depth - 1, by omega⟩
    have innerFits : inner.nesting ≤ depth := by omega
    have restFits : rest.nesting ≤ depth + 1 := by omega
    obtain ⟨inner', hinner, hinnerNesting⟩ := ihInner innerFits
    obtain ⟨rest', hrest, hrestNesting⟩ := ihRest restFits
    refine ⟨.group inner' rest', ?_, ?_⟩
    · rw [chars, chars, hinner, hrest]
    · rw [nesting, nesting, hinnerNesting, hrestNesting]

/-! ## One body at all depths -/

/-- Two bodies at the head of one text, of whatever depths, have the same characters and the same
    nesting. -/
theorem eq_of_chars {n m : Nat} (a : Body n) (b : Body m) {r s : List Char}
    (h : a.chars ++ ')' :: r = b.chars ++ ')' :: s) :
    a.chars = b.chars ∧ a.nesting = b.nesting ∧ r = s := by
  -- both are bodies of the larger depth
  have ha : a.nesting ≤ max n m := Nat.le_trans a.nesting_le (Nat.le_max_left n m)
  have hb : b.nesting ≤ max n m := Nat.le_trans b.nesting_le (Nat.le_max_right n m)
  obtain ⟨a', hachars, hanesting⟩ := a.exists_ofDepth ha
  obtain ⟨b', hbchars, hbnesting⟩ := b.exists_ofDepth hb
  rw [← hachars, ← hbchars] at h
  obtain ⟨rfl, hrest⟩ := chars_append_inj a' b' h
  exact ⟨hachars.symm.trans hbchars, hanesting.symm.trans hbnesting, hrest⟩

/-! ## Groups side by side -/

/-- The body that is made of some groups, one beside the other. -/
def siblings {n : Nat} : List (Body n) → Body (n + 1)
  | [] => .nil
  | b :: bs => .group b (siblings bs)

theorem chars_siblings {n : Nat} (bs : List (Body n)) :
    (siblings bs).chars = bs.flatMap fun b => '(' :: b.chars ++ [')'] := by
  induction bs with
  | nil => rfl
  | cons b bs ih =>
    rw [siblings, chars, ih, List.flatMap_cons, List.append_assoc]
    rfl

/-- Groups side by side nest as deep as the deepest of them does. -/
theorem nesting_siblings_le_iff {n depth : Nat} (bs : List (Body n)) :
    (siblings bs).nesting ≤ depth ↔ ∀ b ∈ bs, b.nesting < depth := by
  induction bs with
  | nil => simp [siblings, nesting]
  | cons b bs ih =>
    rw [siblings, nesting, Nat.max_le, ih, List.forall_mem_cons, Nat.succ_le_iff]

end Body

/-! ## The threshold -/

/-- A body closes exactly at the depths that it fits into, and always at the same byte. -/
theorem closeArguments_eq_ite {n : Nat} (b : Body n) (depth used : Nat) (rest : List Char) :
    closeArguments depth 0 .code used (b.chars ++ ')' :: rest) =
      if b.nesting ≤ depth then some (used + width b.chars + 1, rest) else none := by
  by_cases fits : b.nesting ≤ depth
  · obtain ⟨b', hchars, -⟩ := b.exists_ofDepth fits
    rw [if_pos fits, closeArguments_eq_some_iff]
    exact ⟨b', by rw [hchars], by rw [hchars]⟩
  · rw [if_neg fits, Option.eq_none_iff_forall_ne_some]
    rintro ⟨stop, rest'⟩ h
    -- a body that it closed behind would be this one, and nest within the depth
    obtain ⟨b', hchars, -⟩ := closeArguments_eq_some_iff.1 h
    obtain ⟨-, hnesting, -⟩ := b.eq_of_chars b' hchars
    exact fits (hnesting ▸ b'.nesting_le)

/-- A call that is found stays the same call when more depth is allowed. -/
theorem callOf_of_le {depth more : Nat} {name cs : List Char} {found : Nat × List Char}
    (h : callOf depth name cs = some found) (hle : depth ≤ more) :
    callOf more name cs = some found := by
  obtain ⟨c, hwidth, hrest⟩ := callOf_eq_some_iff.1 h
  obtain ⟨body, hchars, -⟩ := c.body.exists_ofDepth (Nat.le_trans c.body.nesting_le hle)
  refine callOf_eq_some_iff.2 ⟨⟨c.spaces, body, c.semicolon, c.rest, ?_, c.spaces_all,
    c.semicolon_taken⟩, ?_, hrest⟩
  · rw [hchars]
    exact c.text_eq
  · rw [← hwidth]
    show width (callChars name c.spaces body.chars c.semicolon) = _
    rw [hchars]
    rfl

/-- **The depth that is allowed is a threshold.**  What stands behind an opening parenthesis, the
    byte `used`, closes at no depth; or it is a body and its closing parenthesis, and closes right
    behind them at every depth from the nesting of that body on, and at none below.  So a call that
    is found for a name is found as it is when more depth is allowed.  And the depth does not limit
    how many groups there are: any number of them side by side closes as soon as each of them
    fits. -/
theorem closeArguments_threshold (used : Nat) (cs : List Char) :
    ((∀ depth, closeArguments depth 0 .code used cs = none) ∨
      ∃ (n : Nat) (b : Body n) (rest : List Char), cs = b.chars ++ ')' :: rest ∧
        ∀ depth, closeArguments depth 0 .code used cs =
          if b.nesting ≤ depth then some (used + width b.chars + 1, rest) else none) ∧
    (∀ (name : List Char) (depth more : Nat) (found : Nat × List Char), depth ≤ more →
      callOf depth name cs = some found → callOf more name cs = some found) ∧
    ∀ (n depth : Nat) (groups : List (Body n)) (rest : List Char),
      (closeArguments depth 0 .code used
        ((groups.flatMap fun b => '(' :: b.chars ++ [')']) ++ ')' :: rest)).isSome ↔
          ∀ b ∈ groups, b.nesting < depth := by
  refine ⟨?_, fun name depth more found hle h => callOf_of_le h hle, ?_⟩
  · by_cases closes : ∃ depth found, closeArguments depth 0 .code used cs = some found
    · obtain ⟨n, ⟨stop, rest⟩, hclosed⟩ := closes
      obtain ⟨b, rfl, -⟩ := closeArguments_eq_some_iff.1 hclosed
      exact Or.inr ⟨n, b, rest, rfl, fun depth => closeArguments_eq_ite b depth used rest⟩
    · refine Or.inl fun depth => ?_
      rw [Option.eq_none_iff_forall_ne_some]
      exact fun found hclosed => closes ⟨depth, found, hclosed⟩
  · intro n depth groups rest
    rw [← Body.chars_siblings, closeArguments_eq_ite, ← Body.nesting_siblings_le_iff]
    by_cases fits : (Body.siblings groups).nesting ≤ depth
    · simp [fits]
    · simp [fits]

/-- Three groups stand side by side, one of them with a group inside; the parentheses of the literal
    do not count. -/
theorem closeArguments_threshold_three_groups :
    callOf 1 "log".toList "log((a)(f(b))(')('))".toList = none ∧
      callOf 2 "log".toList "log((a)(f(b))(')('))".toList = some (20, []) ∧
      callOf 64 "log".toList "log((a)(f(b))(')('))".toList = some (20, []) :=
  ⟨by decide, by decide, (closeArguments_threshold 0 "log((a)(f(b))(')('))".toList).2.1
    "log".toList 2 64 (20, []) (by decide) (by decide)⟩

end CallSweep
