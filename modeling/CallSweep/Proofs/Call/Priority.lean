/-
  When the order of the callees matters.

  At one place of a text the callees are tried in the order in which they are listed, and the first
  of them that makes a call wins.  Two of them can compete for a place only if both are spelled out
  there, and then one of them begins with the other.

  1. **Apart** — in a pattern whose names are apart, no name begins another one.  Then the call
     that begins at a place is a call of the only name that is spelled out there, and the order of
     the names does not enter (`matchAt_eq_some_iff_of_apart`).

  2. **The search** — `spans` and `sweep` see the callees through `matchAt` alone
     (`spansFrom_congr`), although the search for candidates goes through them as well: it may stop
     at other places, but only at places where no call begins.

  `sweep_eq_of_same_names` draws the conclusion for two lists of names.  The example behind it has
  one name that begins another one, and there the order decides how far a call extends.
-/
import CallSweep.Call.Sweep
import CallSweep.Proofs.Call.PlainScan

namespace CallSweep

/-- A call of a name begins with that name. -/
theorem prefix_of_callOf {depth : Nat} {name cs : List Char} {found : Nat × List Char}
    (h : callOf depth name cs = some found) : name <+: cs := by
  obtain ⟨c, -, -⟩ := callOf_eq_some_iff.1 h
  rw [c.text_eq, callChars, List.append_assoc, List.append_assoc, List.append_assoc]
  exact List.prefix_append _ _

namespace CallPattern

/-! ## Names that are apart -/

/-- Whether no name of a pattern begins another one. -/
def Apart (p : CallPattern) : Prop := ∀ a ∈ p.names, ∀ b ∈ p.names, a <+: b → a = b

/-- Of names that are apart, at most one is spelled out at the head of a text. -/
theorem Apart.eq_of_prefix {p : CallPattern} (apart : p.Apart) {a b cs : List Char}
    (ha : a ∈ p.names) (hb : b ∈ p.names) (hacs : a <+: cs) (hbcs : b <+: cs) : a = b := by
  rcases List.prefix_or_prefix_of_prefix hacs hbcs with h | h
  · exact apart a ha b hb h
  · exact (apart b hb a ha h).symm

/-- The call at the head of a text is the call of any name that has one there. -/
theorem matchAt_eq_some_iff_of_apart {p : CallPattern} (apart : p.Apart) {cs : List Char}
    {found : Nat × List Char} :
    p.matchAt cs = some found ↔ ∃ name ∈ p.names, callOf p.depth name cs = some found := by
  rw [matchAt_eq]
  constructor
  · intro h
    exact List.exists_of_findSome?_eq_some h
  · rintro ⟨name, hname, hfound⟩
    -- some name makes a call, and the first that does can only be this one
    have hsome : (p.names.findSome? (callOf p.depth · cs)).isSome := by
      rw [List.findSome?_isSome_iff]
      exact ⟨name, hname, by rw [hfound]; rfl⟩
    obtain ⟨first, hfirst⟩ := Option.isSome_iff_exists.1 hsome
    obtain ⟨other, hother, hcall⟩ := List.exists_of_findSome?_eq_some hfirst
    obtain rfl : other = name :=
      apart.eq_of_prefix hother hname (prefix_of_callOf hcall) (prefix_of_callOf hfound)
    rw [hfirst, ← hcall, hfound]

/-! ## What the search sees of the names -/

/-- Patterns that find the same calls at the head of every text find the same spans. -/
theorem spansFrom_congr {p q : CallPattern} (same : ∀ cs, p.matchAt cs = q.matchAt cs)
    (offset : Nat) (cs : List Char) : p.spansFrom offset cs = q.spansFrom offset cs := by
  induction cs using p.scan_induction generalizing offset with
  | nil => rw [spansFrom_nil, spansFrom_nil]
  | call c cs rest stop hm ih =>
    have hm' : q.matchAt (c :: cs) = some (stop, rest) := by rw [← same, hm]
    rw [spansFrom_of_match hm, spansFrom_of_match hm', ih]
  | plain c cs hm ih =>
    have hm' : q.matchAt (c :: cs) = none := by rw [← same, hm]
    rw [spansFrom_of_none hm, spansFrom_of_none hm', ih]

theorem sweep_congr {p q : CallPattern} {text : String} (h : p.spans text = q.spans text) :
    p.sweep text = q.sweep text := by
  rw [sweep, sweep, h]

/-! ## Lists of names -/

theorem mem_names_ofNames {names : List String} {depth : Nat} {name : List Char} :
    name ∈ (ofNames names depth).names ↔ ∃ s ∈ names, s ≠ "" ∧ s.toList = name := by
  show name ∈ (names.filter (· ≠ "")).map String.toList ↔ _
  simp [and_assoc]

/-- **Order and repetition of the callees matter only where one begins another.**  Two lists that
    hold the same names, none of them the beginning of another one, find the same calls and leave
    the same text.  Empty names do not count. -/
theorem sweep_eq_of_same_names {names others : List String} (depth : Nat)
    (same : ∀ name, name ≠ "" → (name ∈ names ↔ name ∈ others))
    (apart : ∀ a ∈ names, ∀ b ∈ names, a ≠ "" → a.toList <+: b.toList → a = b) (text : String) :
    (ofNames names depth).spans text = (ofNames others depth).spans text ∧
      (ofNames names depth).sweep text = (ofNames others depth).sweep text := by
  have same_names : ∀ name, name ∈ (ofNames names depth).names ↔
      name ∈ (ofNames others depth).names := by
    intro name
    rw [mem_names_ofNames, mem_names_ofNames]
    constructor
    · rintro ⟨s, hs, hne, rfl⟩
      exact ⟨s, (same s hne).1 hs, hne, rfl⟩
    · rintro ⟨s, hs, hne, rfl⟩
      exact ⟨s, (same s hne).2 hs, hne, rfl⟩
  have names_apart : (ofNames names depth).Apart := by
    intro a ha b hb hprefix
    obtain ⟨s, hs, hne, rfl⟩ := mem_names_ofNames.1 ha
    obtain ⟨t, ht, -, rfl⟩ := mem_names_ofNames.1 hb
    rw [apart s hs t ht hne hprefix]
  have others_apart : (ofNames others depth).Apart := by
    intro a ha b hb
    exact names_apart a ((same_names a).2 ha) b ((same_names b).2 hb)
  have same_match : ∀ cs, (ofNames names depth).matchAt cs = (ofNames others depth).matchAt cs := by
    intro cs
    apply Option.ext
    intro found
    rw [matchAt_eq_some_iff_of_apart names_apart, matchAt_eq_some_iff_of_apart others_apart]
    exact exists_congr fun name => and_congr_left fun _ => same_names name
  have same_spans := spansFrom_congr same_match 0 text.toList
  exact ⟨same_spans, sweep_congr same_spans⟩

/-- One name ends in another one here, so that each candidate of the one holds a candidate of the
    other, and three of them fail before a call is found. -/
theorem sweep_eq_of_log_names :
    (ofNames ["console.log", "log", "", "log"] 1).spans "console.log (; log(\"); console.log(1);" =
        (ofNames ["log", "console.log"] 1).spans "console.log (; log(\"); console.log(1);" ∧
      (ofNames ["console.log", "log", "", "log"] 1).sweep "console.log (; log(\"); console.log(1);" =
        (ofNames ["log", "console.log"] 1).sweep "console.log (; log(\"); console.log(1);" :=
  sweep_eq_of_same_names 1 (by simp; tauto) (by decide) _

example : (ofNames ["log", "log(1)"] 1).spans "log(1)(2)" = [.ofWidth 0 6] ∧
    (ofNames ["log(1)", "log"] 1).spans "log(1)(2)" = [.ofWidth 0 9] := by decide +kernel

end CallPattern

end CallSweep
