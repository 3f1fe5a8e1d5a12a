/-
  Sweeping a text again and again.

  One sweep need not be enough, since what it leaves may spell a call that was not there before.
  `CallPattern.resweep` is the text after some sweeps in a row.

  1. **What a call costs** (`shortest_add_two_le_length`) — wherever a span lies, it has room for
     the shortest callee and two parentheses.  So a sweep shortens the text by that much for each
     call that it takes out (`size_modified_add_le`).

  2. **What a run costs** (`size_resweep_add_le`) — the bytes of the text are what all sweeps of a
     run pay from.  The induction is on the sweeps, and keeps: the bytes that are left, and the
     price of the calls that have gone, are together no more than the bytes of the text.

  3. **A settled text** — one without a call is its own sweep (`resweep_of_settled`).  A sweep of
     any other text takes out one call at least, and all of them together are no more than the text
     has room for (`exists_settled`).

  `sweeps_settle` puts them together.
-/
import Mathlib.Algebra.BigOperators.Group.Finset.Basic
import Mathlib.Algebra.Group.Action.Defs
import Mathlib.Algebra.Order.BigOperators.Group.List
import Mathlib.Algebra.Order.Ring.Nat
import Mathlib.Data.Nat.Find
import CallSweep.Proofs.Call.Bounds

namespace CallSweep

open Text (width_toList)

namespace CallPattern

variable {p : CallPattern} {text : String}

/-! ## One sweep -/

/-- A span has room for the shortest callee and two parentheses. -/
theorem shortest_add_two_le_length {s : Span} (mem : s ∈ p.spans text) :
    p.shortest + 2 ≤ s.length := by
  obtain ⟨before, after, rest, stop, -, call, rfl⟩ := exists_matchAt_of_mem_spansFrom mem
  have length : (Span.ofWidth (0 + Text.width before) stop).length = stop :=
    Nat.add_sub_cancel_left _ _
  rw [length]
  exact shortest_add_two_le call

/-- What is left of a text and what was taken out of it make up the text. -/
theorem size_modified_add (p : CallPattern) (text : String) :
    (p.sweep text).modified.utf8ByteSize + ((p.spans text).map Span.length).sum =
      text.utf8ByteSize := by
  have left : (p.sweep text).modified =
      String.ofList (cut 0 .start text.toList (p.spans text)).1 := rfl
  rw [left, ← width_toList, ← width_toList, String.toList_ofList]
  exact (p.cuts_spansFrom 0 text.toList).width_kept_cut .start

/-- **What a call costs.**  A sweep shortens the text by a shortest call for each one that it takes
    out. -/
theorem size_modified_add_le (p : CallPattern) (text : String) :
    (p.sweep text).modified.utf8ByteSize + (p.sweep text).count * (p.shortest + 2) ≤
      text.utf8ByteSize := by
  have each : ∀ n ∈ (p.spans text).map Span.length, p.shortest + 2 ≤ n := by
    intro n length
    obtain ⟨s, mem, rfl⟩ := List.mem_map.1 length
    exact shortest_add_two_le_length mem
  have all := List.card_nsmul_le_sum _ _ each
  rw [List.length_map, smul_eq_mul, ← count_sweep] at all
  have whole := p.size_modified_add text
  omega

theorem count_pos_iff : 0 < (p.sweep text).count ↔ p.spans text ≠ [] := by
  rw [count_sweep, List.length_pos_iff]

/-! ## Sweeps in a row -/

/-- The text after some sweeps, each of what the one before has left. -/
def resweep (p : CallPattern) (text : String) : Nat → String
  | 0 => text
  | n + 1 => (p.sweep (p.resweep text n)).modified

/-- The calls that some sweeps in a row take out. -/
def removedBy (p : CallPattern) (text : String) (sweeps : Nat) : Nat :=
  ∑ n ∈ Finset.range sweeps, (p.sweep (p.resweep text n)).count

theorem removedBy_succ (p : CallPattern) (text : String) (n : Nat) :
    p.removedBy text (n + 1) = p.removedBy text n + (p.sweep (p.resweep text n)).count :=
  Finset.sum_range_succ _ n

/-- **What a run costs.**  All calls that are ever taken out had room in the text as it was. -/
theorem size_resweep_add_le (p : CallPattern) (text : String) (n : Nat) :
    (p.resweep text n).utf8ByteSize + p.removedBy text n * (p.shortest + 2) ≤
      text.utf8ByteSize := by
  induction n with
  | zero =>
    rw [removedBy, Finset.range_zero, Finset.sum_empty, Nat.zero_mul]
    exact Nat.le_refl _
  | succ n ih =>
    -- the next sweep pays for its calls from what is left
    have step := p.size_modified_add_le (p.resweep text n)
    rw [resweep, removedBy_succ, Nat.add_mul]
    omega

theorem removedBy_le (p : CallPattern) (text : String) (n : Nat) :
    p.removedBy text n ≤ text.utf8ByteSize / (p.shortest + 2) := by
  rw [Nat.le_div_iff_mul_le (Nat.succ_pos _)]
  exact Nat.le_trans (Nat.le_add_left _ _) (p.size_resweep_add_le text n)

/-- A sweep in which something is found leaves less. -/
theorem size_resweep_lt {n : Nat} (found : p.spans (p.resweep text n) ≠ []) :
    (p.resweep text (n + 1)).utf8ByteSize < (p.resweep text n).utf8ByteSize := by
  have pays := p.size_modified_add_le (p.resweep text n)
  have price : 0 < (p.sweep (p.resweep text n)).count * (p.shortest + 2) :=
    Nat.mul_pos (count_pos_iff.2 found) (Nat.succ_pos _)
  rw [resweep]
  omega

/-! ## Settled texts -/

/-- Once nothing is found, nothing changes any more. -/
theorem resweep_of_settled {k n : Nat} (settled : p.spans (p.resweep text k) = []) (le : k ≤ n) :
    p.resweep text n = p.resweep text k := by
  induction n, le using Nat.le_induction with
  | base => rfl
  | succ n le ih =>
    have none_ : (p.sweep (p.resweep text k)).isUnchanged = true := by
      rw [Sweep.isUnchanged, List.isEmpty_iff, ← List.length_eq_zero_iff]
      show (p.sweep (p.resweep text k)).count = 0
      rw [count_sweep, settled, List.length_nil]
    rw [resweep, ih]
    exact (p.modified_eq_self_iff _).2 none_

/-- As long as something is found, there are at least as many calls as sweeps. -/
theorem le_removedBy {n : Nat} (found : ∀ i < n, p.spans (p.resweep text i) ≠ []) :
    n ≤ p.removedBy text n := by
  induction n with
  | zero => exact Nat.zero_le _
  | succ n ih =>
    have earlier := ih fun i lt => found i (Nat.lt_succ_of_lt lt)
    have last := count_pos_iff.2 (found n (Nat.lt_succ_self n))
    rw [removedBy_succ]
    omega

/-- The first sweep that finds nothing comes before the calls run out. -/
theorem exists_settled (p : CallPattern) (text : String) :
    ∃ k ≤ text.utf8ByteSize / (p.shortest + 2), p.spans (p.resweep text k) = [] ∧
      ∀ n < k, p.spans (p.resweep text n) ≠ [] := by
  have some_ : ∃ k, p.spans (p.resweep text k) = [] := by
    by_contra never
    rw [not_exists] at never
    -- one sweep more than there is room for
    have many := le_removedBy fun i (_ : i < text.utf8ByteSize / (p.shortest + 2) + 1) => never i
    have few := p.removedBy_le text (text.utf8ByteSize / (p.shortest + 2) + 1)
    omega
  classical
  refine ⟨Nat.find some_, ?_, Nat.find_spec some_, fun n lt => Nat.find_min some_ lt⟩
  exact Nat.le_trans (le_removedBy fun n lt => Nat.find_min some_ lt) (p.removedBy_le text _)

/-- **Sweeps settle.**  Let a shortest call take a callee of the least width and two parentheses.  A
    text that is swept again and again comes to one without a call after no more sweeps than it has
    room for shortest calls, and stays there.  Every sweep up to then shortens it, and all the sweeps
    of a run, however long it is, take out no more calls than that. -/
theorem sweeps_settle (p : CallPattern) (text : String) :
    (∃ k ≤ text.utf8ByteSize / (p.shortest + 2), p.spans (p.resweep text k) = [] ∧
      (∀ n < k, (p.resweep text (n + 1)).utf8ByteSize < (p.resweep text n).utf8ByteSize) ∧
      ∀ n ≥ k, p.resweep text n = p.resweep text k) ∧
    ∀ n, ∑ i ∈ Finset.range n, (p.sweep (p.resweep text i)).count ≤
      text.utf8ByteSize / (p.shortest + 2) := by
  obtain ⟨k, few, settled, found⟩ := p.exists_settled text
  refine ⟨⟨k, few, settled, ?_, ?_⟩, p.removedBy_le text⟩
  · intro n lt
    exact size_resweep_lt (found n lt)
  · intro n ge
    exact resweep_of_settled settled ge

/-- A text of 28 bytes that has room for two calls, and for no more sweeps: the second call comes
    together when the first one goes. -/
theorem sweeps_settle_rejoined :
    (∃ k ≤ 2, standard.spans (standard.resweep "console.console.log(1)log(2)" k) = [] ∧
      ∀ n < k, (standard.resweep "console.console.log(1)log(2)" (n + 1)).utf8ByteSize <
        (standard.resweep "console.console.log(1)log(2)" n).utf8ByteSize) ∧
    standard.spans (standard.resweep "console.console.log(1)log(2)" 1) ≠ [] := by
  have room : "console.console.log(1)log(2)".utf8ByteSize / (standard.shortest + 2) = 2 := by
    decide +kernel
  obtain ⟨⟨k, few, settled, shorter, -⟩, -⟩ := sweeps_settle standard "console.console.log(1)log(2)"
  exact ⟨⟨k, room ▸ few, settled, shorter⟩, by decide +kernel⟩

end CallPattern

end CallSweep
