/-
  Trimmed texts.

  A text is trimmed if there is no blank at either of its ends.  `trim` makes a text so and leaves
  one that is so as it is, which is what makes it a normal form (`trim_trim`,
  `trimChars_eq_self_iff`).  What has nothing but blanks is trimmed to nothing
  (`trim_eq_empty_iff`).
-/
import Mathlib.Data.List.DropRight
import Mathlib.Data.List.TakeWhile
import CallSweep.Text.Space

namespace CallSweep.Text

theorem trimChars_eq (cs : List Char) :
    trimChars cs = (cs.dropWhile isBlank).rdropWhile isBlank := rfl

/-- Blanks are taken off the front for good: what is taken off the back uncovers none. -/
theorem dropWhile_trimChars (cs : List Char) :
    (trimChars cs).dropWhile isBlank = trimChars cs := by
  rw [trimChars_eq, List.dropWhile_eq_self_iff]
  intro long
  have front : cs.dropWhile isBlank = (cs.dropWhile isBlank).dropWhile isBlank :=
    (List.dropWhile_idempotent isBlank cs).symm
  have part := List.rdropWhile_prefix isBlank (cs.dropWhile isBlank)
  have long' : 0 < (cs.dropWhile isBlank).length := Nat.lt_of_lt_of_le long part.length_le
  -- the two lists begin with the same character
  rw [part.getElem long]
  exact List.dropWhile_eq_self_iff.1 front.symm long'

theorem trimChars_trimChars (cs : List Char) : trimChars (trimChars cs) = trimChars cs := by
  rw [trimChars_eq (trimChars cs), dropWhile_trimChars, trimChars_eq, List.rdropWhile_idempotent]

theorem trim_trim (s : String) : trim (trim s) = trim s := by
  rw [trim, trim, String.toList_ofList, trimChars_trimChars]

/-- A text is left as it is if no blank stands at either of its ends. -/
theorem trimChars_eq_self_iff {cs : List Char} :
    trimChars cs = cs ↔
      ∀ ne : cs ≠ [], isBlank (cs.head ne) = false ∧ isBlank (cs.getLast ne) = false := by
  constructor
  · intro trimmed ne
    have front : cs.dropWhile isBlank = cs := by
      rw [← trimmed, dropWhile_trimChars]
    have back : cs.rdropWhile isBlank = cs := by
      rw [trimChars_eq, front] at trimmed
      exact trimmed
    have head := List.dropWhile_eq_self_iff.1 front (List.length_pos_iff.2 ne)
    rw [← List.head_eq_getElem ne, Bool.not_eq_true] at head
    exact ⟨head, Bool.not_eq_true _ ▸ List.rdropWhile_eq_self_iff.1 back ne⟩
  · intro shown
    have front : cs.dropWhile isBlank = cs := by
      refine List.dropWhile_eq_self_iff.2 fun pos => ?_
      rw [← List.head_eq_getElem (List.length_pos_iff.1 pos), (shown _).1]
      exact Bool.false_ne_true
    rw [trimChars_eq, front]
    refine List.rdropWhile_eq_self_iff.2 fun ne => ?_
    rw [(shown ne).2]
    exact Bool.false_ne_true

/-- A character that is no blank may be put in front of a trimmed text. -/
theorem trimChars_cons {cs : List Char} {c : Char} (shown : isBlank c = false)
    (trimmed : trimChars cs = cs) : trimChars (c :: cs) = c :: cs := by
  refine trimChars_eq_self_iff.2 fun _ => ⟨shown, ?_⟩
  cases cs with
  | nil => exact shown
  | cons d cs => exact (trimChars_eq_self_iff.1 trimmed (List.cons_ne_nil d cs)).2

theorem trim_eq_empty_iff {s : String} : trim s = "" ↔ ∀ c ∈ s.toList, isBlank c = true := by
  have nothing : trim s = "" ↔ trimChars s.toList = [] := by
    rw [trim, ← String.toList_inj, String.toList_ofList]
    rfl
  rw [nothing, trimChars_eq, List.rdropWhile_eq_nil_iff]
  constructor
  · intro rest c mem
    rw [← List.takeWhile_append_dropWhile (p := isBlank) (l := s.toList), List.mem_append] at mem
    exact mem.elim List.mem_takeWhile_imp (rest c)
  · intro blank c mem
    exact blank c ((List.dropWhile_sublist _).subset mem)

end CallSweep.Text
