/-
  Texts are measured in bytes of UTF-8 and read character by character.

  `width` is that measure on lists of characters, and `splitAtByte n` cuts a list where `n` bytes
  have been read.  A cut never falls inside a character: one that straddles the cut goes to the
  left part, so the two parts always make up the whole (`splitAtByte_append`).
-/

namespace CallSweep.Text

/-! ## The width of a text -/

/-- Bytes of UTF-8 that a list of characters takes. -/
def width (cs : List Char) : Nat :=
  cs.foldl (fun n c => n + c.utf8Size) 0

theorem foldl_width (cs : List Char) (n : Nat) :
    cs.foldl (fun n c => n + c.utf8Size) n = n + width cs := by
  induction cs generalizing n with
  | nil => rfl
  | cons c r ih =>
    rw [width, List.foldl_cons, List.foldl_cons, ih, ih]
    omega

@[simp] theorem width_nil : width [] = 0 := rfl

@[simp] theorem width_cons (c : Char) (cs : List Char) :
    width (c :: cs) = c.utf8Size + width cs := by
  rw [width, List.foldl_cons, foldl_width]
  omega

@[simp] theorem width_append (as bs : List Char) :
    width (as ++ bs) = width as + width bs := by
  induction as with
  | nil => simp
  | cons c r ih => simp [ih]; omega

/-- The width of a text is the size of its UTF-8 form. -/
theorem width_toList (s : String) : width s.toList = s.utf8ByteSize := by
  have of_chars : ∀ cs : List Char, width cs = (String.ofList cs).utf8ByteSize := by
    intro cs
    induction cs with
    | nil => simp
    | cons c cs ih =>
      have hcons : String.ofList (c :: cs) = String.singleton c ++ String.ofList cs := by
        rw [String.singleton_eq_ofList, ← String.ofList_append]
        rfl
      rw [width_cons, ih, hcons, String.utf8ByteSize_append, String.utf8ByteSize_singleton]
  rw [of_chars, String.ofList_toList]

/-- Of two ways to cut a text, the narrower left part is the beginning of the other. -/
theorem exists_append_of_width_le {as bs cs ds : List Char} (h : as ++ bs = cs ++ ds)
    (hle : width as ≤ width cs) : ∃ mid, cs = as ++ mid ∧ bs = mid ++ ds := by
  rcases List.append_eq_append_iff.1 h with ⟨mid, rfl, rfl⟩ | ⟨mid, rfl, rfl⟩
  · exact ⟨mid, rfl, rfl⟩
  · -- the rest of `as` has no bytes
    cases mid with
    | nil => exact ⟨[], by simp, by simp⟩
    | cons c mid =>
      have := c.utf8Size_pos
      simp only [width_append, width_cons] at hle
      omega

/-! ## Cutting a text at a byte -/

/-- `splitAtByte`, with the characters of the left part read so far in reverse. -/
def splitAtByte.go (taken : List Char) : Nat → List Char → List Char × List Char
  | _, [] => (taken.reverse, [])
  | 0, cs => (taken.reverse, cs)
  | n + 1, c :: cs => splitAtByte.go (c :: taken) (n + 1 - c.utf8Size) cs

/-- The characters that begin in the first `n` bytes, and the others. -/
def splitAtByte (n : Nat) (cs : List Char) : List Char × List Char :=
  splitAtByte.go [] n cs

theorem splitAtByte.go_append (taken : List Char) (n : Nat) (cs : List Char) :
    (splitAtByte.go taken n cs).1 ++ (splitAtByte.go taken n cs).2 = taken.reverse ++ cs := by
  induction cs generalizing taken n with
  | nil => cases n <;> simp [splitAtByte.go]
  | cons c cs ih =>
    cases n with
    | zero => simp [splitAtByte.go]
    | succ n => rw [splitAtByte.go, ih]; simp

/-- Nothing is lost by a cut. -/
theorem splitAtByte_append (n : Nat) (cs : List Char) :
    (splitAtByte n cs).1 ++ (splitAtByte n cs).2 = cs := by
  rw [splitAtByte, splitAtByte.go_append, List.reverse_nil, List.nil_append]

theorem splitAtByte.go_width (taken as bs : List Char) :
    splitAtByte.go taken (width as) (as ++ bs) = (taken.reverse ++ as, bs) := by
  induction as generalizing taken with
  | nil => cases bs <;> simp [splitAtByte.go]
  | cons c as ih =>
    have hpos := c.utf8Size_pos
    have hsucc : width (c :: as) = c.utf8Size + width as - 1 + 1 := by
      rw [width_cons]
      omega
    rw [hsucc, List.cons_append, splitAtByte.go,
      show c.utf8Size + width as - 1 + 1 - c.utf8Size = width as from by omega, ih]
    simp

/-- A cut at the width of a part falls behind that part. -/
theorem splitAtByte_width (as bs : List Char) : splitAtByte (width as) (as ++ bs) = (as, bs) := by
  rw [splitAtByte, splitAtByte.go_width, List.reverse_nil, List.nil_append]

end CallSweep.Text
