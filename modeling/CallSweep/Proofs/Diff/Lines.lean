/-
  Lines, told by how they end.

  1. **Shape** (`IsLine`, `of_mem_splitLines`) — a line of a text has no line feed and no carriage
     return but at its end: one of them, the two together, or none, and then it is not empty.

  2. **Putting lines together** (`splitLines_flatten`) — lines that do end and begin with something
     else than their ending (`IsEnded`) are the lines of what they make up.  Their first character
     keeps a carriage return at the end of one line from meeting a line feed in the next.
-/
import CallSweep.Diff.Lines

namespace CallSweep.Diff

/-- The ways in which a line may end. -/
def endings : List (List Char) := [['\n'], ['\r', '\n'], ['\r']]

/-- Characters of which none ends a line. -/
def Plain (cs : List Char) : Prop := ∀ c ∈ cs, endsLine c = false

instance (cs : List Char) : Decidable (Plain cs) :=
  inferInstanceAs (Decidable (∀ c ∈ cs, endsLine c = false))

/-- The characters of a line of some text. -/
def IsLine (l : List Char) : Prop :=
  ∃ content ending, l = content ++ ending ∧ Plain content ∧
    (ending ∈ endings ∨ ending = [] ∧ content ≠ [])

/-- A line with an ending and something in front of it. -/
def IsEnded (l : List Char) : Prop :=
  ∃ content ending, l = content ++ ending ∧ Plain content ∧ content ≠ [] ∧ ending ∈ endings

/-! ## The shape of lines -/

theorem Plain.nil : Plain [] := by simp [Plain]

theorem Plain.reverse {cs : List Char} (h : Plain cs) : Plain cs.reverse :=
  fun c hc => h c (List.mem_reverse.1 hc)

theorem Plain.append {cs ds : List Char} (h : Plain cs) (h' : Plain ds) : Plain (cs ++ ds) :=
  fun c hc => (List.mem_append.1 hc).elim (h c) (h' c)

theorem Plain.cons {c : Char} {cs : List Char} (hc : endsLine c = false) (h : Plain cs) :
    Plain (c :: cs) := List.forall_mem_cons.2 ⟨hc, h⟩

theorem endsLine_iff {c : Char} : endsLine c = true ↔ c = '\n' ∨ c = '\r' := by
  simp [endsLine]

/-- A line of a text. -/
theorem of_mem_splitLines {current cs l : List Char} (hcurrent : Plain current)
    (h : l ∈ splitLines current cs) : IsLine l := by
  fun_induction splitLines current cs with
  | case1 => cases h
  | case2 current hne =>
    obtain rfl : l = current.reverse := by simpa using h
    exact ⟨current.reverse, [], by simp, hcurrent.reverse, .inr ⟨rfl, by simpa using hne⟩⟩
  | case3 current cs ih =>
    obtain rfl | h := List.mem_cons.1 h
    · exact ⟨current.reverse, ['\r', '\n'], by simp, hcurrent.reverse, .inl (by decide)⟩
    · exact ih .nil h
  | case4 current c cs _ hc ih =>
    obtain rfl | h := List.mem_cons.1 h
    · refine ⟨current.reverse, [c], by simp, hcurrent.reverse, .inl ?_⟩
      obtain rfl | rfl := endsLine_iff.1 hc <;> decide
    · exact ih .nil h
  | case5 current c cs _ hc ih => exact ih (hcurrent.cons (by simpa using hc)) h

theorem isLine_of_mem_lines {text line : String} (h : line ∈ lines text) : IsLine line.toList := by
  obtain ⟨l, hl, rfl⟩ := List.mem_map.1 h
  rw [String.toList_ofList]
  exact of_mem_splitLines .nil hl

/-- A line has no ending, or it has one. -/
theorem IsLine.cases {line : String} (h : IsLine line.toList) :
    isUnended line = true ∧ Plain line.toList ∨
      isUnended line = false ∧ ∃ content ending, line.toList = content ++ ending ∧
        Plain content ∧ ending ∈ endings := by
  obtain ⟨content, ending, hl, plain, hending | ⟨rfl, hne⟩⟩ := h
  · refine .inr ⟨?_, content, ending, hl, plain, hending⟩
    simp only [endings, List.mem_cons, List.not_mem_nil, or_false] at hending
    obtain rfl | rfl | rfl := hending <;> simp [isUnended, hl, endsLine]
  · rw [List.append_nil] at hl
    refine .inl ⟨?_, hl ▸ plain⟩
    rw [isUnended, hl, List.getLast?_eq_some_getLast hne]
    simpa using plain _ (List.getLast_mem hne)

/-! ## Putting lines together -/

theorem splitLines_plain {current content cs : List Char} (h : Plain content) :
    splitLines current (content ++ cs) = splitLines (content.reverse ++ current) cs := by
  induction content generalizing current with
  | nil => rfl
  | cons c content ih =>
    obtain ⟨hc, hcontent⟩ := List.forall_mem_cons.1 h
    have ne : ∀ ds, c = '\r' → content ++ cs = '\n' :: ds → False := by
      rintro ds rfl -
      cases hc
    rw [List.cons_append, splitLines.eq_3 _ _ _ ne, if_neg (by simp [hc]), ih hcontent,
      List.reverse_cons, List.append_assoc]
    rfl

theorem splitLines_ending {current ending cs : List Char} (h : ending ∈ endings)
    (hcs : cs.head? ≠ some '\n') :
    splitLines current (ending ++ cs) = (current.reverse ++ ending) :: splitLines [] cs := by
  simp only [endings, List.mem_cons, List.not_mem_nil, or_false] at h
  obtain rfl | rfl | rfl := h
  · simp [splitLines, endsLine]
  · simp [splitLines]
  · have ne : ∀ ds, '\r' = '\r' → cs = '\n' :: ds → False := by
      rintro ds - rfl
      exact hcs rfl
    rw [List.singleton_append, splitLines.eq_3 _ _ _ ne]
    simp [endsLine]

/-- Lines that end are the lines of what they make up. -/
theorem splitLines_flatten {ls : List (List Char)} (h : ∀ l ∈ ls, IsEnded l) :
    splitLines [] ls.flatten = ls := by
  induction ls with
  | nil => rfl
  | cons l ls ih =>
    obtain ⟨⟨content, ending, rfl, plain, -, hending⟩, hls⟩ := List.forall_mem_cons.1 h
    have head : ls.flatten.head? ≠ some '\n' := by
      cases ls with
      | nil => simp
      | cons l ls =>
        obtain ⟨content, ending, rfl, plain, hne, -⟩ := hls l (List.mem_cons_self ..)
        obtain ⟨c, content, rfl⟩ := List.exists_cons_of_ne_nil hne
        have := plain c (List.mem_cons_self ..)
        rintro ⟨⟩
        cases this
    rw [List.flatten_cons, List.append_assoc, splitLines_plain plain, splitLines_ending hending head,
      ih hls, List.append_nil, List.reverse_reverse]

/-- The lines of a text tell it. -/
theorem join_lines (text : String) : String.join (lines text) = text := by
  rw [← String.toList_inj, String.toList_join, lines, List.flatMap_map]
  simp [flatten_splitLines]

end CallSweep.Diff
