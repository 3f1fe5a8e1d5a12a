/-
  Reading a diff back.

  1. **The reader** (`readDiff`) expects the two names, and then takes the lines of the diff from
     the last to the first.  A line that says that an ending is missing takes it off the line in
     front of it; a line with ranges makes a hunk of what is behind it.

  2. **What is printed reads back** (`readLines_hunk`): a number is as long as its digits go, a line
     of a diff ends where the line that it shows does, and the first character of a line tells which
     of the three it is.
-/
import CallSweep.Diff.Unified
import CallSweep.Proofs.Diff.Lines
import CallSweep.Proofs.Diff.Patch

namespace CallSweep.Diff

/-! ## The reader -/

/-- What is behind some characters. -/
def readText (text cs : List Char) : Option (List Char) :=
  if text <+: cs then some (cs.drop text.length) else none

/-- A number and what is behind it. -/
def readNat (cs : List Char) : Option (Nat × List Char) :=
  let digits := cs.takeWhile Char.isDigit
  if digits = [] then none
  else some (Nat.ofDigitChars 10 digits 0, cs.dropWhile Char.isDigit)

/-- The length of a range, which is one if none is told. -/
def readLen : List Char → Option (Nat × List Char)
  | ',' :: cs => readNat cs
  | cs => some (1, cs)

/-- A range and what is behind it.  Its first number counts lines from one, unless the range is
    empty. -/
def readRange (cs : List Char) : Option (Range × List Char) := do
  let (n, cs) ← readNat cs
  let (len, cs) ← readLen cs
  if len = 0 then return (⟨n, 0⟩, cs)
  else if n = 0 then none
  else return (⟨n - 1, len⟩, cs)

/-- The ranges in front of a hunk. -/
def readRanges (cs : List Char) : Option (Range × Range) := do
  let (old, cs) ← readRange (← readText "@@ -".toList cs)
  let (new, cs) ← readRange (← readText " +".toList cs)
  if cs = " @@\n".toList then return (old, new) else none

/-- How a mark is written. -/
def Mark.char : Mark → Char
  | .keep => ' '
  | .delete => '-'
  | .insert => '+'

def readMark : Char → Option Mark
  | ' ' => some .keep
  | '-' => some .delete
  | '+' => some .insert
  | _ => none

/-- The line that takes the ending off the line in front of it. -/
def noEnding : List Char := "\\ No newline at end of file\n".toList

theorem noEnding_eq : noEnding = '\\' :: " No newline at end of file".toList ++ ['\n'] := by decide

/-- What has been read of a diff from its end on: whether the next line has no ending, the lines of
    a hunk whose ranges are still to come, and the hunks. -/
structure Reading where
  unended : Bool
  lines : List Line
  hunks : List Hunk

/-- Reads one more line. -/
def Reading.line (r : Reading) (l : List Char) : Option Reading :=
  match l with
  | [] => none
  | '\\' :: _ => if l = noEnding ∧ r.unended = false then some { r with unended := true } else none
  | '@' :: _ => do
    let (old, new) ← readRanges l
    if r.unended then none else return ⟨false, [], ⟨old, new, r.lines⟩ :: r.hunks⟩
  | c :: cs => do
    let mark ← readMark c
    if r.unended = false then return ⟨false, ⟨mark, String.ofList cs⟩ :: r.lines, r.hunks⟩
    else if cs.getLast? = some '\n' then
      return ⟨false, ⟨mark, String.ofList cs.dropLast⟩ :: r.lines, r.hunks⟩
    else none

def readLines : List (List Char) → Option Reading
  | [] => some ⟨false, [], []⟩
  | l :: ls => (readLines ls).bind (·.line l)

/-- The hunks of a diff of something that is named `label`. -/
def readDiff (label diff : String) : Option (List Hunk) := do
  let cs ← readText (fileHeader label).toList diff.toList
  let r ← readLines (splitLines [] cs)
  if r.unended = false ∧ r.lines = [] then return r.hunks else none

/-! ## Ranges -/

section Ranges

variable {cs : List Char}

theorem readText_append (text cs : List Char) : readText text (text ++ cs) = some cs := by
  rw [readText, if_pos (List.prefix_append ..), List.drop_left]

/-- The digits of a number end where no digit follows. -/
theorem readNat_append (n : Nat) (h : ∀ c ∈ cs.head?, c.isDigit = false) :
    readNat ((toString n).toList ++ cs) = some (n, cs) := by
  have digits : (toString n).toList = Nat.toDigits 10 n := Nat.toList_repr
  have all : ∀ c ∈ Nat.toDigits 10 n, c.isDigit = true :=
    fun c hc => Nat.isDigit_of_mem_toDigits (by decide) (by decide) hc
  have take : cs.takeWhile Char.isDigit = [] := by
    cases cs with
    | nil => rfl
    | cons c cs => rw [List.takeWhile_cons, h c rfl]; rfl
  have drop : cs.dropWhile Char.isDigit = cs := by
    cases cs with
    | nil => rfl
    | cons c cs => rw [List.dropWhile_cons, h c rfl]; rfl
  rw [readNat, digits, List.takeWhile_append_of_pos all, List.dropWhile_append_of_pos all, take,
    drop, List.append_nil, if_neg Nat.toDigits_ne_nil, Nat.ofDigitChars_ten_toDigits]

/-- The range from one line to another. -/
theorem readRange_append (start stop : Nat) (h : ∀ c ∈ cs.head?, c.isDigit = false ∧ c ≠ ',') :
    readRange ((range start stop).toList ++ cs) = some (⟨start, stop - start⟩, cs) := by
  have digits : ∀ c ∈ cs.head?, c.isDigit = false := fun c hc => (h c hc).1
  rw [range]
  match hlen : stop - start with
  | 0 =>
    change readRange ((toString start ++ ",0").toList ++ cs) = some (⟨start, 0⟩, cs)
    have zero : readNat ('0' :: cs) = some (0, cs) := readNat_append 0 digits
    rw [String.toList_append, List.append_assoc, readRange, readNat_append start (by simp)]
    simp [readLen, zero]
  | 1 =>
    change readRange ((toString (start + 1)).toList ++ cs) = some (⟨start, 1⟩, cs)
    have one : readLen cs = some (1, cs) := by
      cases cs with
      | nil => rfl
      | cons c cs =>
        rw [readLen]
        rintro ds ⟨⟩
        exact (h ',' rfl).2 rfl
    rw [readRange, readNat_append (start + 1) digits]
    simp [one]
  | n + 2 =>
    change readRange ((toString (start + 1) ++ "," ++ toString (n + 2)).toList ++ cs) =
      some (⟨start, n + 2⟩, cs)
    have len : readLen (',' :: ((toString (n + 2)).toList ++ cs)) = some (n + 2, cs) :=
      readNat_append (n + 2) digits
    rw [String.toList_append, String.toList_append, List.append_assoc, List.append_assoc, readRange,
      readNat_append (start + 1) (by simp)]
    have comma : ",".toList ++ ((toString (n + 2)).toList ++ cs) =
        ',' :: ((toString (n + 2)).toList ++ cs) := rfl
    rw [comma]
    simp only [Option.bind_eq_bind, Option.bind_some, len]
    simp

/-- The line in front of a hunk. -/
theorem readRanges_hunkHeader (first last : Block) :
    readRanges (hunkHeader first last).toList =
      some (⟨first.old, last.oldStop - first.old⟩, ⟨first.new, last.newStop - first.new⟩) := by
  simp only [hunkHeader, String.toList_append, List.append_assoc]
  rw [readRanges, readText_append]
  simp only [Option.bind_eq_bind, Option.bind_some]
  rw [readRange_append _ _ (by simp)]
  simp only [Option.bind_some]
  rw [readText_append]
  simp only [Option.bind_some]
  rw [readRange_append _ _ (by simp)]
  simp

theorem plain_range (start stop : Nat) : Plain (range start stop).toList := by
  have digits (n : Nat) : Plain (toString n).toList := by
    intro c hc
    have digit : c.isDigit = true :=
      Nat.isDigit_of_mem_toDigits (b := 10) (n := n) (by decide) (by decide)
        (by rwa [← Nat.toList_repr])
    rw [← Bool.not_eq_true, endsLine_iff]
    rintro (rfl | rfl) <;> cases digit
  rw [range]
  split
  · rw [String.toList_append]
    exact (digits _).append (by simp [Plain, endsLine])
  · exact digits _
  · rw [String.toList_append, String.toList_append]
    exact ((digits _).append (by simp [Plain, endsLine])).append (digits _)

theorem isEnded_hunkHeader (first last : Block) : IsEnded (hunkHeader first last).toList := by
  refine ⟨("@@ -" ++ range first.old last.oldStop ++ " +" ++ range first.new last.newStop ++
    " @@").toList, ['\n'], ?_, ?_, ?_, by simp [endings]⟩
  · simp [hunkHeader]
  · simp only [String.toList_append]
    have plain : Plain "@@ -".toList ∧ Plain " +".toList ∧ Plain " @@".toList := by
      simp [Plain, endsLine]
    exact (((plain.1.append (plain_range _ _)).append plain.2.1).append (plain_range _ _)).append
      plain.2.2
  · simp

end Ranges

/-! ## Lines of a diff -/

/-- The lines that a line of a diff is written in. -/
def Line.written (l : Line) : List (List Char) :=
  if isUnended l.text then [l.mark.char :: l.text.toList ++ ['\n'], noEnding]
  else [l.mark.char :: l.text.toList]

section Lines

variable {l : Line} {ls : List Line} {rest : List (List Char)} {r : Reading}

@[simp] theorem readMark_char (m : Mark) : readMark m.char = some m := by
  cases m <;> rfl

theorem isEnded_of_mem_written {w : List Char} (h : IsLine l.text.toList) (hw : w ∈ l.written) :
    IsEnded w := by
  have mark : endsLine l.mark.char = false := by cases l.mark <;> rfl
  rw [Line.written] at hw
  obtain ⟨unended, plain⟩ | ⟨ended, content, ending, htext, plain, hending⟩ := h.cases
  · rw [if_pos unended] at hw
    obtain rfl | rfl : w = _ ∨ w = noEnding := by simpa using hw
    · exact ⟨_, _, rfl, plain.cons mark, by simp, by simp [endings]⟩
    · refine ⟨" No newline at end of file".toList.cons '\\', ['\n'], ?_, ?_, ?_, by simp [endings]⟩
      · exact noEnding_eq
      · simp [Plain, endsLine]
      · simp
  · rw [if_neg (by simp [ended])] at hw
    obtain rfl : w = l.mark.char :: l.text.toList := by simpa using hw
    exact ⟨_, _, by rw [htext]; rfl, plain.cons mark, by simp, hending⟩

/-- A line with its mark, read where an ending is to go or not. -/
theorem Reading.line_char (r : Reading) (m : Mark) (cs : List Char) :
    r.line (m.char :: cs) =
      if r.unended = false then some ⟨false, ⟨m, String.ofList cs⟩ :: r.lines, r.hunks⟩
      else if cs.getLast? = some '\n' then
        some ⟨false, ⟨m, String.ofList cs.dropLast⟩ :: r.lines, r.hunks⟩
      else none := by
  cases m <;> simp [Reading.line, Mark.char, readMark]

/-- A line that is written reads back. -/
theorem readLines_written (hrest : readLines rest = some r) (hr : r.unended = false) :
    readLines (l.written ++ rest) = some { r with lines := l :: r.lines } := by
  obtain ⟨m, text⟩ := l
  rw [Line.written]
  split
  · have marker : readLines (noEnding :: rest) = some { r with unended := true } := by
      rw [readLines, hrest, Option.bind_some, noEnding_eq, List.cons_append, Reading.line,
        ← List.cons_append, ← noEnding_eq, if_pos ⟨rfl, hr⟩]
    rw [List.cons_append, List.singleton_append, readLines, marker, Option.bind_some,
      List.cons_append, Reading.line_char]
    simp [hr]
  · rw [List.singleton_append, readLines, hrest, Option.bind_some, Reading.line_char, if_pos hr]
    simp [hr]

theorem readLines_flatMap_written (hrest : readLines rest = some r) (hr : r.unended = false) :
    readLines (ls.flatMap Line.written ++ rest) = some { r with lines := ls ++ r.lines } := by
  induction ls with
  | nil => exact hrest
  | cons l ls ih =>
    rw [List.flatMap_cons, List.append_assoc, readLines_written ih hr]
    rfl

end Lines

/-! ## Hunks of a diff -/

section Hunks

variable (a b : Array String)

/-- The lines that a block shows. -/
def bodyOf (x : Block) : List Line :=
  if x.changed then
    (a.extract x.old x.oldStop).toList.map (⟨.delete, ·⟩) ++
      (b.extract x.new x.newStop).toList.map (⟨.insert, ·⟩)
  else (a.extract x.old x.oldStop).toList.map (⟨.keep, ·⟩)

/-- What is said of a hunk: where its first block begins and its last one ends, and its lines. -/
def Hunk.ofBlocks : List Block → Hunk
  | [] => ⟨⟨0, 0⟩, ⟨0, 0⟩, []⟩
  | first :: rest =>
    let last := (first :: rest).getLast (List.cons_ne_nil first rest)
    ⟨⟨first.old, last.oldStop - first.old⟩, ⟨first.new, last.newStop - first.new⟩,
      (first :: rest).flatMap (bodyOf a b)⟩

/-- The lines that a hunk is written in. -/
def hunkLines : List Block → List (List Char)
  | [] => []
  | first :: rest =>
    let last := (first :: rest).getLast (List.cons_ne_nil first rest)
    (hunkHeader first last).toList :: ((first :: rest).flatMap (bodyOf a b)).flatMap Line.written

variable {a b} {hunk : List Block} {hunks : List (List Block)}

theorem blockLines_eq (x : Block) :
    blockLines a b x =
      (bodyOf a b x).map fun l => markedLine (String.singleton l.mark.char) l.text := by
  rw [blockLines, bodyOf]
  split
  · rw [List.map_append, List.map_map, List.map_map]
    rfl
  · rw [List.map_map]
    rfl

theorem toList_markedLine (l : Line) :
    (markedLine (String.singleton l.mark.char) l.text).toList = l.written.flatten := by
  have unended : "\n\\ No newline at end of file\n".toList = '\n' :: noEnding := by decide
  rw [markedLine, Line.written]
  split
  · rw [String.toList_append, String.toList_append, unended]
    simp
  · simp

theorem flatMap_markedLine (ls : List Line) :
    (ls.map fun l => markedLine (String.singleton l.mark.char) l.text).flatMap String.toList =
      (ls.flatMap Line.written).flatten := by
  induction ls with
  | nil => rfl
  | cons l ls ih =>
    rw [List.map_cons, List.flatMap_cons, ih, toList_markedLine, List.flatMap_cons,
      List.flatten_append]

theorem toList_hunkText (hne : hunk.flatMap (bodyOf a b) ≠ []) :
    (hunkText a b hunk).toList = (hunkLines a b hunk).flatten := by
  have body : hunk.flatMap (blockLines a b) = (hunk.flatMap (bodyOf a b)).map
      fun l => markedLine (String.singleton l.mark.char) l.text := by
    rw [show blockLines a b = _ from funext blockLines_eq, List.map_flatMap]
  have lines : hunk.flatMap (blockLines a b) ≠ [] := by
    rw [body]
    exact fun none => hne (List.map_eq_nil_iff.1 none)
  cases hunk with
  | nil => exact absurd rfl hne
  | cons first hunk =>
    obtain ⟨line, lines', hlines'⟩ := List.exists_cons_of_ne_nil lines
    rw [hunkText, List.head?_cons, List.getLast?_eq_some_getLast (List.cons_ne_nil first hunk),
      hlines', hunkLines]
    dsimp only
    rw [← hlines', String.toList_append, String.toList_join, body, flatMap_markedLine,
      List.flatten_cons]

theorem readLines_hunkLines {rest : List (List Char)} {found : List Hunk} (hne : hunk ≠ [])
    (hrest : readLines rest = some ⟨false, [], found⟩) :
    readLines (hunkLines a b hunk ++ rest) = some ⟨false, [], .ofBlocks a b hunk :: found⟩ := by
  obtain ⟨first, hunk, rfl⟩ := List.exists_cons_of_ne_nil hne
  have at_ (last : Block) : ∃ cs, (hunkHeader first last).toList = '@' :: cs :=
    ⟨_, by simp only [hunkHeader, String.toList_append, List.append_assoc]; rfl⟩
  obtain ⟨cs, hcs⟩ := at_ ((first :: hunk).getLast (List.cons_ne_nil first hunk))
  rw [hunkLines, List.cons_append, readLines, readLines_flatMap_written hrest rfl, Option.bind_some,
    hcs, Reading.line, ← hcs, readRanges_hunkHeader, List.append_nil]
  rfl

/-- **What is written of some hunks reads back.** -/
theorem readLines_flatMap_hunkLines (hne : ∀ hunk ∈ hunks, hunk ≠ []) :
    readLines (hunks.flatMap (hunkLines a b)) = some ⟨false, [], hunks.map (Hunk.ofBlocks a b)⟩ := by
  induction hunks with
  | nil => rfl
  | cons hunk hunks ih =>
    obtain ⟨hhunk, hhunks⟩ := List.forall_mem_cons.1 hne
    exact readLines_hunkLines hhunk (ih hhunks)

theorem isEnded_of_mem_hunkLines {w : List Char}
    (hlines : ∀ l ∈ hunk.flatMap (bodyOf a b), IsLine l.text.toList) (hw : w ∈ hunkLines a b hunk) :
    IsEnded w := by
  cases hunk with
  | nil => cases hw
  | cons first hunk =>
    obtain rfl | hw := List.mem_cons.1 hw
    · exact isEnded_hunkHeader ..
    · obtain ⟨l, hl, hw⟩ := List.mem_flatMap.1 hw
      exact isEnded_of_mem_written (hlines l hl) hw

/-- The lines that a block shows are lines of the texts. -/
theorem isLine_of_mem_bodyOf {x : Block} {l : Line} (ha : ∀ t ∈ a.toList, IsLine t.toList)
    (hb : ∀ t ∈ b.toList, IsLine t.toList) (hl : l ∈ bodyOf a b x) : IsLine l.text.toList := by
  have mem {text : Array String} {start stop : Nat} {m : Mark}
      (h : l ∈ (text.extract start stop).toList.map (Line.mk m)) : l.text ∈ text.toList := by
    obtain ⟨t, ht, rfl⟩ := List.mem_map.1 h
    rw [Array.toList_extract, List.extract_eq_take_drop] at ht
    exact List.mem_of_mem_drop (List.mem_of_mem_take ht)
  rw [bodyOf] at hl
  split at hl
  · obtain hl | hl := List.mem_append.1 hl
    · exact ha _ (mem hl)
    · exact hb _ (mem hl)
  · exact ha _ (mem hl)

end Hunks

/-- **The diff of two texts reads back** to what is said of its hunks, if all of them show lines. -/
theorem readDiff_unified (label : String) {before after : String} {a b : Array String}
    {hunks : List (List Block)} (ha : a = (lines before).toArray) (hb : b = (lines after).toArray)
    (hhunks : hunksOf a b = hunks) (found : hunks ≠ [])
    (hne : ∀ hunk ∈ hunks, hunk.flatMap (bodyOf a b) ≠ []) :
    readDiff label (unified label before after) = some (hunks.map (Hunk.ofBlocks a b)) := by
  have chars : (unified label before after).toList =
      (fileHeader label).toList ++ (hunks.flatMap (hunkLines a b)).flatten := by
    have texts : (hunks.map (hunkText a b)).flatMap String.toList =
        (hunks.flatMap (hunkLines a b)).flatten := by
      rw [List.flatMap_map]
      clear hhunks found
      induction hunks with
      | nil => rfl
      | cons hunk hunks ih =>
        obtain ⟨hhunk, hhunks⟩ := List.forall_mem_cons.1 hne
        rw [List.flatMap_cons, List.flatMap_cons, List.flatten_append, toList_hunkText hhunk,
          ih hhunks]
    obtain ⟨hunk, hunks, rfl⟩ := List.exists_cons_of_ne_nil found
    rw [unified, ← ha, ← hb, hhunks, String.toList_append, String.toList_join, texts]
  -- each line written ends, so the text falls into just these lines again
  have ended : ∀ w ∈ hunks.flatMap (hunkLines a b), IsEnded w := by
    intro w hw
    obtain ⟨hunk, -, hw⟩ := List.mem_flatMap.1 hw
    refine isEnded_of_mem_hunkLines (fun l hl => ?_) hw
    obtain ⟨x, -, hl⟩ := List.mem_flatMap.1 hl
    refine isLine_of_mem_bodyOf (fun t ht => ?_) (fun t ht => ?_) hl
    · have ht : t ∈ lines before := by simpa [ha] using ht
      exact isLine_of_mem_lines ht
    · have ht : t ∈ lines after := by simpa [hb] using ht
      exact isLine_of_mem_lines ht
  have read : readLines (hunks.flatMap (hunkLines a b)) =
      some ⟨false, [], hunks.map (Hunk.ofBlocks a b)⟩ :=
    readLines_flatMap_hunkLines fun hunk hhunk none => hne hunk hhunk (by simp [none])
  rw [readDiff, chars, readText_append]
  simp [splitLines_flatten ended, read]

end CallSweep.Diff
