/-
  What the paths of a walk ask for, step by step.

  A walk makes paths in two ways: it adds the name of an entry to the path of a directory
  (`Path.child`), and it spells a place out from the root (`Place.path`).  Both read back as they
  were made: `components` of the first are the steps of the directory and one step down, those of
  the second are the names of the place.

  `Path.base` are the steps of a path without the slash at its end, to which a name is added.  Every
  path asks for something, but for the empty one (`Path.components_ne_nil`).
-/
import CallSweep.Disk.Path

namespace CallSweep

namespace Path

/-! ## Stretches between slashes -/

theorem splitSlash_ne_nil (bytes : List UInt8) : splitSlash bytes ≠ [] := by
  cases bytes with
  | nil => simp [splitSlash]
  | cons b bs =>
    unfold splitSlash
    split
    · exact List.cons_ne_nil _ _
    · split <;> exact List.cons_ne_nil _ _

theorem splitSlash_cons_of_ne {b : UInt8} (hb : b ≠ slash) {bs piece : List UInt8}
    {pieces : List (List UInt8)} (split : splitSlash bs = piece :: pieces) :
    splitSlash (b :: bs) = (b :: piece) :: pieces := by
  rw [splitSlash, if_neg hb, split]

/-- A slash parts the stretches before it from those behind it. -/
theorem splitSlash_append_slash (before behind : List UInt8) :
    splitSlash (before ++ slash :: behind) = splitSlash before ++ splitSlash behind := by
  induction before with
  | nil => simp [splitSlash]
  | cons b bs ih =>
    rw [List.cons_append]
    by_cases hb : b = slash
    · rw [splitSlash, splitSlash, if_pos hb, if_pos hb, ih, List.cons_append]
    · obtain ⟨piece, pieces, split⟩ := List.exists_cons_of_ne_nil (splitSlash_ne_nil bs)
      rw [split, List.cons_append] at ih
      rw [splitSlash_cons_of_ne hb ih, splitSlash_cons_of_ne hb split, List.cons_append]

/-- The stretches have no slashes in them. -/
theorem slash_not_mem_of_mem_splitSlash {bytes piece : List UInt8}
    (mem : piece ∈ splitSlash bytes) : slash ∉ piece := by
  induction bytes generalizing piece with
  | nil =>
    rw [List.mem_singleton.1 mem]
    exact List.not_mem_nil
  | cons b bs ih =>
    by_cases hb : b = slash
    · rw [splitSlash, if_pos hb] at mem
      rcases List.mem_cons.1 mem with rfl | mem
      · exact List.not_mem_nil
      · exact ih mem
    · obtain ⟨first, pieces, split⟩ := List.exists_cons_of_ne_nil (splitSlash_ne_nil bs)
      rw [splitSlash_cons_of_ne hb split] at mem
      rw [split] at ih
      rcases List.mem_cons.1 mem with rfl | mem
      · rw [List.mem_cons, not_or]
        exact ⟨Ne.symm hb, ih List.mem_cons_self⟩
      · exact ih (List.mem_cons_of_mem _ mem)

/-- Behind the last slash something stands, unless the path ends there. -/
theorem exists_mem_splitSlash {bytes : List UInt8} (ne : bytes ≠ [])
    (last : bytes.getLast? ≠ some slash) : ∃ piece ∈ splitSlash bytes, piece ≠ [] := by
  induction bytes with
  | nil => exact absurd rfl ne
  | cons b bs ih =>
    by_cases hb : b = slash
    · have behind : bs ≠ [] := by
        rintro rfl
        exact last (congrArg some hb)
      rw [List.getLast?_cons_of_ne_nil behind] at last
      obtain ⟨piece, mem, some_⟩ := ih behind last
      rw [splitSlash, if_pos hb]
      exact ⟨piece, List.mem_cons_of_mem _ mem, some_⟩
    · obtain ⟨first, pieces, split⟩ := List.exists_cons_of_ne_nil (splitSlash_ne_nil bs)
      rw [splitSlash_cons_of_ne hb split]
      exact ⟨b :: first, List.mem_cons_self, List.cons_ne_nil b first⟩

theorem splitSlash_of_not_mem {bytes : List UInt8} (free : slash ∉ bytes) :
    splitSlash bytes = [bytes] := by
  induction bytes with
  | nil => rfl
  | cons b bs ih =>
    rw [List.mem_cons, not_or] at free
    exact splitSlash_cons_of_ne (Ne.symm free.1) (ih free.2)

/-- A path is its stretches between slashes, and has no others. -/
theorem splitSlash_eq_cons_iff {bytes piece : List UInt8} {pieces : List (List UInt8)} :
    splitSlash bytes = piece :: pieces ↔
      bytes = piece ++ pieces.flatMap (slash :: ·) ∧ ∀ q ∈ piece :: pieces, slash ∉ q := by
  constructor
  · intro split
    refine ⟨?_, fun q mem => slash_not_mem_of_mem_splitSlash (split ▸ mem)⟩
    induction bytes generalizing piece pieces with
    | nil =>
      cases split
      rfl
    | cons b bs ih =>
      obtain ⟨first, rest, below⟩ := List.exists_cons_of_ne_nil (splitSlash_ne_nil bs)
      by_cases hb : b = slash
      · rw [splitSlash, if_pos hb, below] at split
        cases split
        rw [ih below, hb]
        rfl
      · rw [splitSlash_cons_of_ne hb below] at split
        cases split
        rw [ih below]
        rfl
  · rintro ⟨rfl, free⟩
    induction pieces generalizing piece with
    | nil =>
      rw [List.flatMap_nil, List.append_nil]
      exact splitSlash_of_not_mem (free piece List.mem_cons_self)
    | cons next pieces ih =>
      rw [List.flatMap_cons, List.cons_append, splitSlash_append_slash,
        ih fun q mem => free q (List.mem_cons_of_mem _ mem),
        splitSlash_of_not_mem (free piece List.mem_cons_self)]
      rfl

/-! ## Steps -/

@[simp] theorem component?_name (name : Name) : component? name.bytes = some (.down name) := by
  rw [component?, if_neg name.isName.2.2.1, if_neg name.isName.2.2.2, dif_pos name.isName]

@[simp] theorem component?_nil : component? [] = none := by
  decide

theorem component?_ne_none {piece : List UInt8} (free : slash ∉ piece) (ne : piece ≠ []) :
    component? piece ≠ none := by
  unfold component?
  by_cases here : piece = [dot]
  · rw [if_pos here]
    exact Option.some_ne_none _
  rw [if_neg here]
  by_cases up : piece = [dot, dot]
  · rw [if_pos up]
    exact Option.some_ne_none _
  rw [if_neg up, dif_pos ⟨free, ne, here, up⟩]
  exact Option.some_ne_none _

/-- The steps of a path, a slash at its end apart. -/
def base (p : Path) : List Component := (splitSlash p.bytes).filterMap component?

theorem components_eq (p : Path) :
    p.components = p.base ++ if p.endsInSlash then [.slash] else [] := rfl

/-- Every path but the empty one asks for something. -/
theorem components_ne_nil {p : Path} (ne : p.bytes ≠ []) : p.components ≠ [] := by
  by_cases ends : p.endsInSlash = true
  · rw [components_eq, if_pos ends]
    exact List.append_ne_nil_of_right_ne_nil _ (List.cons_ne_nil _ _)
  · have last : p.bytes.getLast? ≠ some slash := fun last => ends (by rw [endsInSlash, last]; rfl)
    obtain ⟨piece, mem, some_⟩ := exists_mem_splitSlash ne last
    obtain ⟨c, asked⟩ := Option.ne_none_iff_exists'.1
      (component?_ne_none (slash_not_mem_of_mem_splitSlash mem) some_)
    rw [components_eq]
    refine List.append_ne_nil_of_left_ne_nil ?_ _
    exact List.ne_nil_of_mem (List.mem_filterMap.2 ⟨piece, mem, asked⟩)

theorem getLast?_append_name (bytes : List UInt8) (name : Name) :
    (bytes ++ name.bytes).getLast? ≠ some slash := by
  intro last
  rw [List.getLast?_append, List.getLast?_eq_some_getLast name.isName.2.1, Option.some_or,
    ← List.getLast?_eq_some_getLast name.isName.2.1] at last
  exact name.slash_not_mem (List.mem_of_getLast? last)

/-- A path that ends in a slash, without it. -/
theorem exists_of_endsInSlash {p : Path} (ends : p.endsInSlash = true) :
    ∃ bytes, p.bytes = bytes ++ [slash] := by
  rw [endsInSlash, beq_iff_eq] at ends
  exact List.getLast?_eq_some_iff.1 ends

/-! ## Children -/

theorem base_child (p : Path) (name : Name) : (p.child name).base = p.base ++ [.down name] := by
  have alone : splitSlash name.bytes = [name.bytes] := splitSlash_of_not_mem name.slash_not_mem
  unfold base child
  by_cases empty : p.bytes = []
  · rw [empty, if_pos (by simp), List.nil_append, alone]
    simp [splitSlash]
  · by_cases ends : p.endsInSlash = true
    · -- the slash at the end leaves one more stretch, which is empty
      obtain ⟨bytes, spelled⟩ := exists_of_endsInSlash ends
      rw [if_pos (by simp [ends]), spelled]
      show (splitSlash (bytes ++ [slash] ++ name.bytes)).filterMap component? = _
      rw [List.append_assoc, List.singleton_append, splitSlash_append_slash,
        splitSlash_append_slash, alone]
      simp [splitSlash]
    · rw [if_neg (by simp [empty, ends])]
      show (splitSlash (p.bytes ++ slash :: name.bytes)).filterMap component? = _
      rw [splitSlash_append_slash, alone]
      simp

theorem endsInSlash_child (p : Path) (name : Name) : (p.child name).endsInSlash = false := by
  rw [endsInSlash, beq_eq_false_iff_ne]
  unfold child
  split
  · exact getLast?_append_name p.bytes name
  · show (p.bytes ++ ([slash] ++ name.bytes)).getLast? ≠ some slash
    rw [← List.append_assoc]
    exact getLast?_append_name (p.bytes ++ [slash]) name

theorem components_child (p : Path) (name : Name) :
    (p.child name).components = p.base ++ [.down name] := by
  rw [components_eq, endsInSlash_child, base_child]
  simp

theorem child_ne_nil (p : Path) (name : Name) : (p.child name).bytes ≠ [] := by
  have := length_lt_length_child p name
  exact List.ne_nil_of_length_pos (by unfold length at this; omega)

theorem isAbsolute_child {p : Path} (ne : p.bytes ≠ []) (name : Name) :
    (p.child name).isAbsolute = p.isAbsolute := by
  obtain ⟨b, bs, spelled⟩ := List.exists_cons_of_ne_nil ne
  unfold isAbsolute child
  rw [spelled]
  split <;> rfl

/-! ## Absolute paths -/

theorem isAbsolute_iff {p : Path} : p.isAbsolute = true ↔ ∃ bytes, p.bytes = slash :: bytes := by
  rw [isAbsolute, beq_iff_eq, List.head?_eq_some_iff]

theorem ne_nil_of_isAbsolute {p : Path} (abs : p.isAbsolute = true) : p.bytes ≠ [] := by
  obtain ⟨bytes, spelled⟩ := isAbsolute_iff.1 abs
  rw [spelled]
  exact List.cons_ne_nil _ _

theorem isAbsolute_join {p : Path} (abs : p.isAbsolute = true) (q : Path) :
    (p.join q).isAbsolute = true := by
  obtain ⟨bytes, spelled⟩ := isAbsolute_iff.1 abs
  unfold join
  split
  · assumption
  · split <;> simp [isAbsolute_iff, spelled]

/-- A path that is seen from an absolute one is absolute, if it says anything. -/
theorem isAbsolute_absolute {cwd p : Path} (abs : cwd.isAbsolute = true)
    (ne : (absolute cwd p).bytes ≠ []) : (absolute cwd p).isAbsolute = true := by
  -- pieces that are joined leave the head of the path alone
  have joined (pieces : List (List UInt8)) {q : Path} (hq : q.isAbsolute = true) :
      (pieces.foldl (fun q piece => q.join ⟨piece⟩) q).isAbsolute = true := by
    induction pieces generalizing q with
    | nil => exact hq
    | cons piece pieces ih => exact ih (isAbsolute_join hq ⟨piece⟩)
  have based (two one : Bool) :
      (if two then (⟨[slash, slash]⟩ : Path) else if one then ⟨[slash]⟩ else cwd).isAbsolute =
        true := by
    cases two <;> cases one <;> first | exact abs | rfl
  by_cases empty : p.bytes.isEmpty = true
  · rw [absolute, if_pos empty, List.isEmpty_iff.1 empty] at ne
    exact absurd rfl ne
  · unfold absolute
    rw [if_neg empty]
    split
    · exact isAbsolute_join (joined _ (based _ _)) _
    · exact joined _ (based _ _)

end Path

/-! ## Spelled places -/

namespace Place

open CallSweep.Path

theorem isAbsolute_path (x : Place) : x.path.isAbsolute = true := by
  cases x <;> rfl

theorem path_of_ne_nil {x : Place} (hx : x ≠ []) :
    x.path = ⟨x.flatMap fun name => slash :: name.bytes⟩ := by
  cases x with
  | nil => exact absurd rfl hx
  | cons name names => rfl

theorem splitSlash_names (x : Place) :
    splitSlash (x.flatMap fun name => slash :: name.bytes) = [] :: x.map Name.bytes := by
  refine splitSlash_eq_cons_iff.2 ⟨by rw [List.flatMap_map]; rfl, fun piece mem => ?_⟩
  rcases List.mem_cons.1 mem with rfl | mem
  · exact List.not_mem_nil
  · obtain ⟨name, -, rfl⟩ := List.mem_map.1 mem
    exact name.slash_not_mem

theorem base_path (x : Place) : x.path.base = x.map .down := by
  have spelled : x.path.base = (x.map Name.bytes).filterMap component? := by
    cases x with
    | nil => rfl
    | cons name names =>
      rw [base, path_of_ne_nil (List.cons_ne_nil name names), splitSlash_names,
        List.filterMap_cons, component?_nil]
  have step : component? ∘ Name.bytes = some ∘ Component.down := funext component?_name
  rw [spelled, List.filterMap_map, step, ← List.filterMap_map]
  exact List.filterMap_some

/-- The path of a place leads down its names. -/
theorem components_path {x : Place} (hx : x ≠ []) : x.path.components = x.map .down := by
  have no_slash : x.path.endsInSlash = false := by
    rw [endsInSlash, beq_eq_false_iff_ne, path_of_ne_nil hx,
      ← List.dropLast_concat_getLast hx, List.flatMap_append, List.flatMap_singleton,
      ← List.singleton_append, ← List.append_assoc]
    exact getLast?_append_name _ _
  rw [components_eq, no_slash, base_path]
  simp

end Place

end CallSweep
