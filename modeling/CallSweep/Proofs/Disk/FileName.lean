/-
  The file name of a path and its extension, as they are spelled.

  `Path.fileName?` and `Path.extension?` take a path apart.  Here it is said what they find, by how
  the bytes of the path are made up.

  1. **File names** (`Path.fileName?_eq_some_iff`) — the name stands at the head of the path or
     behind a slash.  Behind it the path only asks for the place itself: `Path.Idle` are slashes,
     each with a dot behind it or without.

  2. **Extensions** (`Path.extension?_eq_some_iff`) — the file name ends in a dot and the extension,
     which has no dot in it; and something stands in front of the dot.
-/
import Mathlib.Data.List.TakeWhile
import CallSweep.Proofs.Disk.Components

namespace CallSweep

namespace Path

/-! ## File names -/

/-- Whether a stretch asks for no step, because it is empty or stands for the place itself. -/
def IdlePiece (piece : List UInt8) : Prop := piece = [] ∨ piece = [dot]

/-- Whether some bytes behind a name ask for no step: a run of slashes, with dots behind some of
    them. -/
def Idle (bytes : List UInt8) : Prop :=
  ∃ pieces : List (List UInt8), bytes = pieces.flatMap (slash :: ·) ∧ ∀ piece ∈ pieces,
    IdlePiece piece

/-- Whether a name may begin behind some bytes. -/
def BeforeName (front : List UInt8) : Prop := front = [] ∨ front.getLast? = some slash

/-- The step that a stretch asks for. -/
def step? (piece : List UInt8) : Option Component :=
  (component? piece).filter fun c => c ≠ .here && c ≠ .slash

theorem steps_eq (p : Path) : p.steps = (splitSlash p.bytes).filterMap step? := by
  have at_end : (if p.endsInSlash then [Component.slash] else []).filter
      (fun c => c ≠ .here && c ≠ .slash) = [] := by
    split <;> rfl
  rw [steps, components_eq, List.filter_append, at_end, List.append_nil, base,
    List.filter_filterMap]
  rfl

theorem step?_name (name : Name) : step? name.bytes = some (.down name) := by
  rw [step?, component?_name]
  rfl

theorem eq_of_step?_eq_down {piece : List UInt8} {name : Name}
    (asked : step? piece = some (.down name)) : piece = name.bytes := by
  obtain ⟨asked, -⟩ := Option.filter_eq_some_iff.1 asked
  unfold component? at asked
  split at asked
  · cases asked
  split at asked
  · cases asked
  split at asked
  · cases asked
    rfl
  · cases asked

theorem step?_eq_none_iff {piece : List UInt8} (free : slash ∉ piece) :
    step? piece = none ↔ IdlePiece piece := by
  by_cases empty : piece = []
  · subst empty
    exact iff_of_true (by decide) (.inl rfl)
  by_cases here : piece = [dot]
  · subst here
    exact iff_of_true (by decide) (.inr rfl)
  refine iff_of_false (fun nothing => ?_) (fun idle => idle.elim empty here)
  unfold step? component? at nothing
  rw [if_neg here] at nothing
  by_cases up : piece = [dot, dot]
  · rw [if_pos up] at nothing
    cases nothing
  · rw [if_neg up, dif_pos ⟨free, empty, here, up⟩] at nothing
    cases nothing

/-- The file name is the last stretch that asks for anything. -/
theorem fileName?_eq_some_iff_stretches {p : Path} {name : Name} :
    p.fileName? = some name ↔ ∃ before behind,
      splitSlash p.bytes = before ++ name.bytes :: behind ∧ ∀ piece ∈ behind, IdlePiece piece := by
  have last : p.fileName? = some name ↔ p.steps.getLast? = some (.down name) := by
    unfold fileName?
    split <;> simp_all
  rw [last, steps_eq, List.getLast?_eq_some_iff]
  constructor
  · rintro ⟨earlier, steps⟩
    obtain ⟨before, rest, stretches, -, one⟩ := List.filterMap_eq_append_iff.1 steps
    obtain ⟨idle, piece, behind, rfl, -, asked, nothing⟩ := List.filterMap_eq_cons_iff.1 one
    obtain rfl := eq_of_step?_eq_down asked
    refine ⟨before ++ idle, behind, by rw [stretches, List.append_assoc], fun piece mem => ?_⟩
    have there : piece ∈ splitSlash p.bytes := by
      rw [stretches]
      simp [mem]
    exact (step?_eq_none_iff (slash_not_mem_of_mem_splitSlash there)).1
      (List.filterMap_eq_nil_iff.1 nothing piece mem)
  · rintro ⟨before, behind, stretches, idle⟩
    have nothing : behind.filterMap step? = [] := by
      rw [List.filterMap_eq_nil_iff]
      intro piece mem
      rcases idle piece mem with rfl | rfl <;> decide
    refine ⟨before.filterMap step?, ?_⟩
    rw [stretches, List.filterMap_append, List.filterMap_cons, step?_name, nothing]

/-- **File names** — a path has one if it ends in it, up to what asks for no step, and there it is
    the first thing or stands behind a slash. -/
theorem fileName?_eq_some_iff {p : Path} {name : Name} :
    p.fileName? = some name ↔
      ∃ front idle, p.bytes = front ++ name.bytes ++ idle ∧ BeforeName front ∧ Idle idle := by
  rw [fileName?_eq_some_iff_stretches]
  constructor
  · rintro ⟨before, behind, stretches, idle⟩
    cases before with
    | nil =>
      obtain ⟨spelled, -⟩ := splitSlash_eq_cons_iff.1 stretches
      exact ⟨[], _, spelled, .inl rfl, behind, rfl, idle⟩
    | cons first before =>
      rw [List.cons_append] at stretches
      obtain ⟨spelled, -⟩ := splitSlash_eq_cons_iff.1 stretches
      refine ⟨first ++ before.flatMap (slash :: ·) ++ [slash], _, ?_, .inr (by simp), behind, rfl,
        idle⟩
      rw [spelled, List.flatMap_append, List.flatMap_cons]
      simp only [List.append_assoc, List.cons_append, List.nil_append]
  · rintro ⟨front, _, spelled, opens_, behind, rfl, idle⟩
    have stretches : splitSlash (name.bytes ++ behind.flatMap (slash :: ·)) =
        name.bytes :: behind := by
      refine splitSlash_eq_cons_iff.2 ⟨rfl, fun piece mem => ?_⟩
      rcases List.mem_cons.1 mem with rfl | mem
      · exact name.slash_not_mem
      · rcases idle piece mem with rfl | rfl <;> decide
    rcases opens_ with rfl | opens_
    · exact ⟨[], behind, by rw [spelled, List.nil_append, stretches]; rfl, idle⟩
    · obtain ⟨dir, rfl⟩ := List.getLast?_eq_some_iff.1 opens_
      refine ⟨splitSlash dir, behind, ?_, idle⟩
      rw [spelled, List.append_assoc, List.append_assoc, List.singleton_append,
        splitSlash_append_slash, stretches]

/-! ## Extensions -/

/-- The bytes behind the last dot of some bytes, unless that dot is the first of them. -/
def afterDot? (bytes : List UInt8) : Option (List UInt8) :=
  match bytes.reverse.dropWhile (· ≠ dot) with
  | _ :: _ :: _ => some (bytes.reverse.takeWhile (· ≠ dot)).reverse
  | _ => none

theorem extension?_eq (p : Path) : p.extension? = p.fileName?.bind fun name =>
    afterDot? name.bytes := by
  cases found : p.fileName? <;> simp only [extension?, found] <;> rfl

theorem afterDot?_eq_some_iff {bytes x : List UInt8} :
    afterDot? bytes = some x ↔ ∃ stem, bytes = stem ++ dot :: x ∧ stem ≠ [] ∧ dot ∉ x := by
  constructor
  · intro after
    have whole := List.takeWhile_append_dropWhile (p := (· ≠ dot)) (l := bytes.reverse)
    have undotted : dot ∉ bytes.reverse.takeWhile (· ≠ dot) := by
      intro mem
      have taken := List.mem_takeWhile_imp (p := fun b : UInt8 => decide (b ≠ dot)) mem
      exact of_decide_eq_true taken rfl
    unfold afterDot? at after
    split at after
    · next d b rest back =>
      -- the part behind is cut at a dot
      have cut : d = dot := by
        have head := List.head?_dropWhile_not (· ≠ dot) bytes.reverse
        rw [back] at head
        simpa using head
      subst cut
      cases after
      refine ⟨(b :: rest).reverse, ?_, ?_, fun mem => undotted (List.mem_reverse.1 mem)⟩
      · have spelled := congrArg List.reverse whole
        rw [back, List.reverse_append, List.reverse_reverse, List.reverse_cons,
          List.append_assoc] at spelled
        exact spelled.symm
      · rw [Ne, List.reverse_eq_nil_iff]
        exact List.cons_ne_nil _ _
    · cases after
  · rintro ⟨stem, rfl, some_, undotted⟩
    have plain : ∀ b ∈ x.reverse, decide (b ≠ dot) = true := by
      intro b mem
      rw [List.mem_reverse] at mem
      exact decide_eq_true fun same => undotted (same ▸ mem)
    obtain ⟨b, rest, back⟩ := List.exists_cons_of_ne_nil (mt List.reverse_eq_nil_iff.1 some_)
    have reversed : (stem ++ dot :: x).reverse = x.reverse ++ dot :: b :: rest := by
      rw [List.reverse_append, List.reverse_cons, back, List.append_assoc]
      rfl
    rw [afterDot?, reversed, List.dropWhile_append_of_pos plain, List.takeWhile_append_of_pos plain]
    simp

/-- Whether the bytes `x` are the extension of a path: its file name ends in a dot and `x`, where
    that dot is the last one and not the first character. -/
def HasExtension (p : Path) (x : List UInt8) : Prop :=
  ∃ front stem idle, p.bytes = front ++ (stem ++ dot :: x) ++ idle ∧ BeforeName front ∧ Idle idle ∧
    IsName (stem ++ dot :: x) ∧ stem ≠ [] ∧ dot ∉ x

/-- **Extensions** — what is found is what the path ends in. -/
theorem extension?_eq_some_iff {p : Path} {x : List UInt8} :
    p.extension? = some x ↔ p.HasExtension x := by
  rw [extension?_eq, Option.bind_eq_some_iff]
  constructor
  · rintro ⟨name, found, after⟩
    obtain ⟨stem, spelled, some_, undotted⟩ := afterDot?_eq_some_iff.1 after
    obtain ⟨front, idle, whole, opens_, rest⟩ := fileName?_eq_some_iff.1 found
    rw [spelled] at whole
    exact ⟨front, stem, idle, whole, opens_, rest, spelled ▸ name.isName, some_, undotted⟩
  · rintro ⟨front, stem, idle, whole, opens_, rest, isName, some_, undotted⟩
    exact ⟨⟨_, isName⟩, fileName?_eq_some_iff.2 ⟨front, idle, whole, opens_, rest⟩,
      afterDot?_eq_some_iff.2 ⟨stem, rfl, some_, undotted⟩⟩

end Path

end CallSweep
