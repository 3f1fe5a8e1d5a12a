/-
  The configurations that settings resolve to, as a normal form.

  `Settings.resolve` puts the names into form and then checks what is left of them.  What it accepts
  can therefore be said of the settings as they are given, and what it returns is given back by
  it unchanged.

  1. **Given values** (`Settings.given`) — a field as a layer sets it, or else as it is by standard.

  2. **Tidy lists** (`Settings.nonBlank_eq`) — the names that show something, trimmed, in the order
     in which they are given.

  3. **Completion** (`Settings.complete_ofConfig_complete`) — what is once complete is so for good.

  4. **Resolution** (`Settings.resolve_canonical`) — all of it together.
-/
import CallSweep.Proofs.Settings.Layers
import CallSweep.Proofs.Settings.Resolved

namespace CallSweep

namespace Text

/-- Whether there is something else than blanks in a text. -/
def Shows (s : String) : Prop := ∃ c ∈ s.toList, isBlank c = false

instance (s : String) : Decidable (Shows s) :=
  List.decidableBEx (fun c => isBlank c = false) s.toList

theorem shows_iff {s : String} : Shows s ↔ trim s ≠ "" := by
  rw [Ne, trim_eq_empty_iff]
  simp [Shows]

end Text

/-- Configurations that have the same in each field are the same. -/
theorem Config.ext_get {c c' : Config} (same : ∀ f, c.get f = c'.get f) : c = c' := by
  cases c
  cases c'
  simp only [Config.mk.injEq]
  exact ⟨same .callees, same .extensions, same .maxDepth, same .maxFileSize, same .dryRun,
    same .atomicWrite, same .skipDirs⟩

namespace Settings

/-! ## Given values -/

/-- What a field comes to before it is tidied. -/
def given (s : Settings) (f : Field) : f.Value := (s.get f).getD (Config.standard.get f)

theorem given_ofConfig (c : Config) (f : Field) : (ofConfig c).given f = c.get f := by
  cases f <;> rfl

/-! ## Tidy lists -/

theorem nonBlank_eq (names : List String) :
    nonBlank names = (names.filter fun name => Text.Shows name).map Text.trim := by
  rw [nonBlank, List.filter_map]
  congr 1
  refine List.filter_congr fun name _ => ?_
  exact decide_eq_decide.2 Text.shows_iff.symm

theorem nonBlank_ne_nil_iff {names : List String} :
    nonBlank names ≠ [] ↔ ∃ name ∈ names, Text.Shows name := by
  rw [nonBlank_eq, Ne, List.map_eq_nil_iff, List.filter_eq_nil_iff]
  simp

/-- A list that is tidy is left as it is. -/
theorem nonBlank_nonBlank (names : List String) : nonBlank (nonBlank names) = nonBlank names := by
  have trimmed : (nonBlank names).map Text.trim = nonBlank names := by
    conv_rhs => rw [← List.map_id (nonBlank names)]
    exact List.map_congr_left fun name mem => trim_of_mem_nonBlank mem
  rw [nonBlank, trimmed]
  exact List.filter_eq_self.2 fun name mem => decide_eq_true (mem_nonBlank_iff.1 mem).1

theorem Field.tidy_tidy (f : Field) (v : f.Value) : f.tidy (f.tidy v) = f.tidy v := by
  cases f with
  | callees | extensions | skipDirs => exact nonBlank_nonBlank v
  | maxDepth | maxFileSize | dryRun | atomicWrite => rfl

/-! ## Completion -/

/-- A complete configuration, taken for settings, has nothing to be filled in or tidied. -/
theorem complete_ofConfig_complete (s : Settings) : (ofConfig s.complete).complete = s.complete := by
  refine Config.ext_get fun f => ?_
  calc (ofConfig s.complete).complete.get f
    _ = f.tidy ((ofConfig s.complete).given f) := get_complete _ f
    _ = f.tidy (s.complete.get f) := by rw [given_ofConfig]
    _ = f.tidy (f.tidy (s.given f)) := by rw [get_complete]; rfl
    _ = f.tidy (s.given f) := f.tidy_tidy _
    _ = s.complete.get f := (get_complete s f).symm

theorem resolve_ofConfig {s : Settings} {c : Config} (resolved : s.resolve = .ok c) :
    (ofConfig c).resolve = .ok c := by
  obtain ⟨rfl, fit⟩ := resolve_eq_ok_iff.1 resolved
  exact resolve_eq_ok_iff.2 ⟨(complete_ofConfig_complete s).symm, fit⟩

/-! ## Resolution -/

/-- Which settings resolve. -/
theorem exists_resolve_iff {s : Settings} :
    (∃ c, s.resolve = .ok c) ↔
      (∃ name ∈ s.given .callees, Text.Shows name) ∧
        (∃ entry ∈ s.given .extensions, Text.Shows entry) ∧
        s.given .maxDepth ≤ CallSweep.maxDepth ∧ 0 < s.given .maxFileSize := by
  rw [← nonBlank_ne_nil_iff, ← nonBlank_ne_nil_iff, Nat.pos_iff_ne_zero]
  simp only [resolve_eq_ok_iff, exists_eq_left]
  rfl

/-- **Resolution.**  Settings resolve exactly if, with the standard values filled in, there is a
    callee and an extension that show something, the depth is at most 64 and files of some size are
    allowed.

    The lists of what they resolve to hold the names that show something, trimmed and in the order
    in which they are given; so no name is empty, and each is its own trimmed form.  The other fields
    are as they are given.  Taken for settings, the configuration resolves to itself. -/
theorem resolve_canonical (s : Settings) :
    ((∃ c, s.resolve = .ok c) ↔
      (∃ name ∈ s.given .callees, Text.Shows name) ∧
        (∃ entry ∈ s.given .extensions, Text.Shows entry) ∧
        s.given .maxDepth ≤ 64 ∧ 0 < s.given .maxFileSize) ∧
      ∀ c, s.resolve = .ok c →
        (∀ name ∈ c.callees ++ c.extensions ++ c.skipDirs,
          name ≠ "" ∧ Text.trim name = name) ∧
        c.callees = ((s.given .callees).filter fun name => Text.Shows name).map Text.trim ∧
        c.extensions = ((s.given .extensions).filter fun name => Text.Shows name).map Text.trim ∧
        c.skipDirs = ((s.given .skipDirs).filter fun name => Text.Shows name).map Text.trim ∧
        c.maxDepth = s.given .maxDepth ∧ c.maxFileSize = s.given .maxFileSize ∧
        c.dryRun = s.given .dryRun ∧ c.atomicWrite = s.given .atomicWrite ∧
        (ofConfig c).resolve = .ok c := by
  refine ⟨exists_resolve_iff, fun c resolved => ?_⟩
  have again := resolve_ofConfig resolved
  obtain ⟨rfl, -⟩ := resolve_eq_ok_iff.1 resolved
  refine ⟨fun name mem => ?_, nonBlank_eq _, nonBlank_eq _, nonBlank_eq _, rfl, rfl, rfl, rfl,
    again⟩
  have tidy {names : List String} (mem : name ∈ nonBlank names) :
      name ≠ "" ∧ Text.trim name = name :=
    ⟨(mem_nonBlank_iff.1 mem).1, trim_of_mem_nonBlank mem⟩
  rw [List.mem_append, List.mem_append] at mem
  exact mem.elim (·.elim tidy tidy) tidy

/-- Settings with blank names and blanks around names. -/
def padded : Settings :=
  { empty with
    callees := some [" ", "log "], extensions := some ["\u3000.js\t", ""], maxDepth := some 64,
    skipDirs := some ["\n", " dist"] }

/-- Blanks of any script are taken off, and the greatest depth is allowed. -/
theorem resolve_canonical_padded :
    ∃ c, padded.resolve = .ok c ∧ c.callees = ["log"] ∧ c.extensions = [".js"] ∧
      c.skipDirs = ["dist"] ∧ c.maxDepth = 64 ∧ (ofConfig c).resolve = .ok c := by
  obtain ⟨resolves, resolved⟩ := resolve_canonical padded
  obtain ⟨c, found⟩ := resolves.2 ⟨⟨"log ", by decide, by decide +kernel⟩,
    ⟨"\u3000.js\t", by decide, by decide +kernel⟩, by decide, by decide⟩
  obtain ⟨-, callees, extensions, skipDirs, depth, -, -, -, again⟩ := resolved c found
  have names : ((padded.given .callees).filter fun name => Text.Shows name).map Text.trim =
      ["log"] := by decide +kernel
  have entries : ((padded.given .extensions).filter fun name => Text.Shows name).map Text.trim =
      [".js"] := by decide +kernel
  have dirs : ((padded.given .skipDirs).filter fun name => Text.Shows name).map Text.trim =
      ["dist"] := by decide +kernel
  exact ⟨c, found, callees.trans names, extensions.trans entries, skipDirs.trans dirs, depth,
    again⟩

end Settings

end CallSweep
