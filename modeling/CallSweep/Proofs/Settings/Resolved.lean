/-
  What a configuration is once a walk is made of it.

  Names are brought into form twice: `Settings.resolve` takes the blanks off and drops what is
  blank, and the walk's own parts, the pattern and the list of extensions, drop what says nothing to
  them.  Nothing that the second filter looks at may be left for it to do, or a configuration that
  was found to be in order comes to something else.

  1. **Tidy lists** (`Settings.mem_nonBlank_iff`) — their names are trimmed and not empty.

  2. **The list of extensions** (`Extensions.mem_suffixes_of_trimmed`) — each trimmed entry but a
     lone dot stands for one suffix, itself with a dot in front.

  3. **In force** (`Settings.inForce_of_resolve`) — callees, depth and extensions are in force as
     they were resolved, up to the lone dots.

  4. **The lone dot** (`Settings.resolve_lone_dot`) — it counts as an extension where one is
     required, and as none where one is used.
-/
import CallSweep.Proofs.Extensions
import CallSweep.Walk

namespace CallSweep

/-! ## Tidy lists -/

namespace Settings

/-- The names of a tidy list bear no blanks and are not empty. -/
theorem mem_nonBlank_iff {names : List String} {name : String} :
    name ∈ nonBlank names ↔ name ≠ "" ∧ ∃ given ∈ names, Text.trim given = name := by
  simp only [nonBlank, List.mem_filter, List.mem_map, decide_eq_true_eq]
  exact and_comm

theorem trim_of_mem_nonBlank {names : List String} {name : String} (mem : name ∈ nonBlank names) :
    Text.trim name = name := by
  obtain ⟨-, given, -, rfl⟩ := mem_nonBlank_iff.1 mem
  exact Text.trim_trim given

end Settings

/-! ## Extensions -/

namespace Extensions

/-- **Which suffixes are admitted**, for a list of trimmed entries: each entry's own, but for lone
    dots. -/
theorem mem_suffixes_of_trimmed {entries : List String}
    (trimmed : ∀ entry ∈ entries, Text.trim entry = entry ∧ entry ≠ "") {x : String} :
    x ∈ (ofEntries entries).suffixes ↔ ∃ entry ∈ entries, entry ≠ "." ∧ dotted entry = x := by
  have nothing : ("" : String).toList.head? ≠ some '.' := nofun
  rw [mem_suffixes_iff, List.mem_map]
  constructor
  · rintro ⟨more, entry, mem, rfl⟩
    rw [suffixOf, (trimmed entry mem).1] at more ⊢
    exact ⟨entry, mem, fun lone => more ((dotted_eq_append_iff nothing).2 (.inr lone)), rfl⟩
  · rintro ⟨entry, mem, more, rfl⟩
    refine ⟨fun lone => ?_, entry, mem, by rw [suffixOf, (trimmed entry mem).1]⟩
    rcases (dotted_eq_append_iff nothing).1 lone with blank | same
    · exact (trimmed entry mem).2 blank
    · exact more same

theorem isEmpty_iff_of_trimmed {entries : List String}
    (trimmed : ∀ entry ∈ entries, Text.trim entry = entry ∧ entry ≠ "") :
    (ofEntries entries).isEmpty = true ↔ ∀ entry ∈ entries, entry = "." := by
  rw [isEmpty, List.isEmpty_iff, List.eq_nil_iff_forall_not_mem]
  constructor
  · intro none_ entry mem
    by_contra more
    exact none_ _ ((mem_suffixes_of_trimmed trimmed).2 ⟨entry, mem, more, rfl⟩)
  · intro lone x mem
    obtain ⟨entry, mem, more, -⟩ := (mem_suffixes_of_trimmed trimmed).1 mem
    exact more (lone entry mem)

end Extensions

/-! ## In force -/

namespace Settings

/-- What `resolve` has seen to. -/
theorem resolve_eq_ok_iff {s : Settings} {c : Config} :
    s.resolve = .ok c ↔ c = s.complete ∧ c.callees ≠ [] ∧ c.extensions ≠ [] ∧
      c.maxDepth ≤ CallSweep.maxDepth ∧ c.maxFileSize ≠ 0 := by
  simp only [resolve]
  split_ifs with callees extensions deep size
  -- each refusal goes against the part that it is about
  · exact iff_of_false (by rintro ⟨⟩) fun ⟨same, ne, _⟩ => ne (same ▸ callees)
  · exact iff_of_false (by rintro ⟨⟩) fun ⟨same, _, ne, _⟩ => ne (same ▸ extensions)
  · exact iff_of_false (by rintro ⟨⟩) fun ⟨same, _, _, le, _⟩ => Nat.not_le.2 deep (same ▸ le)
  · exact iff_of_false (by rintro ⟨⟩) fun ⟨same, _, _, _, ne⟩ => ne (same ▸ size)
  · rw [Except.ok.injEq]
    constructor
    · rintro rfl
      exact ⟨rfl, callees, extensions, Nat.not_lt.1 deep, size⟩
    · rintro ⟨rfl, -⟩
      rfl

/-- **In force.**  The walk of a configuration that resolves looks for the callees that it names,
    of which there is one at least, down to the depth that it says, in the files that bear one of
    its extensions; what it does not take over is an extension that is no more than a dot. -/
theorem inForce_of_resolve {s : Settings} {c : Config} (resolved : s.resolve = .ok c) :
    (Plan.ofConfig c).pattern.callees = c.callees ∧ c.callees ≠ [] ∧
      (Plan.ofConfig c).pattern.depth = c.maxDepth ∧
      (∀ suffix, suffix ∈ (Plan.ofConfig c).extensions.suffixes ↔
        ∃ entry ∈ c.extensions, entry ≠ "." ∧ Extensions.dotted entry = suffix) ∧
      ((Plan.ofConfig c).extensions.isEmpty = true ↔ ∀ entry ∈ c.extensions, entry = ".") := by
  obtain ⟨rfl, callees, -, deep, -⟩ := resolve_eq_ok_iff.1 resolved
  have tidy : ∀ entry ∈ s.complete.extensions, Text.trim entry = entry ∧ entry ≠ "" :=
    fun entry mem => ⟨trim_of_mem_nonBlank mem, (mem_nonBlank_iff.1 mem).1⟩
  have kept : (Plan.ofConfig s.complete).pattern.callees = s.complete.callees := by
    refine List.filter_eq_self.2 fun name mem => ?_
    exact decide_eq_true (mem_nonBlank_iff.1 mem).1
  exact ⟨kept, callees, Nat.min_eq_left deep, fun suffix => Extensions.mem_suffixes_of_trimmed tidy,
    Extensions.isEmpty_iff_of_trimmed tidy⟩

/-- Where nothing is set, the walk looks for `console.log` in seven sorts of files. -/
theorem inForce_standard :
    empty.resolve = .ok Config.standard ∧
      (Plan.ofConfig Config.standard).pattern.callees = ["console.log"] ∧
      ((Plan.ofConfig Config.standard).extensions.isEmpty = true ↔
        ∀ entry ∈ Config.standard.extensions, entry = ".") := by
  have resolved : empty.resolve = .ok Config.standard := by decide +kernel
  obtain ⟨callees, -, -, -, extensions⟩ := inForce_of_resolve resolved
  exact ⟨resolved, callees, extensions⟩

/-- Settings whose only extension is a dot. -/
def loneDot : Settings := { empty with extensions := some ["."] }

/-- **A lone dot** is an extension where one is required.  The walk is left with none, and so with
    no file to sweep. -/
theorem resolve_lone_dot :
    ∃ c, loneDot.resolve = .ok c ∧ c.extensions = ["."] ∧
      (Plan.ofConfig c).extensions.isEmpty = true ∧
      ∀ p, (Plan.ofConfig c).extensions.admits p = false := by
  have resolved : loneDot.resolve = .ok loneDot.complete := by decide +kernel
  have extensions : loneDot.complete.extensions = ["."] := by decide +kernel
  have none_ : (Plan.ofConfig loneDot.complete).extensions.isEmpty = true := by decide +kernel
  exact ⟨_, resolved, extensions, none_, Extensions.admits_of_isEmpty none_⟩

end Settings

end CallSweep
