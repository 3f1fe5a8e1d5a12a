/-
  What a list of extensions says.

  An entry can be spelled in several ways.  What it says is `Extensions.suffixOf`: the entry without
  the blanks around it and with a dot in front.  A blank entry says no more than a lone dot does,
  and that is nothing.

  1. **Entries** (`Extensions.suffixOf_suffixOf`) — a suffix, read as an entry, says itself.

  2. **Lists** (`Extensions.suffixes_append_singleton`) — a list keeps what its last entry says, if
     that is something and no earlier entry says it.  What holds of every list is shown along
     this.

  3. **Paths** (`Extensions.admits_iff`) — the path has an extension that stands on the list.

  4. **As written** (`Extensions.admits_as_written`) — no more than what the entries say makes a
     difference.
-/
import CallSweep.Extensions
import CallSweep.Proofs.Disk.FileName
import CallSweep.Proofs.Text.Trimming

namespace CallSweep

namespace Extensions

/-! ## Entries -/

/-- An entry with a dot in front. -/
def dotted (entry : String) : String :=
  if entry.toList.head? = some '.' then entry else "." ++ entry

/-- The suffix that an entry says, which is a lone dot if it says none. -/
def suffixOf (entry : String) : String := dotted (Text.trim entry)

theorem head?_dotted (entry : String) : (dotted entry).toList.head? = some '.' := by
  unfold dotted
  split
  · assumption
  · rw [String.toList_append]
    rfl

theorem dotted_dotted (entry : String) : dotted (dotted entry) = dotted entry :=
  if_pos (head?_dotted entry)

/-- The dot in front is the only thing that two entries for one suffix differ in. -/
theorem dotted_eq_append_iff {entry x : String} (undotted : x.toList.head? ≠ some '.') :
    dotted entry = "." ++ x ↔ entry = x ∨ entry = "." ++ x := by
  unfold dotted
  split
  · rename_i dot
    refine ⟨.inr, ?_⟩
    rintro (rfl | same)
    · exact absurd dot undotted
    · exact same
  · rename_i plain
    have behind : "." ++ entry = "." ++ x ↔ entry = x := by
      rw [← String.toList_inj, ← String.toList_inj, String.toList_append, String.toList_append,
        List.append_cancel_left_eq]
    rw [behind]
    refine ⟨.inl, ?_⟩
    rintro (same | rfl)
    · exact same
    · rw [String.toList_append] at plain
      exact absurd rfl plain

theorem trim_dotted {entry : String} (trimmed : Text.trim entry = entry) :
    Text.trim (dotted entry) = dotted entry := by
  unfold dotted
  split
  · exact trimmed
  · have chars : Text.trimChars entry.toList = entry.toList := by
      rw [← String.toList_ofList (l := Text.trimChars entry.toList)]
      exact congrArg String.toList trimmed
    have shown : ("." ++ entry).toList = '.' :: entry.toList := String.toList_append
    rw [Text.trim, shown, Text.trimChars_cons (by decide) chars, ← shown, String.ofList_toList]

theorem suffixOf_suffixOf (entry : String) : suffixOf (suffixOf entry) = suffixOf entry := by
  rw [suffixOf, suffixOf, trim_dotted (Text.trim_trim entry), dotted_dotted]

theorem toList_dotted_of_ne {entry : String} (plain : entry.toList.head? ≠ some '.') :
    (dotted entry).toList = '.' :: entry.toList := by
  rw [dotted, if_neg plain, String.toList_append]
  rfl

/-- An entry is taken as what it says, if it says anything. -/
theorem normal?_eq (entry : String) :
    normal? entry = if suffixOf entry = "." then none else some (suffixOf entry) := by
  have lone : suffixOf entry = "." ↔ (dotted (Text.trim entry)).toList = ['.'] :=
    String.toList_inj.symm
  have spelled : suffixOf entry = String.ofList (dotted (Text.trim entry)).toList :=
    String.ofList_toList.symm
  rw [normal?, if_congr lone rfl (congrArg some spelled)]
  generalize Text.trim entry = entry
  split
  · next chars =>
    have plain : entry.toList.head? ≠ some '.' := by
      rw [chars]
      exact nofun
    rw [toList_dotted_of_ne plain, chars]
    rfl
  · next chars =>
    have dot : dotted entry = entry := if_pos (by rw [chars]; rfl)
    rw [dot, chars]
    rfl
  · next cs more chars =>
    have dot : dotted entry = entry := if_pos (by rw [chars]; rfl)
    rw [dot, chars, if_neg fun lone => more (List.cons_inj_right _ |>.1 lone)]
  · next some_ _ undotted =>
    have plain : entry.toList.head? ≠ some '.' := fun dot =>
      (List.head?_eq_some_iff.1 dot).elim undotted
    rw [toList_dotted_of_ne plain, if_neg fun lone => some_ (List.cons_inj_right _ |>.1 lone)]

/-! ## Lists -/

theorem mem_insert {suffixes : List String} {suffix x : String} :
    x ∈ insert suffixes suffix ↔ x ∈ suffixes ∨ x = suffix := by
  unfold insert
  split
  · rename_i there
    refine ⟨.inl, ?_⟩
    rintro (h | rfl)
    · exact h
    · exact there
  · rw [List.mem_append, List.mem_singleton]

/-- What one more entry adds to a list. -/
theorem suffixes_append_singleton (entries : List String) (entry : String) :
    (ofEntries (entries ++ [entry])).suffixes =
      if suffixOf entry = "." then (ofEntries entries).suffixes
      else insert (ofEntries entries).suffixes (suffixOf entry) := by
  show ((entries ++ [entry]).filterMap normal?).foldl insert [] = _
  rw [List.filterMap_append, List.foldl_append]
  by_cases lone : suffixOf entry = "."
  · have nothing : [entry].filterMap normal? = [] := by
      rw [List.filterMap_cons_none (by rw [normal?_eq, if_pos lone]), List.filterMap_nil]
    rw [nothing, if_pos lone, List.foldl_nil]
    rfl
  · have one : [entry].filterMap normal? = [suffixOf entry] := by
      rw [List.filterMap_cons_some (by rw [normal?_eq, if_neg lone]), List.filterMap_nil]
    rw [one, if_neg lone, List.foldl_cons, List.foldl_nil]
    rfl

/-- **Which suffixes stand on a list**: the ones that its entries say. -/
theorem mem_suffixes_iff {entries : List String} {suffix : String} :
    suffix ∈ (ofEntries entries).suffixes ↔ suffix ≠ "." ∧ suffix ∈ entries.map suffixOf := by
  induction entries using List.reverseRecOn with
  | nil =>
    have nothing : (ofEntries []).suffixes = [] := rfl
    simp [nothing]
  | append_singleton entries entry ih =>
    rw [suffixes_append_singleton, List.map_append, List.mem_append, List.map_singleton,
      List.mem_singleton]
    split
    · next lone =>
      rw [ih, lone]
      refine and_congr_right fun more => ?_
      rw [or_iff_left more]
    · next more =>
      rw [mem_insert, ih]
      constructor
      · rintro (⟨other, mem⟩ | rfl)
        · exact ⟨other, .inl mem⟩
        · exact ⟨more, .inr rfl⟩
      · rintro ⟨other, mem | same⟩
        · exact .inl ⟨other, mem⟩
        · exact .inr same

/-- **In which order they stand there**: in the order of the entries that are the first to say
    them. -/
theorem pairwise_suffixes (entries : List String) :
    (ofEntries entries).suffixes.Pairwise fun a b =>
      (entries.map suffixOf).idxOf a < (entries.map suffixOf).idxOf b := by
  induction entries using List.reverseRecOn with
  | nil => exact List.Pairwise.nil
  | append_singleton entries entry ih =>
    -- what is said by an earlier entry is first said where it was
    have said {s : String} (mem : s ∈ (ofEntries entries).suffixes) :
        ((entries ++ [entry]).map suffixOf).idxOf s = (entries.map suffixOf).idxOf s := by
      rw [List.map_append, List.idxOf_append_of_mem (mem_suffixes_iff.1 mem).2]
    have earlier : (ofEntries entries).suffixes.Pairwise fun a b =>
        ((entries ++ [entry]).map suffixOf).idxOf a <
          ((entries ++ [entry]).map suffixOf).idxOf b := by
      refine ih.imp_of_mem fun amem bmem lt => ?_
      rw [said amem, said bmem]
      exact lt
    rw [suffixes_append_singleton]
    split
    · exact earlier
    next more =>
    unfold insert
    split
    · exact earlier
    next new =>
    have unsaid : suffixOf entry ∉ entries.map suffixOf := fun mem =>
      new (mem_suffixes_iff.2 ⟨more, mem⟩)
    refine List.pairwise_append.2 ⟨earlier, List.pairwise_singleton _ _, fun a amem b last => ?_⟩
    rw [List.mem_singleton.1 last, said amem, List.map_append,
      List.idxOf_append_of_notMem unsaid]
    exact Nat.lt_of_lt_of_le (List.idxOf_lt_length_iff.2 (mem_suffixes_iff.1 amem).2)
      (Nat.le_add_right _ _)

theorem nodup_suffixes (entries : List String) : (ofEntries entries).suffixes.Nodup :=
  (pairwise_suffixes entries).imp fun {_ _} lt same => by
    rw [same] at lt
    exact Nat.lt_irrefl _ lt

theorem suffixOf_of_mem_suffixes {entries : List String} {suffix : String}
    (mem : suffix ∈ (ofEntries entries).suffixes) : suffixOf suffix = suffix := by
  obtain ⟨entry, -, rfl⟩ := List.mem_map.1 (mem_suffixes_iff.1 mem).2
  exact suffixOf_suffixOf entry

/-- Entries that say themselves, each once, are kept as they are. -/
theorem suffixes_of_nodup {entries : List String} (nodup : entries.Nodup)
    (plain : ∀ entry ∈ entries, suffixOf entry = entry ∧ entry ≠ ".") :
    (ofEntries entries).suffixes = entries := by
  induction entries using List.reverseRecOn with
  | nil => rfl
  | append_singleton entries entry ih =>
    obtain ⟨nodup, -, apart⟩ := List.nodup_append.1 nodup
    have last := plain entry (List.mem_append_right _ List.mem_cons_self)
    have new : entry ∉ entries := fun mem => apart entry mem entry List.mem_cons_self rfl
    rw [suffixes_append_singleton, last.1, if_neg last.2,
      ih nodup fun entry mem => plain entry (List.mem_append_left _ mem), insert, if_neg new]

theorem ofEntries_suffixes (entries : List String) :
    ofEntries (ofEntries entries).suffixes = ofEntries entries := by
  have kept := suffixes_of_nodup (nodup_suffixes entries) fun suffix mem =>
    ⟨suffixOf_of_mem_suffixes mem, (mem_suffixes_iff.1 mem).1⟩
  exact congrArg Extensions.mk kept

/-! ## Paths -/

theorem head?_ne_dot {x : String} (undotted : dot ∉ Text.encode x) :
    x.toList.head? ≠ some '.' := by
  intro first
  obtain ⟨cs, chars⟩ := List.head?_eq_some_iff.1 first
  rw [Text.encode_eq_flatMap, chars, List.flatMap_cons] at undotted
  exact undotted (List.mem_append_left _ (by decide))

/-- A path is admitted if it has an extension, one that is a text, and it stands on the list. -/
theorem admits_iff {x : Extensions} {p : Path} :
    x.admits p = true ↔ ∃ e : String, p.HasExtension (Text.encode e) ∧ "." ++ e ∈ x.suffixes := by
  have shown (e : String) :
      p.extension?.bind Text.decode? = some e ↔ p.HasExtension (Text.encode e) := by
    rw [Option.bind_eq_some_iff]
    simp only [Text.decode?_eq_some_iff, Path.extension?_eq_some_iff, exists_eq_right]
  unfold admits
  split
  · next e found =>
    rw [List.contains_iff_mem]
    constructor
    · exact fun mem => ⟨e, (shown e).1 found, mem⟩
    · rintro ⟨e', has, mem⟩
      obtain rfl : e = e' := Option.some.inj (found.symm.trans ((shown e').2 has))
      exact mem
  · next lost =>
    refine iff_of_false Bool.false_ne_true ?_
    rintro ⟨e, has, -⟩
    exact absurd (lost.symm.trans ((shown e).2 has)) nofun

/-- A list without a suffix admits no file. -/
theorem admits_of_isEmpty {x : Extensions} (none_ : x.isEmpty = true) (p : Path) :
    x.admits p = false := by
  have nil : x.suffixes = [] := List.isEmpty_iff.1 none_
  rw [admits, nil]
  cases p.extension?.bind Text.decode? <;> rfl

/-- What an entry has to be for an extension to be on the list. -/
theorem append_mem_suffixes_iff {entries : List String} {x : String}
    (undotted : x.toList.head? ≠ some '.') :
    "." ++ x ∈ (ofEntries entries).suffixes ↔
      x ≠ "" ∧ ∃ entry ∈ entries, Text.trim entry = x ∨ Text.trim entry = "." ++ x := by
  have lone : "." ++ x = "." ↔ x = "" := by
    rw [← String.toList_inj, ← String.toList_inj, String.toList_append]
    exact List.cons_inj_right _
  rw [mem_suffixes_iff, Ne, lone, List.mem_map]
  simp only [suffixOf, dotted_eq_append_iff undotted]

/-! ## As written -/

/-- **As written.**  A path is admitted exactly if it has an extension, one that is a text and not
    empty, and an entry says it, with a dot in front or without.  Nothing else about the entries
    matters, neither their order nor how often or in which spelling a suffix is said.

    What is kept of the entries are the suffixes that they say, each once and in the order in which
    they are first said.  Each begins with a dot and is more than that dot; taken as entries, they
    make the same list again. -/
theorem admits_as_written (entries : List String) :
    (∀ p, (ofEntries entries).admits p = true ↔
      ∃ x : String, x ≠ "" ∧ p.HasExtension (Text.encode x) ∧
        ∃ entry ∈ entries, Text.trim entry = x ∨ Text.trim entry = "." ++ x) ∧
      (∀ others : List String,
        (∀ suffix, suffix ≠ "." →
          (suffix ∈ others.map suffixOf ↔ suffix ∈ entries.map suffixOf)) →
        ∀ p, (ofEntries others).admits p = (ofEntries entries).admits p) ∧
      (∀ suffix, suffix ∈ (ofEntries entries).suffixes ↔
        suffix ≠ "." ∧ suffix ∈ entries.map suffixOf) ∧
      (∀ suffix ∈ (ofEntries entries).suffixes,
        suffix.toList.head? = some '.' ∧ suffix ≠ ".") ∧
      (ofEntries entries).suffixes.Nodup ∧
      (ofEntries entries).suffixes.Pairwise (fun a b =>
        (entries.map suffixOf).idxOf a < (entries.map suffixOf).idxOf b) ∧
      ofEntries (ofEntries entries).suffixes = ofEntries entries := by
  refine ⟨fun p => ?_, fun others same p => ?_, fun suffix => mem_suffixes_iff,
    fun suffix mem => ?_, nodup_suffixes entries, pairwise_suffixes entries,
    ofEntries_suffixes entries⟩
  · rw [admits_iff]
    refine exists_congr fun x => ?_
    rw [and_left_comm, and_congr_right_iff]
    intro has
    obtain ⟨-, -, -, -, -, -, -, -, undotted⟩ := has
    exact append_mem_suffixes_iff (head?_ne_dot undotted)
  · rw [Bool.eq_iff_iff, admits_iff, admits_iff]
    refine exists_congr fun x => and_congr_right fun _ => ?_
    rw [mem_suffixes_iff, mem_suffixes_iff]
    exact and_congr_right (same _)
  · obtain ⟨more, said⟩ := mem_suffixes_iff.1 mem
    obtain ⟨entry, -, rfl⟩ := List.mem_map.1 said
    exact ⟨head?_dotted _, more⟩

/-- Five entries for two suffixes.  A file whose name has two dots in it is admitted by what is
    behind the last one, and it does not matter which of the suffixes is said first. -/
theorem admits_as_written_five_entries :
    (ofEntries ["py", " .rs ", " ", ".", ".py"]).suffixes = [".py", ".rs"] ∧
      (ofEntries ["py", " .rs ", " ", ".", ".py"]).admits ⟨Text.encode "src/a.rs.py/"⟩ = true ∧
      (ofEntries ["rs", "py"]).admits ⟨Text.encode "src/a.rs.py/"⟩ = true := by
  obtain ⟨admitted, spelling, -⟩ := admits_as_written ["py", " .rs ", " ", ".", ".py"]
  have has : (⟨Text.encode "src/a.rs.py/"⟩ : Path).HasExtension (Text.encode "py") :=
    ⟨Text.encode "src/", Text.encode "a.rs", [slash], by decide +kernel, .inr (by decide +kernel),
      ⟨[[]], rfl, fun _ mem => .inl (List.mem_singleton.1 mem)⟩, by decide +kernel,
      by decide +kernel, by decide +kernel⟩
  have py := (admitted _).2
    ⟨"py", by decide, has, "py", List.mem_cons_self, .inl (by decide +kernel)⟩
  have five : ["py", " .rs ", " ", ".", ".py"].map suffixOf = [".py", ".rs", ".", ".", ".py"] := by
    decide +kernel
  have two : ["rs", "py"].map suffixOf = [".rs", ".py"] := by decide +kernel
  refine ⟨by decide +kernel, py, (spelling ["rs", "py"] (fun suffix more => ?_) _).trans py⟩
  rw [five, two]
  simp only [List.mem_cons, List.not_mem_nil, or_false, more, false_or]
  tauto

end Extensions

end CallSweep
