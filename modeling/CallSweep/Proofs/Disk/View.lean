/-
  What a disk holds, apart from how it numbers its files.

  `Disk.view` gives for each place what a user of the disk can see there: a `Node`.  Inode numbers
  are not seen, so a file that has been replaced by another one with the same bytes and permissions
  looks as before.

  1. **Lookups** — the places that can be looked up are those on the list of entries, and the
     operations on entries are updates of the lookup function at one place.

  2. **One name a file** (`Disk.Alone`, `Disk.Unshared`) — when no other place holds the inode of a
     file, what is written there is seen there alone: each change of a file is an update of the view
     at one place (`view_setInode`, `view_create`, `view_move`).

  3. **The frame** (`Disk.Frame`) — directories, links, sockets and devices, all that is no regular
     file, with a set of places whose files are not shared.  The same changes leave it as it is.

  4. **Children** — a directory's listing holds each name below it once, with its kind.
-/
import Mathlib.Data.List.Nodup
import Mathlib.Data.Set.Basic
import Mathlib.Logic.Function.Basic
import CallSweep.Disk.Operations

namespace CallSweep

/-- What is seen at a place. -/
inductive Node where
  | dir
  | file (bytes : ByteArray) (permissions : Nat)
  | link (target : Path)
  | socket
  | nullDevice

namespace Disk

/-! ## Lookups -/

theorem mem_entries_iff_lookup (d : Disk) (x : Place) (e : Entry) :
    d.entries.lookup x = some e ↔ (x, e) ∈ d.entries := by
  rw [List.lookup_eq_some_iff]
  constructor
  · rintro ⟨before, after, split, -⟩
    rw [split]
    exact List.mem_append_right before List.mem_cons_self
  · intro mem
    obtain ⟨before, after, split⟩ := List.append_of_mem mem
    refine ⟨before, after, split, fun q hq => ?_⟩
    -- the place stands on the list once, so not before its entry
    have nodup := d.nodup
    rw [split, List.map_append, List.map_cons, List.nodup_append] at nodup
    have ne := nodup.2.2 q.1 (List.mem_map_of_mem hq) x List.mem_cons_self
    simpa using Ne.symm ne

@[simp] theorem entry?_root (d : Disk) : d.entry? [] = some .dir := rfl

theorem entry?_eq_some_iff (d : Disk) {x : Place} (hx : x ≠ []) (e : Entry) :
    d.entry? x = some e ↔ (x, e) ∈ d.entries := by
  unfold entry?
  rw [if_neg hx, mem_entries_iff_lookup]

theorem entry?_erase (d : Disk) {x : Place} (hx : x ≠ []) :
    Disk.entry? (d.erase x) = Function.update d.entry? x none := by
  funext y
  by_cases hy : y = []
  · subst hy
    rw [Function.update_of_ne (Ne.symm hx), entry?_root, entry?_root]
  · apply Option.ext
    intro e
    rw [entry?_eq_some_iff _ hy, erase, List.mem_filter]
    by_cases same : y = x
    · subst same
      simp
    · rw [Function.update_of_ne same, entry?_eq_some_iff _ hy]
      simp [same]

theorem entry?_insert (d : Disk) {x : Place} (hx : x ≠ []) (e : Entry) :
    Disk.entry? (d.insert x e) = Function.update d.entry? x (some e) := by
  funext y
  by_cases hy : y = []
  · subst hy
    rw [Function.update_of_ne (Ne.symm hx), entry?_root, entry?_root]
  · apply Option.ext
    intro f
    rw [entry?_eq_some_iff _ hy, insert, List.mem_cons, ← entry?_eq_some_iff _ hy,
      entry?_erase d hx]
    by_cases same : y = x
    · subst same
      simp [eq_comm]
    · rw [Function.update_of_ne same, Function.update_of_ne same]
      simp [same]

@[simp] theorem entry?_setInode (d : Disk) (n : Nat) (i : Inode) :
    Disk.entry? (d.setInode n i) = d.entry? := rfl

theorem foldl_max_bounds (ns : List Nat) (start : Nat) :
    start ≤ ns.foldl (fun n m => max n (m + 1)) start ∧
      ∀ n ∈ ns, n < ns.foldl (fun n m => max n (m + 1)) start := by
  induction ns generalizing start with
  | nil => simp
  | cons m ns ih =>
    obtain ⟨start_le, lt⟩ := ih (max start (m + 1))
    rw [List.foldl_cons]
    refine ⟨by omega, fun n hn => ?_⟩
    rcases List.mem_cons.1 hn with rfl | hn
    · omega
    · exact lt n hn

/-- The number of a new file is larger than any that is taken. -/
theorem lt_freshInode {d : Disk} {x : Place} {n : Nat} (hx : d.entry? x = some (.file n)) :
    n < d.freshInode := by
  have ne : x ≠ [] := by
    rintro rfl
    cases hx
  have mem : n ∈ d.entries.filterMap (inodeOf? ·.2) :=
    List.mem_filterMap.2 ⟨(x, .file n), (d.entry?_eq_some_iff ne _).1 hx, rfl⟩
  exact (foldl_max_bounds _ 0).2 n mem

/-! ## What is seen -/

/-- What an entry shows. -/
def nodeOf (d : Disk) : Entry → Node
  | .dir => .dir
  | .file n => .file (d.inode n).bytes ((d.inode n).mode &&& modeMask)
  | .link target => .link target
  | .socket => .socket
  | .nullDevice => .nullDevice

/-- What is seen at a place.  Of a file these are its bytes and its permission bits. -/
def view (d : Disk) (x : Place) : Option Node := d.entry? x |>.map d.nodeOf

theorem view_of_entry {d : Disk} {x : Place} {e : Entry} (hx : d.entry? x = some e) :
    d.view x = some (d.nodeOf e) := by
  rw [view, hx]
  rfl

theorem view_eq_none_iff {d : Disk} {x : Place} : d.view x = none ↔ d.entry? x = none := by
  rw [view, Option.map_eq_none_iff]

theorem view_eq_dir_iff {d : Disk} {x : Place} : d.view x = some .dir ↔ d.entry? x = some .dir := by
  rw [view, Option.map_eq_some_iff]
  constructor
  · rintro ⟨e, entry, shown⟩
    cases e with
    | dir => exact entry
    | file _ | link _ | socket | nullDevice => cases shown
  · exact fun entry => ⟨.dir, entry, rfl⟩

/-- A file is seen where the entry of one stands. -/
theorem exists_inode_of_view {d : Disk} {x : Place} {bytes : ByteArray} {permissions : Nat}
    (hx : d.view x = some (.file bytes permissions)) :
    ∃ n, d.entry? x = some (.file n) ∧ (d.inode n).bytes = bytes ∧
      (d.inode n).mode &&& modeMask = permissions := by
  rw [view, Option.map_eq_some_iff] at hx
  obtain ⟨e, he, shown⟩ := hx
  cases e with
  | file n =>
    injection shown with bytes_eq permissions_eq
    exact ⟨n, he, bytes_eq, permissions_eq⟩
  | dir | link _ | socket | nullDevice => cases shown

/-- The kind of an entry can be seen. -/
theorem exists_entry_of_view_eq {d d' : Disk} {x : Place} {e : Entry} (he : d.entry? x = some e)
    (same : d.view x = d'.view x) : ∃ e', d'.entry? x = some e' ∧ kindOf e' = kindOf e := by
  cases he' : d'.entry? x with
  | none =>
    rw [view_of_entry he, view_eq_none_iff.2 he'] at same
    cases same
  | some e' =>
    rw [view_of_entry he, view_of_entry he'] at same
    refine ⟨e', rfl, ?_⟩
    cases e <;> cases e' <;> simp_all [nodeOf, kindOf]

/-! ## One name a file -/

/-- No other place holds the file at this one. -/
def Alone (d : Disk) (x : Place) : Prop :=
  ∀ y n, d.entry? x = some (.file n) → d.entry? y = some (.file n) → y = x

/-- No two places hold one file. -/
def Unshared (d : Disk) : Prop :=
  ∀ x y n, d.entry? x = some (.file n) → d.entry? y = some (.file n) → x = y

theorem Unshared.alone {d : Disk} (u : d.Unshared) (x : Place) : d.Alone x :=
  fun y n hx hy => u y x n hy hx

theorem alone_of_vacant {d : Disk} {x : Place} (vacant : d.entry? x = none) : d.Alone x := by
  intro y n hx
  rw [vacant] at hx
  cases hx

/-- Files of one name each are not shared. -/
theorem unshared_of_linkCount {d : Disk}
    (single : ∀ x n, d.entry? x = some (.file n) → d.linkCount n = 1) : d.Unshared := by
  intro x y n hx hy
  have ne {z : Place} (hz : d.entry? z = some (.file n)) : z ≠ [] := by
    rintro rfl
    cases hz
  have among {z : Place} (hz : d.entry? z = some (.file n)) :
      (z, .file n) ∈ d.entries.filter (·.2 = .file n) :=
    List.mem_filter.2 ⟨(d.entry?_eq_some_iff (ne hz) _).1 hz, by simp⟩
  -- the entries with this number are one, so two places with it are one
  have one := single x n hx
  rw [linkCount, List.countP_eq_length_filter, List.length_eq_one_iff] at one
  obtain ⟨only, one⟩ := one
  have mem_x := among hx
  have mem_y := among hy
  rw [one, List.mem_singleton] at mem_x mem_y
  exact congrArg Prod.fst (mem_x.trans mem_y.symm)

/-- Other contents of a file are seen at its place. -/
theorem view_setInode {d : Disk} {x : Place} (alone : d.Alone x) {n : Nat}
    (hx : d.entry? x = some (.file n)) (i : Inode) :
    (d.setInode n i).view =
      Function.update d.view x (some (.file i.bytes (i.mode &&& modeMask))) := by
  funext y
  by_cases same : y = x
  · subst same
    have shown := view_of_entry (d := d.setInode n i) hx
    rw [Function.update_self, shown]
    simp [nodeOf, setInode]
  · rw [Function.update_of_ne same, view, view, entry?_setInode]
    refine Option.map_congr fun e he => ?_
    cases e with
    | file m =>
      have other : m ≠ n := by
        rintro rfl
        exact same (alone y m hx he)
      simp [nodeOf, setInode, other]
    | dir | link _ | socket | nullDevice => rfl

/-- A new file has a number that stands nowhere else. -/
theorem alone_create (d : Disk) {x : Place} (hx : x ≠ []) :
    (d.insert x (.file d.freshInode)).Alone x := by
  intro y n at_x at_y
  rw [entry?_insert d hx] at at_x at_y
  rw [Function.update_self] at at_x
  cases at_x
  by_cases same : y = x
  · exact same
  · rw [Function.update_of_ne same] at at_y
    exact absurd (lt_freshInode at_y) (Nat.lt_irrefl _)

/-- A file that was not shared is not shared with a new one. -/
theorem Alone.create {d : Disk} {x z : Place} (alone : d.Alone z) (hx : x ≠ []) :
    (d.insert x (.file d.freshInode)).Alone z := by
  by_cases same : z = x
  · subst same
    exact alone_create d hx
  · intro y n at_z at_y
    rw [entry?_insert d hx] at at_z at_y
    rw [Function.update_of_ne same] at at_z
    by_cases same' : y = x
    · -- the new number is not one that stands elsewhere
      subst same'
      rw [Function.update_self] at at_y
      cases at_y
      exact absurd (lt_freshInode at_z) (Nat.lt_irrefl _)
    · rw [Function.update_of_ne same'] at at_y
      exact alone y n at_z at_y

/-- A new file is seen at its place. -/
theorem view_create (d : Disk) {x : Place} (hx : x ≠ []) (i : Inode) :
    ((d.insert x (.file d.freshInode)).setInode d.freshInode i).view =
      Function.update d.view x (some (.file i.bytes (i.mode &&& modeMask))) := by
  have at_x : Disk.entry? (d.insert x (.file d.freshInode)) x = some (.file d.freshInode) := by
    rw [entry?_insert d hx, Function.update_self]
  rw [view_setInode (alone_create d hx) at_x]
  funext y
  by_cases same : y = x
  · subst same
    rw [Function.update_self, Function.update_self]
  · rw [Function.update_of_ne same, Function.update_of_ne same, view, entry?_insert d hx,
      Function.update_of_ne same]
    exact Option.map_congr fun e _ => by cases e <;> rfl

theorem view_erase (d : Disk) {x : Place} (hx : x ≠ []) :
    (d.erase x).view = Function.update d.view x none := by
  funext y
  by_cases same : y = x
  · subst same
    rw [Function.update_self, view, entry?_erase d hx, Function.update_self]
    rfl
  · rw [Function.update_of_ne same, view, view, entry?_erase d hx, Function.update_of_ne same]
    exact Option.map_congr fun e _ => by cases e <;> rfl

/-- A file that is moved is seen at its new place, and no longer at the old one. -/
theorem view_move (d : Disk) {x y : Place} (hx : x ≠ []) (hy : y ≠ []) {e : Entry}
    (he : d.entry? x = some e) :
    ((d.erase x).insert y e).view =
      Function.update (Function.update d.view x none) y (d.view x) := by
  funext z
  by_cases same : z = y
  · subst same
    rw [Function.update_self, view, entry?_insert _ hy, Function.update_self, view, he]
    cases e <;> rfl
  · rw [Function.update_of_ne same, ← view_erase d hx, view, entry?_insert _ hy,
      Function.update_of_ne same, view]
    exact Option.map_congr fun e _ => by cases e <;> rfl

/-- What was not shared is not shared when something is taken away. -/
theorem Alone.erase {d : Disk} {x z : Place} (alone : d.Alone z) (hx : x ≠ []) :
    (d.erase x).Alone z := by
  have before {y : Place} {e : Entry} (hy : Disk.entry? (d.erase x) y = some e) :
      d.entry? y = some e := by
    rw [entry?_erase d hx] at hy
    by_cases same : y = x
    · rw [same, Function.update_self] at hy
      cases hy
    · rwa [Function.update_of_ne same] at hy
  exact fun y n hz hy => alone y n (before hz) (before hy)

/-- What was not shared is not shared when a file that was not shared is moved. -/
theorem Alone.move {d : Disk} {x y z : Place} (alone : d.Alone z) (alone_x : d.Alone x)
    (hx : x ≠ []) (hy : y ≠ []) {n : Nat} (hn : d.entry? x = some (.file n)) :
    ((d.erase x).insert y (.file n)).Alone z := by
  -- whatever holds a file now, and is not `y`, held it before and is not `x`
  have before {z : Place} {m : Nat} (ne : z ≠ y)
      (hz : Disk.entry? ((d.erase x).insert y (.file n)) z = some (.file m)) :
      z ≠ x ∧ d.entry? z = some (.file m) := by
    rw [entry?_insert _ hy, Function.update_of_ne ne, entry?_erase d hx] at hz
    by_cases same : z = x
    · rw [same, Function.update_self] at hz
      cases hz
    · rw [Function.update_of_ne same] at hz
      exact ⟨same, hz⟩
  have at_y : Disk.entry? ((d.erase x).insert y (.file n)) y = some (.file n) := by
    rw [entry?_insert _ hy, Function.update_self]
  intro z' m hz hz'
  by_cases same : z = y <;> by_cases same' : z' = y
  · rw [same, same']
  · subst same
    obtain ⟨ne, hz'⟩ := before same' hz'
    rw [at_y] at hz
    cases hz
    exact absurd (alone_x z' n hn hz') ne
  · subst same'
    obtain ⟨ne, hz⟩ := before same hz
    rw [at_y] at hz'
    cases hz'
    exact absurd (alone_x z n hn hz) ne
  · exact alone z' m (before same hz).2 (before same' hz').2

/-! ## The frame -/

/-- `d` has the entries of `d₀` that are no files and no others of that sort, and shares no file of
    the places in `own`. -/
structure Frame (own : Set Place) (d₀ d : Disk) : Prop where
  alone : ∀ x ∈ own, d.Alone x
  same : ∀ x e, inodeOf? e = none → (d.entry? x = some e ↔ d₀.entry? x = some e)

namespace Frame

variable {own : Set Place} {d₀ d : Disk}

theorem refl (alone : ∀ x ∈ own, d.Alone x) : Frame own d d := ⟨alone, fun _ _ _ => Iff.rfl⟩

theorem symm (f : Frame own d₀ d) (alone : ∀ x ∈ own, d₀.Alone x) : Frame own d d₀ :=
  ⟨alone, fun x e plain => (f.same x e plain).symm⟩

theorem dir_iff (f : Frame own d₀ d) (x : Place) :
    d.entry? x = some .dir ↔ d₀.entry? x = some .dir := f.same x .dir rfl

theorem link_iff (f : Frame own d₀ d) (x : Place) (target : Path) :
    d.entry? x = some (.link target) ↔ d₀.entry? x = some (.link target) :=
  f.same x (.link target) rfl

theorem setInode (f : Frame own d₀ d) (n : Nat) (i : Inode) : Frame own d₀ (d.setInode n i) :=
  ⟨f.alone, f.same⟩

theorem create (f : Frame own d₀ d) {x : Place} (hx : x ≠ []) (vacant : d.entry? x = none)
    (i : Inode) : Frame own d₀ ((d.insert x (.file d.freshInode)).setInode d.freshInode i) := by
  refine Frame.setInode ⟨fun z hz => (f.alone z hz).create hx, fun z e plain => ?_⟩ _ i
  rw [← f.same z e plain, entry?_insert d hx]
  by_cases same : z = x
  · subst same
    rw [Function.update_self, vacant]
    refine iff_of_false ?_ (Option.some_ne_none e).symm
    rintro ⟨⟩
    cases plain
  · rw [Function.update_of_ne same]

/-- A file that is taken away is no part of the frame. -/
theorem erase (f : Frame own d₀ d) {x : Place} (hx : x ≠ []) {n : Nat}
    (at_x : d.entry? x = some (.file n)) : Frame own d₀ (d.erase x) := by
  refine ⟨fun z hz => (f.alone z hz).erase hx, fun z e plain => ?_⟩
  rw [← f.same z e plain, entry?_erase d hx]
  by_cases same : z = x
  · subst same
    rw [Function.update_self, at_x]
    refine iff_of_false (Option.some_ne_none e).symm ?_
    rintro ⟨⟩
    cases plain
  · rw [Function.update_of_ne same]

/-- A file that is moved over a file is moved within the frame. -/
theorem same_move (f : Frame own d₀ d) {x y : Place} (hx : x ≠ []) (hy : y ≠ []) {m n : Nat}
    (from_x : d.entry? x = some (.file m)) (at_y : d.entry? y = some (.file n)) (z : Place)
    (e : Entry) (plain : inodeOf? e = none) :
    Disk.entry? ((d.erase x).insert y (.file m)) z = some e ↔ d₀.entry? z = some e := by
  have no_file {w : Place} {k : Nat} (hw : d.entry? w = some (.file k)) :
      d.entry? w ≠ some e := by
    rw [hw]
    rintro ⟨⟩
    cases plain
  rw [← f.same z e plain, entry?_insert _ hy, entry?_erase d hx]
  by_cases same_y : z = y
  · subst same_y
    rw [Function.update_self]
    refine iff_of_false ?_ (no_file at_y)
    rintro ⟨⟩
    cases plain
  · rw [Function.update_of_ne same_y]
    by_cases same_x : z = x
    · subst same_x
      rw [Function.update_self]
      exact iff_of_false (by simp) (no_file from_x)
    · rw [Function.update_of_ne same_x]

theorem move (f : Frame own d₀ d) {x y : Place} (hx : x ≠ []) (hy : y ≠ []) (mine : x ∈ own)
    {m n : Nat} (from_x : d.entry? x = some (.file m)) (at_y : d.entry? y = some (.file n)) :
    Frame own d₀ ((d.erase x).insert y (.file m)) :=
  ⟨fun z hz => (f.alone z hz).move (f.alone x mine) hx hy from_x,
    fun z e plain => f.same_move hx hy from_x at_y z e plain⟩

end Frame

/-- The frame of a disk on which no file is shared. -/
abbrev SameFrame (d₀ : Disk) : Disk → Prop := Frame Set.univ d₀

namespace SameFrame

variable {d₀ d : Disk}

theorem refl (u : d.Unshared) : SameFrame d d := Frame.refl fun x _ => u.alone x

theorem symm (f : SameFrame d₀ d) (u : d₀.Unshared) : SameFrame d d₀ :=
  Frame.symm f fun x _ => u.alone x

end SameFrame

/-! ## Children -/

/-- The listing of a directory holds what stands right below it, with its kind. -/
theorem mem_children_iff (d : Disk) (x : Place) (name : Name) (kind : FileKind) :
    (name, kind) ∈ d.children x ↔ ∃ e, d.entry? (x ++ [name]) = some e ∧ kindOf e = kind := by
  have ne : x ++ [name] ≠ [] := List.append_ne_nil_of_right_ne_nil x (List.cons_ne_nil name [])
  simp only [children, List.mem_filterMap, Prod.exists, entry?_eq_some_iff d ne]
  constructor
  · rintro ⟨q, e, mem, shown⟩
    cases last_eq : q.getLast? with
    | none =>
      rw [last_eq] at shown
      cases shown
    | some last =>
      rw [last_eq] at shown
      dsimp only at shown
      split at shown
      · rename_i init
        injection shown with shown
        injection shown with name_eq kind_eq
        have spelled : q = x ++ [name] := by
          rw [← List.dropLast_append_getLast? last last_eq, init, name_eq]
        rw [← spelled]
        exact ⟨e, mem, kind_eq⟩
      · cases shown
  · rintro ⟨e, mem, kind_eq⟩
    refine ⟨x ++ [name], e, mem, ?_⟩
    simp [kind_eq]

/-- No name is listed twice. -/
theorem nodup_children (d : Disk) (x : Place) : ((d.children x).map Prod.fst).Nodup := by
  have spelled : (d.children x).map Prod.fst =
      (d.entries.map Prod.fst).filterMap fun q =>
        if q.dropLast = x then q.getLast? else none := by
    rw [children, List.map_filterMap, List.filterMap_map]
    refine List.filterMap_congr fun entry _ => ?_
    obtain ⟨q, e⟩ := entry
    dsimp only [Function.comp_apply]
    cases last_eq : q.getLast? with
    | none => simp only [Option.map_none, ite_self]
    | some name =>
      by_cases init : q.dropLast = x
      · simp only [init, if_true, Option.map_some]
      · simp only [init, if_false, Option.map_none]
  rw [spelled]
  refine d.nodup.filterMap fun q q' name hq hq' => ?_
  -- a name and the place above it give the place
  have whole {q : Place} (h : name ∈ if q.dropLast = x then q.getLast? else none) :
      q = x ++ [name] := by
    split at h
    · rename_i init
      rw [← List.dropLast_append_getLast? name h, init]
    · cases h
  rw [whole hq, whole hq']

end Disk

end CallSweep
