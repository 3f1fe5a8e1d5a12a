/-
  Where paths lead, and what it takes for them to lead elsewhere.

  1. **Leading** (`Disk.Leads`) — the runs of `locate` that succeed, rule by rule: components that
     stay, one that climbs, one that goes down to an entry, one that follows a link, and one that
     ends at a name not taken yet.  `locate_eq_ok_iff` says that these are all, so what follows is
     by induction on the rules.

  2. **In two parts** — what leads through `cs ++ c :: cs'` leads through `cs` to a directory and on
     from it (`Leads.split`), and the parts join again when the second follows no link
     (`Leads.append`).  Hence the path of a directory and the paths of its entries are found
     together (`find_child`, `exists_of_find_child`).

  3. **The frame suffices** (`Leads.of_frame`) — files that come and go change nothing about
     where paths lead, as long as directories and links stay.

  4. **Spelled places** — a place is `Rooted` when every name of it stands in a directory.  Paths
     lead to rooted places, and the spelling of a rooted place leads back to it
     (`Rooted.leads_path`).
-/
import CallSweep.Proofs.Disk.Components
import CallSweep.Proofs.Disk.View

namespace CallSweep

namespace Disk

/-! ## Leading -/

/-- Components lead from a place to a place, when `links` more links may be followed. -/
inductive Leads (d : Disk) (making : Bool) : Nat → Place → List Component → Place → Prop
  | stop {links : Nat} {x : Place} : Leads d making links x [] x
  | stay {links : Nat} {x y : Place} {c : Component} {cs : List Component}
      (dir : d.entry? x = some .dir) (idle : c = .here ∨ c = .slash)
      (rest : Leads d making links x cs y) : Leads d making links x (c :: cs) y
  | climb {links : Nat} {x y : Place} {cs : List Component} (dir : d.entry? x = some .dir)
      (rest : Leads d making links x.dropLast cs y) : Leads d making links x (.up :: cs) y
  /-- To a name that nothing stands at. -/
  | vacant {links : Nat} {x : Place} {name : Name} (dir : d.entry? x = some .dir)
      (short : name.bytes.length ≤ maxName) (free : d.entry? (x ++ [name]) = none) :
      Leads d making links x [.down name] (x ++ [name])
  | follow {links : Nat} {x y : Place} {name : Name} {target : Path} {cs : List Component}
      (dir : d.entry? x = some .dir) (open_ : ¬ (making ∧ cs = [.slash]))
      (short : name.bytes.length ≤ maxName) (link : d.entry? (x ++ [name]) = some (.link target))
      (rest : Leads d making links (if target.isAbsolute then [] else x)
        (target.components ++ cs) y) : Leads d making (links + 1) x (.down name :: cs) y
  | descend {links : Nat} {x y : Place} {name : Name} {e : Entry} {cs : List Component}
      (dir : d.entry? x = some .dir) (open_ : ¬ (making ∧ cs = [.slash]))
      (short : name.bytes.length ≤ maxName) (entry : d.entry? (x ++ [name]) = some e)
      (no_link : ∀ target, e ≠ .link target) (rest : Leads d making links (x ++ [name]) cs y) :
      Leads d making links x (.down name :: cs) y

variable {own : Set Place} {d d₀ : Disk} {making : Bool} {links : Nat} {x y z : Place}
  {cs : List Component}

theorem leads_of_locate (ok : d.locate making links x cs = .ok y) :
    d.Leads making links x cs y := by
  fun_induction d.locate making links x cs
  case case1 => cases ok; exact .stop
  case case2 dir ih => exact .stay dir (.inl rfl) (ih ok)
  case case3 dir ih => exact .stay dir (.inr rfl) (ih ok)
  case case4 dir ih => exact .climb dir (ih ok)
  case case7 dir short free open_ => cases ok; exact .vacant dir (Nat.not_lt.1 short) free
  case case10 dir open_ short target link links ih =>
    exact .follow dir open_ (Nat.not_lt.1 short) link (ih ok)
  case case11 dir open_ short e no_link entry ih =>
    exact .descend dir open_ (Nat.not_lt.1 short) entry no_link (ih ok)
  all_goals cases ok

theorem locate_of_leads (l : d.Leads making links x cs y) : d.locate making links x cs = .ok y := by
  induction l with
  | stop => rw [locate]
  | stay dir idle _ ih =>
    rcases idle with rfl | rfl
    · simp only [locate, dir, ih]
    · simp only [locate, dir, ih]
  | climb dir _ ih => simp only [locate, dir, ih]
  | vacant dir short free =>
    have short := Nat.not_lt.2 short
    simp [locate, dir, short, free]
  | follow dir open_ short link _ ih =>
    have short := Nat.not_lt.2 short
    simp only [locate, dir, if_neg open_, if_neg short, link]
    exact ih
  | @descend links x y name e cs dir open_ short entry no_link _ ih =>
    have short := Nat.not_lt.2 short
    simp only [locate, dir, if_neg open_, if_neg short, entry]
    cases e with
    | link target => exact absurd rfl (no_link target)
    | dir | file _ | socket | nullDevice => exact ih

theorem locate_eq_ok_iff : d.locate making links x cs = .ok y ↔ d.Leads making links x cs y :=
  ⟨leads_of_locate, locate_of_leads⟩

namespace Leads

/-- Only from a directory does a component lead on. -/
theorem dir_of_cons {c : Component} (l : d.Leads making links x (c :: cs) y) :
    d.entry? x = some .dir := by
  cases l <;> assumption

theorem eq_of_not_dir (l : d.Leads making links x cs y) (no_dir : d.entry? x ≠ some .dir) :
    cs = [] ∧ y = x := by
  cases cs with
  | nil => cases l; exact ⟨rfl, rfl⟩
  | cons c cs => exact absurd l.dir_of_cons no_dir

/-! ## In two parts -/

theorem not_making_append {c : Component} {cs cs' : List Component}
    (tail : ¬ (making ∧ c :: cs' = [.slash])) : ¬ (making ∧ cs ++ c :: cs' = [.slash]) := by
  cases cs with
  | nil => exact tail
  | cons b bs => simp

/-- What leads through two parts leads to a directory between them. -/
theorem split {c : Component} {cs' : List Component}
    (l : d.Leads making links x (cs ++ c :: cs') z) :
    ∃ y links', d.Leads false links x cs y ∧ d.Leads making links' y (c :: cs') z := by
  -- the rules take components off the front: the cut is reached when `cs` has run out
  generalize whole : cs ++ c :: cs' = all at l
  induction l generalizing cs with
  | stop => cases cs <;> cases whole
  | @stay links x y b bs dir idle rest ih =>
    cases cs with
    | nil => cases whole; exact ⟨x, links, .stop, .stay dir idle rest⟩
    | cons b' cs =>
      injection whole with same whole
      subst same
      obtain ⟨y, links', first, second⟩ := ih whole
      exact ⟨y, links', .stay dir idle first, second⟩
  | @climb links x y bs dir rest ih =>
    cases cs with
    | nil => cases whole; exact ⟨x, links, .stop, .climb dir rest⟩
    | cons b' cs =>
      injection whole with same whole
      subst same
      obtain ⟨y, links', first, second⟩ := ih whole
      exact ⟨y, links', .climb dir first, second⟩
  | @vacant links x name dir short free =>
    cases cs with
    | nil => cases whole; exact ⟨x, links, .stop, .vacant dir short free⟩
    | cons b' cs => cases cs <;> cases whole
  | @follow links x y name target bs dir open_ short link rest ih =>
    cases cs with
    | nil => cases whole; exact ⟨x, links + 1, .stop, .follow dir open_ short link rest⟩
    | cons b' cs =>
      injection whole with same whole
      subst same
      obtain ⟨y, links', first, second⟩ :=
        ih ((List.append_assoc target.components cs _).trans (congrArg _ whole))
      exact ⟨y, links', .follow dir (by simp) short link first, second⟩
  | @descend links x y name e bs dir open_ short entry no_link rest ih =>
    cases cs with
    | nil =>
      cases whole
      exact ⟨x, links, .stop, .descend dir open_ short entry no_link rest⟩
    | cons b' cs =>
      injection whole with same whole
      subst same
      obtain ⟨y, links', first, second⟩ := ih whole
      exact ⟨y, links', .descend dir (by simp) short entry no_link first, second⟩

/-- Two parts join, when the second leads on however few links are left. -/
theorem append {c : Component} {cs' : List Component} (first : d.Leads false links x cs y)
    (second : ∀ links', d.Leads making links' y (c :: cs') z)
    (tail : ¬ (making ∧ c :: cs' = [.slash])) :
    d.Leads making links x (cs ++ c :: cs') z := by
  induction first with
  | stop => exact second _
  | stay dir idle _ ih => exact .stay dir idle (ih second)
  | climb dir _ ih => exact .climb dir (ih second)
  | vacant _ _ free =>
    -- nothing leads on from a name that is not taken
    have dir := (second 0).dir_of_cons
    rw [free] at dir
    cases dir
  | follow dir _ short link _ ih =>
    have rest := ih second
    rw [List.append_assoc] at rest
    exact .follow dir (not_making_append tail) short link rest
  | descend dir _ short entry no_link _ ih =>
    exact .descend dir (not_making_append tail) short entry no_link (ih second)

/-- One step down leads to what stands there, unless it is a link. -/
theorem down {name : Name} (dir : d.entry? x = some .dir) (short : name.bytes.length ≤ maxName)
    (no_link : ∀ target, d.entry? (x ++ [name]) ≠ some (.link target)) :
    d.Leads making links x [.down name] (x ++ [name]) := by
  cases entry : d.entry? (x ++ [name]) with
  | none => exact .vacant dir short entry
  | some e =>
    refine .descend dir (by simp) short entry (fun target same => ?_) .stop
    exact no_link target (same ▸ entry)

theorem short_of_down {name : Name} (l : d.Leads making links x [.down name] y) :
    name.bytes.length ≤ maxName := by
  cases l with
  | stay _ idle _ => rcases idle with h | h <;> cases h
  | vacant _ short _ | follow _ _ short _ _ | descend _ _ short _ _ _ => exact short

/-- What leads to anything but a directory leads there when it is to be written, too: only behind a
    directory can a slash stand. -/
theorem of_not_dir (l : d.Leads false links x cs y) (no_dir : d.entry? y ≠ some .dir) :
    d.Leads making links x cs y := by
  have behind {links : Nat} {x : Place} (cs : List Component) :
      ¬ d.Leads false links x (cs ++ [.slash]) y := by
    intro l
    obtain ⟨z, links', -, second⟩ := l.split
    cases second with
    | stay dir _ rest =>
      cases rest
      exact no_dir dir
  induction l with
  | stop => exact .stop
  | stay dir idle _ ih => exact .stay dir idle (ih no_dir behind)
  | climb dir _ ih => exact .climb dir (ih no_dir behind)
  | vacant dir short free => exact .vacant dir short free
  | follow dir _ short link rest ih =>
    refine .follow dir ?_ short link (ih no_dir behind)
    rintro ⟨-, rfl⟩
    exact behind _ rest
  | descend dir _ short entry no_link rest ih =>
    refine .descend dir ?_ short entry no_link (ih no_dir behind)
    rintro ⟨-, rfl⟩
    exact behind [] rest

/-! ## The frame suffices -/

/-- Where files alone have come or gone, paths lead where they led. -/
theorem of_frame (f : Frame own d₀ d) (l : d₀.Leads making links x cs y) :
    d.Leads making links x cs y := by
  have down {links : Nat} {x : Place} {name : Name} (dir : d₀.entry? x = some .dir)
      (short : name.bytes.length ≤ maxName)
      (no_link : ∀ target, d₀.entry? (x ++ [name]) ≠ some (.link target)) :
      d.Leads making links x [.down name] (x ++ [name]) :=
    Leads.down ((f.dir_iff x).2 dir) short fun target link =>
      no_link target ((f.link_iff _ target).1 link)
  induction l with
  | stop => exact .stop
  | stay dir idle _ ih => exact .stay ((f.dir_iff _).2 dir) idle ih
  | climb dir _ ih => exact .climb ((f.dir_iff _).2 dir) ih
  | vacant dir short free =>
    refine down dir short fun target link => ?_
    rw [free] at link
    cases link
  | follow dir open_ short link _ ih =>
    exact .follow ((f.dir_iff _).2 dir) open_ short ((f.link_iff _ _).2 link) ih
  | @descend links x y name e cs dir open_ short entry no_link rest ih =>
    by_cases plain : inodeOf? e = none
    · exact .descend ((f.dir_iff _).2 dir) open_ short ((f.same _ e plain).2 entry) no_link ih
    · -- a file may have gone, but then nothing leads on from it
      have no_dir : d₀.entry? (x ++ [name]) ≠ some .dir := by
        rw [entry]
        rintro ⟨⟩
        exact plain rfl
      obtain ⟨rfl, rfl⟩ := rest.eq_of_not_dir no_dir
      refine down dir short fun target link => ?_
      rw [entry] at link
      cases link
      exact no_link target rfl

end Leads

/-! ## Finding -/

theorem find_eq_ok_iff {cwd : Place} {p : Path} {e : Entry} :
    d.find cwd p = .ok (x, e) ↔
      checkPath p = .ok () ∧ d.Leads false maxLinks (origin cwd p) p.components x ∧
        d.entry? x = some e := by
  rw [← locate_eq_ok_iff, find]
  cases checkPath p with
  | error e => simp [bind, Except.bind]
  | ok u =>
    cases d.locate false maxLinks (origin cwd p) p.components with
    | error e => simp [bind, Except.bind]
    | ok y =>
      cases entry : d.entry? y with
      | none =>
        simp only [bind, Except.bind, entry]
        constructor
        · rintro ⟨⟩
        · rintro ⟨-, ⟨⟩, h⟩
          rw [entry] at h
          cases h
      | some f =>
        simp only [bind, Except.bind, entry, pure, Except.pure]
        constructor
        · rintro ⟨⟩
          exact ⟨trivial, rfl, entry⟩
        · rintro ⟨-, ⟨⟩, h⟩
          rw [entry] at h
          cases h
          rfl

theorem find_of_frame (f : Frame own d₀ d) {cwd : Place} {p : Path} {e₀ e : Entry}
    (found : d₀.find cwd p = .ok (x, e₀)) (entry : d.entry? x = some e) :
    d.find cwd p = .ok (x, e) := by
  obtain ⟨check, leads, -⟩ := find_eq_ok_iff.1 found
  exact find_eq_ok_iff.2 ⟨check, leads.of_frame f, entry⟩

/-- A directory is found by its steps, with or without a slash at the end. -/
theorem find_dir_iff {cwd : Place} {p : Path} :
    d.find cwd p = .ok (x, .dir) ↔
      checkPath p = .ok () ∧ d.Leads false maxLinks (origin cwd p) p.base x ∧
        d.entry? x = some .dir := by
  rw [find_eq_ok_iff, Path.components_eq]
  by_cases ends : p.endsInSlash = true
  · rw [if_pos ends]
    constructor
    · rintro ⟨check, leads, dir⟩
      obtain ⟨y, links', first, second⟩ := leads.split
      -- the slash leads nowhere else
      cases second with
      | stay _ _ rest => cases rest; exact ⟨check, first, dir⟩
    · rintro ⟨check, leads, dir⟩
      exact ⟨check, leads.append (fun _ => .stay dir (.inr rfl) .stop) (by simp), dir⟩
  · rw [if_neg ends, List.append_nil]

theorem checkPath_eq_ok_iff {p : Path} :
    checkPath p = .ok () ↔ 0 ∉ p.bytes ∧ p.bytes ≠ [] ∧ p.length ≤ maxPath := by
  unfold checkPath
  split
  · simp_all
  · split
    · simp_all
    · split
      · rename_i long
        simp [Nat.not_le.2 long]
      · rename_i zero ne long
        exact ⟨fun _ => ⟨zero, ne, Nat.not_lt.1 long⟩, fun _ => rfl⟩

theorem checkPath_of_child {p : Path} {name : Name} (ne : p.bytes ≠ [])
    (check : checkPath (p.child name) = .ok ()) : checkPath p = .ok () := by
  rw [checkPath_eq_ok_iff] at check ⊢
  obtain ⟨zero, -, short⟩ := check
  refine ⟨fun mem => zero ?_, ne, ?_⟩
  · unfold Path.child
    split <;> exact List.mem_append_left _ mem
  · have := Path.length_lt_length_child p name
    omega

theorem origin_child {cwd : Place} {p : Path} (ne : p.bytes ≠ []) (name : Name) :
    origin cwd (p.child name) = origin cwd p := by
  rw [origin, origin, Path.isAbsolute_child ne]

/-- What an entry's path leads to, when its directory is found. -/
theorem leads_child {cwd : Place} {p : Path} {name : Name} (ne : p.bytes ≠ [])
    (found : d.find cwd p = .ok (x, .dir)) (short : name.bytes.length ≤ maxName)
    (no_link : ∀ target, d.entry? (x ++ [name]) ≠ some (.link target)) :
    d.Leads making maxLinks (origin cwd (p.child name)) (p.child name).components
      (x ++ [name]) := by
  obtain ⟨-, leads, dir⟩ := find_dir_iff.1 found
  rw [origin_child ne, Path.components_child]
  exact leads.append (fun _ => .down dir short no_link) (by simp)

theorem find_child {cwd : Place} {p : Path} {name : Name} {e : Entry} (ne : p.bytes ≠ [])
    (found : d.find cwd p = .ok (x, .dir)) (check : checkPath (p.child name) = .ok ())
    (short : name.bytes.length ≤ maxName) (entry : d.entry? (x ++ [name]) = some e)
    (no_link : ∀ target, e ≠ .link target) :
    d.find cwd (p.child name) = .ok (x ++ [name], e) := by
  refine find_eq_ok_iff.2 ⟨check, leads_child ne found short fun target link => ?_, entry⟩
  rw [entry] at link
  exact no_link target (Option.some.inj link)

/-- The directory of an entry that is found is found. -/
theorem exists_of_find_child {cwd : Place} {p : Path} {name : Name} {e : Entry} (ne : p.bytes ≠ [])
    (found : d.find cwd (p.child name) = .ok (y, e)) :
    ∃ x, d.find cwd p = .ok (x, .dir) ∧ name.bytes.length ≤ maxName := by
  obtain ⟨check, leads, -⟩ := find_eq_ok_iff.1 found
  rw [origin_child ne, Path.components_child] at leads
  obtain ⟨x, links', first, second⟩ := leads.split
  exact ⟨x, find_dir_iff.2 ⟨checkPath_of_child ne check, first, second.dir_of_cons⟩,
    second.short_of_down⟩

/-! ## Spelled places -/

/-- Every name of a place stands in a directory and is short enough to be looked up. -/
def Rooted (d : Disk) (x : Place) : Prop :=
  ∀ above name below, x = above ++ name :: below →
    d.entry? above = some .dir ∧ name.bytes.length ≤ maxName

namespace Rooted

theorem nil : d.Rooted [] := by
  intro above name below spelled
  cases above <;> cases spelled

theorem of_append (r : d.Rooted (x ++ y)) : d.Rooted x := by
  intro above name below spelled
  exact r above name (below ++ y) (by rw [spelled, List.append_assoc, List.cons_append])

theorem dropLast (r : d.Rooted x) : d.Rooted x.dropLast := by
  rcases List.eq_nil_or_concat x with rfl | ⟨init, last, rfl⟩
  · exact r
  · rw [List.concat_eq_append, List.dropLast_concat] at *
    exact r.of_append

/-- Where a path begins is rooted if the working directory is. -/
theorem of_cwd {cwd : Place} (r : d.Rooted cwd) (p : Path) : d.Rooted (origin cwd p) := by
  unfold origin
  split
  · exact .nil
  · exact r

theorem concat (r : d.Rooted x) {name : Name} (dir : d.entry? x = some .dir)
    (short : name.bytes.length ≤ maxName) : d.Rooted (x ++ [name]) := by
  intro above name' below spelled
  rcases List.eq_nil_or_concat below with rfl | ⟨below, last, rfl⟩
  · -- the name in question is the new one
    obtain ⟨rfl, same⟩ := List.append_inj' spelled rfl
    cases same
    exact ⟨dir, short⟩
  · rw [List.concat_eq_append, ← List.cons_append, ← List.append_assoc] at spelled
    exact r above name' below (List.append_inj' spelled rfl).1

theorem of_frame (f : Frame own d₀ d) (r : d₀.Rooted x) : d.Rooted x := by
  intro above name below spelled
  obtain ⟨dir, short⟩ := r above name below spelled
  exact ⟨(f.dir_iff above).2 dir, short⟩

/-- From rooted places paths lead to rooted places. -/
theorem of_leads (r : d.Rooted x) (l : d.Leads making links x cs y) : d.Rooted y := by
  induction l with
  | stop => exact r
  | stay _ _ _ ih => exact ih r
  | climb _ _ ih => exact ih r.dropLast
  | vacant dir short _ => exact r.concat dir short
  | @follow links x y name target cs _ _ _ _ _ ih =>
    refine ih ?_
    split
    · exact .nil
    · exact r
  | descend dir _ short _ _ _ ih => exact ih (r.concat dir short)

/-- Links are followed, so what components lead to is no link. -/
theorem no_link_of_leads (r : d.Rooted x) (no_link : ∀ target, d.entry? x ≠ some (.link target))
    (l : d.Leads making links x cs y) : ∀ target, d.entry? y ≠ some (.link target) := by
  have of_dir {z : Place} (dir : d.entry? z = some .dir) (target : Path) :
      d.entry? z ≠ some (.link target) := by
    rw [dir]
    exact fun same => by cases same
  induction l with
  | stop => exact no_link
  | stay _ _ _ ih => exact ih r no_link
  | @climb links x y cs dir _ ih =>
    refine ih r.dropLast (of_dir ?_)
    rcases List.eq_nil_or_concat' x with rfl | ⟨init, last, rfl⟩
    · exact dir
    · rw [List.dropLast_concat]
      exact (r init last [] rfl).1
  | vacant _ _ free =>
    rw [free]
    exact fun target same => by cases same
  | @follow links x y name target cs dir _ _ _ _ ih =>
    split at ih
    · exact ih .nil (of_dir rfl)
    · exact ih r no_link
  | @descend links x y name e cs dir _ short entry plain _ ih =>
    refine ih (r.concat dir short) fun target link => ?_
    rw [entry] at link
    exact plain target (Option.some.inj link)

/-- What is found is no link. -/
theorem no_link_of_find {cwd : Place} {p : Path} {e : Entry} (r : d.Rooted cwd)
    (found : d.find cwd p = .ok (x, e)) : ∀ target, d.entry? x ≠ some (.link target) := by
  obtain ⟨check, leads, -⟩ := find_eq_ok_iff.1 found
  refine (r.of_cwd p).no_link_of_leads (fun target link => ?_) leads
  -- a path asks for something, and for that it must begin in a directory
  obtain ⟨c, cs, asked⟩ :=
    List.exists_cons_of_ne_nil (Path.components_ne_nil (checkPath_eq_ok_iff.1 check).2.1)
  rw [asked] at leads
  rw [leads.dir_of_cons] at link
  cases link

/-- The names of a rooted place lead down to it. -/
theorem leads_names (r : d.Rooted (x ++ y))
    (no_link : ∀ target, d.entry? (x ++ y) ≠ some (.link target)) :
    d.Leads making links x (y.map .down) (x ++ y) := by
  induction y generalizing x with
  | nil =>
    rw [List.append_nil]
    exact .stop
  | cons name names ih =>
    obtain ⟨dir, short⟩ := r x name names rfl
    have spelled : x ++ name :: names = (x ++ [name]) ++ names := by simp
    rw [spelled] at r no_link ⊢
    cases names with
    | nil =>
      rw [List.append_nil] at no_link ⊢
      exact .down dir short no_link
    | cons next names =>
      have dir' := (r (x ++ [name]) next names rfl).1
      exact .descend dir (by simp) short dir' (fun _ h => by cases h) (ih r no_link)

/-- The spelling of a rooted place leads to it. -/
theorem leads_path (r : d.Rooted x) (ne : x ≠ [])
    (no_link : ∀ target, d.entry? x ≠ some (.link target)) (cwd : Place) :
    d.Leads making maxLinks (origin cwd x.path) x.path.components x := by
  rw [origin, if_pos (Place.isAbsolute_path x), Place.components_path ne]
  exact Rooted.leads_names (x := []) r no_link

end Rooted

end Disk

end CallSweep
