/-
  A file system as a value.

  A `Disk` is a list of entries by their places, together with the inodes that regular files are
  made of.  Two entries with one inode are hard links of each other: what is written through one
  is read through the other.  No place has two entries, and the root is a directory without an
  entry of its own.

  `locate` follows a path from a directory: names lead down, `..` leads up, and a symbolic link is
  replaced by its target as long as fewer than `maxLinks` have been.  Each step takes a component
  off the path or a link off that allowance.  The last name of a path need not exist, since it may
  be about to be made.

  A disk has no owners, no times and no limit to its space, and a directory no mode: nobody is
  denied anything on account of them.
-/
import CallSweep.Disk.Error
import CallSweep.Disk.Path

namespace CallSweep

/-! ## Entries -/

/-- What stands at a place. -/
inductive Entry where
  | dir
  | file (inode : Nat)
  | link (target : Path)
  | socket
  /-- The device that reads as empty and swallows what is written to it. -/
  | nullDevice
  deriving DecidableEq

/-- A regular file apart from its names: its bytes and its permission bits. -/
structure Inode where
  bytes : ByteArray
  mode : Nat

instance : Inhabited Inode := ⟨⟨.empty, 0⟩⟩

/-- Entries by place, and inodes by number. -/
structure Disk where
  entries : List (Place × Entry)
  inode : Nat → Inode
  nodup : (entries.map Prod.fst).Nodup

/-! ## Limits -/

/-- Most bytes of a path. -/
def maxPath : Nat := 4095

/-- Most bytes of a name. -/
def maxName : Nat := 255

/-- Most symbolic links that are followed on one path. -/
def maxLinks : Nat := 40

namespace Disk

/-! ## Looking up and changing entries -/

/-- A disk with nothing but its root. -/
def empty : Disk := ⟨[], fun _ => default, by simp⟩

/-- What stands at a place. -/
def entry? (d : Disk) (place : Place) : Option Entry :=
  if place = [] then some .dir else d.entries.lookup place

/-- The disk without what stands at a place. -/
def erase (d : Disk) (place : Place) : Disk where
  entries := d.entries.filter (·.1 ≠ place)
  inode := d.inode
  nodup := d.nodup.sublist (List.filter_sublist.map _)

/-- The disk with an entry at a place, instead of what stood there. -/
def insert (d : Disk) (place : Place) (e : Entry) : Disk where
  entries := (place, e) :: (d.erase place).entries
  inode := d.inode
  nodup := by
    rw [List.map_cons, List.nodup_cons]
    refine ⟨fun h => ?_, (d.erase place).nodup⟩
    obtain ⟨x, hx, hp⟩ := List.mem_map.1 h
    simp [erase, hp] at hx

/-- The disk with other contents of an inode. -/
def setInode (d : Disk) (number : Nat) (inode : Inode) : Disk :=
  { d with inode := fun n => if n = number then inode else d.inode n }

/-- The inode number of an entry. -/
def inodeOf? : Entry → Option Nat
  | .file n => some n
  | _ => none

/-- A number that no file has. -/
def freshInode (d : Disk) : Nat :=
  (d.entries.filterMap (inodeOf? ·.2)).foldl (fun n m => max n (m + 1)) 0

/-- Names of a file. -/
def linkCount (d : Disk) (number : Nat) : Nat :=
  d.entries.countP (·.2 = .file number)

/-! ## Following paths -/

/-- Where components lead from a place, when `links` more links may be followed.  With `making`,
    what they lead to is to be opened for writing and made if need be; then a name with a slash
    behind it is refused, since nothing but a directory can be meant. -/
def locate (d : Disk) (making : Bool) (links : Nat) (place : Place) :
    List Component → Except OsError Place
  | [] => .ok place
  | c :: cs =>
    match d.entry? place, c with
    | some .dir, .here => d.locate making links place cs
    | some .dir, .slash => d.locate making links place cs
    | some .dir, .up => d.locate making links place.dropLast cs
    | some .dir, .down name =>
      if making ∧ cs = [.slash] then .error .isDirectory
      else if maxName < name.bytes.length then .error .nameTooLong
      else
        match d.entry? (place ++ [name]) with
        | none => if cs = [] then .ok (place ++ [name]) else .error .noEntry
        | some (.link target) =>
          match links with
          | 0 => .error .tooManyLinks
          | links + 1 =>
            d.locate making links (if target.isAbsolute then [] else place) (target.components ++ cs)
        | some _ => d.locate making links (place ++ [name]) cs
    | _, _ => .error .notDirectory
  termination_by cs => (links, cs.length)

/-- Refuses the paths that no system call can be made with. -/
def checkPath (p : Path) : Except OsError Unit :=
  if 0 ∈ p.bytes then .error .nulInPath
  else if p.bytes = [] then .error .noEntry
  else if maxPath < p.length then .error .nameTooLong
  else .ok ()

/-- Where a path begins that is read in the directory `cwd`. -/
def origin (cwd : Place) (p : Path) : Place := if p.isAbsolute then [] else cwd

/-- The place of a path, with what stands there. -/
def find (d : Disk) (cwd : Place) (p : Path) : Except OsError (Place × Entry) := do
  checkPath p
  let place ← d.locate false maxLinks (origin cwd p) p.components
  match d.entry? place with
  | some e => return (place, e)
  | none => throw .noEntry

/-- The place of a path whose last name is taken as it is, even if it is a link. -/
def findName (d : Disk) (cwd : Place) (p : Path) : Except OsError Place := do
  checkPath p
  match p.components.getLast? with
  | some (.down name) =>
    let dir ← d.locate false maxLinks (origin cwd p) p.components.dropLast
    match d.entry? dir with
    | some .dir =>
      if maxName < name.bytes.length then throw .nameTooLong
      return dir ++ [name]
    | some _ => throw .notDirectory
    | none => throw .noEntry
  | _ => throw .busy

end Disk

end CallSweep
