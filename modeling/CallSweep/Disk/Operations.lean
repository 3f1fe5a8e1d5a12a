/-
  What programs do with a file system: looking at paths, listing directories, reading and writing
  files, renaming and removing.

  Each operation takes the directory that relative paths are read in.  An operation that fails
  leaves the disk as it is.
-/
import CallSweep.Disk.Basic

namespace CallSweep

/-! ## What is seen -/

/-- Kinds of entries, as far as a walk tells them apart. -/
inductive FileKind where
  | file
  | directory
  | other
  deriving DecidableEq, Repr

/-- What can be learnt of a path without opening it. -/
structure Stat where
  kind : FileKind
  size : Nat
  mode : Nat
  deriving DecidableEq, Repr

/-- A listing of the directory `p` that is being read: the entries that have not come up yet.  A
    directory can be listed only if its path is not too long. -/
structure Listing (p : Path) where
  entries : List (Name × FileKind)
  length_le : p.length ≤ maxPath
  deriving DecidableEq

namespace Listing

variable {p : Path}

/-- The same listing, read on. -/
def Shorter (l : Listing p) : Type := { rest : Listing p // rest.entries.length < l.entries.length }

/-- The entry that comes up next, and the listing behind it. -/
def next? (l : Listing p) : Option ((Name × FileKind) × l.Shorter) :=
  match left : l.entries with
  | [] => none
  | e :: entries => some (e, ⟨⟨entries, l.length_le⟩, by simp [left]⟩)

end Listing

namespace Disk

/-- Permission bits of a file that is made. -/
def newFileMode : Nat := 0o644

/-- Permission bits that a call can set. -/
def modeMask : Nat := 0o7777

/-- The kind of an entry that is not followed. -/
def kindOf : Entry → FileKind
  | .dir => .directory
  | .file _ => .file
  | _ => .other

variable (d : Disk) (cwd : Place)

/-! ## Looking -/

/-- What a path leads to. -/
def stat (p : Path) : Except OsError Stat := do
  match ← d.find cwd p with
  | (_, .file n) => return ⟨.file, (d.inode n).bytes.size, (d.inode n).mode⟩
  | (_, .dir) => return ⟨.directory, 4096, 0o755⟩
  | (_, .nullDevice) => return ⟨.other, 0, 0o666⟩
  | (_, _) => return ⟨.other, 0, 0o755⟩

/-- The entries right below a place. -/
def children (place : Place) : List (Name × FileKind) :=
  d.entries.filterMap fun (q, e) =>
    match q.getLast? with
    | some name => if q.dropLast = place then some (name, kindOf e) else none
    | none => none

/-- Opens a directory, to read its entries as they are now.  Links are not followed. -/
def list (p : Path) : Except OsError (Listing p) :=
  if h : p.length ≤ maxPath then
    match d.find cwd p with
    | .ok (place, .dir) => .ok ⟨d.children place, h⟩
    | .ok _ => .error .notDirectory
    | .error e => .error e
  else .error (if 0 ∈ p.bytes then .nulInPath else .nameTooLong)

/-- The bytes of a file. -/
def read (p : Path) : Except OsError ByteArray := do
  match ← d.find cwd p with
  | (_, .file n) => return (d.inode n).bytes
  | (_, .dir) => throw .isDirectory
  | (_, .nullDevice) => return .empty
  | (_, _) => throw .noDevice

/-- The place that a path leads to, links followed. -/
def resolve (p : Path) : Except OsError Place := do
  let (place, _) ← d.find cwd p
  if maxPath < place.path.length then throw .nameTooLong
  return place

/-! ## Changing -/

/-- Opens a path for writing and puts bytes in place of what was there; a file that is not there
    is made.  A link is written through. -/
def write (p : Path) (bytes : ByteArray) : Except OsError Disk := do
  checkPath p
  let place ← d.locate true maxLinks (origin cwd p) p.components
  match d.entry? place with
  | some (.file n) => return d.setInode n { d.inode n with bytes }
  | some .dir => throw .isDirectory
  | some .nullDevice => return d
  | some _ => throw .noDevice
  | none =>
    let n := d.freshInode
    return (d.insert place (.file n)).setInode n ⟨bytes, newFileMode⟩

/-- Sets permission bits. -/
def chmod (p : Path) (mode : Nat) : Except OsError Disk := do
  match ← d.find cwd p with
  | (_, .file n) => return d.setInode n { d.inode n with mode := mode &&& modeMask }
  | (_, _) => return d

/-- Gives an entry another place and takes away what stood there.  Two names of one file are both
    left. -/
def rename (p q : Path) : Except OsError Disk := do
  let source ← d.findName cwd p
  let goal ← d.findName cwd q
  match d.entry? source, d.entry? goal with
  | none, _ => throw .noEntry
  | some e, some e' =>
    if source = goal then return d
    else if e ≠ .dir && e' = .dir then throw .isDirectory
    else if e = .dir && e' ≠ .dir then throw .notDirectory
    else if e = e' && (inodeOf? e).isSome then return d
    else return (d.erase source).insert goal e
  | some e, none => return (d.erase source).insert goal e

/-- Takes an entry away.  Directories are not taken away like this. -/
def remove (p : Path) : Except OsError Disk := do
  let place ← d.findName cwd p
  match d.entry? place with
  | none => throw .noEntry
  | some .dir => throw .isDirectory
  | some _ => return d.erase place

end Disk

end CallSweep
