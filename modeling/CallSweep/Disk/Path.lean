/-
  Paths as they are written, and places as they are.

  A `Path` is the byte string that a user or a program gives.  It is kept as it came, since
  messages show it.  Its `components` are what a file system reads in it: each is a name, a
  step up, or a step to the place itself; a slash at the end is a component too, since it asks that
  the place be a directory.

  A `Place` is where a path leads when every link has been followed: the names from the root down.
  A `Name` holds no slash and is neither empty nor `.` nor `..`, so a place has one spelling,
  `Place.path`.
-/
import CallSweep.Text.Utf8

namespace CallSweep

/-! ## Bytes of paths -/

/-- The byte that separates names. -/
def slash : UInt8 := 0x2f

/-- The byte in front of an extension. -/
def dot : UInt8 := 0x2e

/-- A path as it is written. -/
structure Path where
  bytes : List UInt8
  deriving DecidableEq, Inhabited

/-- Whether some bytes can name an entry of a directory. -/
def IsName (bytes : List UInt8) : Prop :=
  slash ∉ bytes ∧ bytes ≠ [] ∧ bytes ≠ [dot] ∧ bytes ≠ [dot, dot]

instance (bytes : List UInt8) : Decidable (IsName bytes) :=
  inferInstanceAs (Decidable (_ ∧ _ ∧ _ ∧ _))

/-- The name of an entry of a directory. -/
structure Name where
  bytes : List UInt8
  isName : IsName bytes
  deriving DecidableEq

theorem Name.slash_not_mem (name : Name) : slash ∉ name.bytes := name.isName.1

/-- What one part of a path asks for. -/
inductive Component where
  /-- The place itself, which must be a directory. -/
  | here
  /-- The same, asked for by a slash at the end. -/
  | slash
  /-- The directory above. -/
  | up
  /-- An entry of the directory. -/
  | down (name : Name)
  deriving DecidableEq

/-- Where a path leads: the names from the root down. -/
abbrev Place := List Name

namespace Name

/-- The name as a text, where it is one. -/
def text? (n : Name) : Option String := Text.decode? n.bytes

end Name

namespace Path

/-! ## Reading a path -/

def ofString (s : String) : Path := ⟨Text.encode s⟩

/-- The path for a message. -/
def display (p : Path) : String := Text.lossy p.bytes

def length (p : Path) : Nat := p.bytes.length

def isAbsolute (p : Path) : Bool := p.bytes.head? == some slash

def endsInSlash (p : Path) : Bool := p.bytes.getLast? == some slash

/-- The stretches of bytes between slashes. -/
def splitSlash : List UInt8 → List (List UInt8)
  | [] => [[]]
  | b :: bs =>
    if b = slash then [] :: splitSlash bs
    else
      match splitSlash bs with
      | [] => [[b]]
      | piece :: pieces => (b :: piece) :: pieces

/-- What a stretch of bytes between slashes asks for: nothing where two slashes meet. -/
def component? (piece : List UInt8) : Option Component :=
  if piece = [dot] then some .here
  else if piece = [dot, dot] then some .up
  else if h : IsName piece then some (.down ⟨piece, h⟩)
  else none

/-- What a path asks for, step by step. -/
def components (p : Path) : List Component :=
  (splitSlash p.bytes).filterMap component? ++ if p.endsInSlash then [.slash] else []

/-- The components that lead on from a place. -/
def steps (p : Path) : List Component :=
  p.components.filter fun c => c ≠ .here && c ≠ .slash

/-- The last name in a path, steps to the place itself apart. -/
def fileName? (p : Path) : Option Name :=
  match p.steps.getLast? with
  | some (.down name) => some name
  | _ => none

/-! ## Extensions -/

/-- What follows the last dot of a file name.  A dot at the head of the name does not count. -/
def extension? (p : Path) : Option (List UInt8) := do
  let name ← p.fileName?
  let reversed := name.bytes.reverse
  let after := reversed.takeWhile (· ≠ dot)
  match reversed.dropWhile (· ≠ dot) with
  | _ :: _ :: _ => some after.reverse
  | _ => none

/-! ## Joining -/

/-- The path `q` as seen from the directory `p`. -/
def join (p q : Path) : Path :=
  if q.isAbsolute then q
  else if p.bytes.isEmpty || p.endsInSlash then ⟨p.bytes ++ q.bytes⟩
  else ⟨p.bytes ++ slash :: q.bytes⟩

/-- The path of an entry of the directory `p`. -/
def child (p : Path) (name : Name) : Path :=
  if p.bytes.isEmpty || p.endsInSlash then ⟨p.bytes ++ name.bytes⟩
  else ⟨p.bytes ++ slash :: name.bytes⟩

/-- An entry's path is longer than its directory's. -/
theorem length_lt_length_child (p : Path) (name : Name) : p.length < (p.child name).length := by
  have h : 0 < name.bytes.length := List.length_pos_iff.2 name.isName.2.1
  unfold child length
  split
  · simp only [List.length_append]; omega
  · simp only [List.length_append, List.length_cons]; omega

/-- A path seen from the directory `cwd`, without idle steps: what is written twice between two
    names is written once, `..` and one slash at the end stay.  Two slashes at the head of an
    absolute path stay as well, since their meaning is the system's own; the empty path means
    nothing and stays empty. -/
def absolute (cwd p : Path) : Path :=
  let pieces := (splitSlash p.bytes).filter fun piece => !piece.isEmpty && piece ≠ [dot]
  let twoSlashes := p.bytes.take 2 == [slash, slash] && p.bytes[2]? != some slash
  let base : Path :=
    if twoSlashes then ⟨[slash, slash]⟩ else if p.isAbsolute then ⟨[slash]⟩ else cwd
  let joined : Path := pieces.foldl (fun q piece => q.join ⟨piece⟩) base
  if p.bytes.isEmpty then p
  else if p.endsInSlash then joined.join ⟨[]⟩
  else joined

end Path

namespace Place

/-- The one spelling of a place. -/
def path (place : Place) : Path :=
  match place with
  | [] => ⟨[slash]⟩
  | names => ⟨names.flatMap fun name => slash :: name.bytes⟩

end Place

end CallSweep
