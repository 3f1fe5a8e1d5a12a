/-
  Reading and writing source files.

  `readSource` admits plain text only: a file that is there, is not larger than a limit, has no
  NUL among its first bytes and is UTF-8.  The first of these that fails is the error.

  `writeSource` overwrites a file in place, or replaces it by a finished copy.  The copy is made
  under a hidden name beside the file that the path leads to, takes over its permissions and then
  its name, so that a write that fails leaves the file as it was.  After a failure the copy is
  taken away again, if it can be.
-/
import CallSweep.Run.Script

namespace CallSweep

/-! ## What can go wrong -/

/-- Why a source file cannot be read or written. -/
inductive SourceError where
  | notFound (p : Path)
  | tooLarge (size limit : Nat)
  | binary
  | encoding
  | system (e : OsError)
  deriving DecidableEq

def SourceError.message : SourceError → String
  | .notFound p => "File not found: " ++ p.display
  | .tooLarge size limit =>
    "File too large: " ++ toString size ++ " bytes (limit: " ++ toString limit ++ ")"
  | .binary => "Binary file detected"
  | .encoding => "Not valid UTF-8 text"
  | .system e => "IO error: " ++ e.message

/-! ## Reading -/

/-- How many bytes are looked at for a NUL. -/
def sniffLength : Nat := 8192

/-- Whether there is a NUL among the first bytes. -/
def isBinary (bytes : ByteArray) : Bool :=
  (bytes.data.toList.take sniffLength).contains 0

/-- The text that some bytes are, if they are plain text. -/
def plainText (bytes : ByteArray) : Except SourceError String :=
  if isBinary bytes then .error .binary
  else
    match String.fromUTF8? bytes with
    | some text => .ok text
    | none => .error .encoding

/-- Reads a source file of at most `limit` bytes. -/
def readSource (p : Path) (limit : Nat) : Script (Except SourceError String) :=
  .ask (.stat p) fun
    | .error _ => .done (.error (.notFound p))
    | .ok stat =>
      if limit < stat.size then .done (.error (.tooLarge stat.size limit))
      else
        .ask (.read p) fun
          | .error e => .done (.error (.system e))
          | .ok bytes => .done (plainText bytes)

/-! ## The copy beside a file -/

/-- What the name of a copy ends in. -/
def copySuffix : List UInt8 := ".omni-strip.tmp".toList.map fun c => c.val.toUInt8

/-- The name of the copy of a file with some name. -/
def copyName (name : List UInt8) (h : slash ∉ name) : Name where
  bytes := dot :: name ++ copySuffix
  isName := by
    have suffix : slash ∉ copySuffix ∧ copySuffix.length = 15 := by decide
    refine ⟨?_, List.cons_ne_nil _ _, ?_, ?_⟩
    · simp only [List.cons_append, List.mem_cons, List.mem_append, not_or]
      exact ⟨by decide, h, suffix.1⟩
    all_goals
      intro same
      have := congrArg List.length same
      simp [suffix.2] at this

/-- The place of the copy of the file at a place. -/
def copyPlace (place : Place) : Place :=
  place.dropLast ++
    [match place.getLast? with
      | some name => copyName name.bytes name.slash_not_mem
      | none => copyName [] (List.not_mem_nil)]

/-! ## Writing -/

/-- Makes the copy and gives it the permissions and the name of the file. -/
def replaceFile (file copy : Path) (bytes : ByteArray) : Script (Except OsError Unit) :=
  .ask (.stat file) fun
    | .error e => .done (.error e)
    | .ok stat =>
      .ask (.write copy bytes) fun
        | .error e => .done (.error e)
        | .ok () =>
          .ask (.chmod copy stat.mode) fun
            | .error e => .done (.error e)
            | .ok () => .ask (.rename copy file) .done

/-- The event of a copy that could not be taken away. -/
def copyLeft (copy : Path) : LogEvent where
  topic := .files
  level := .warn
  text := "failed to remove temp file after write error"
  fields := [("temp", copy.display)]
  unshown := ["error"]

/-- Takes a copy away after a failure.  Nothing to take away is as good. -/
def removeCopy (copy : Path) : Script Unit :=
  .ask (.remove copy) fun
    | .ok () => .done ()
    | .error .noEntry => .done ()
    | .error _ => Script.request (.note (.event (copyLeft copy)))

/-- Replaces the file that a path leads to by a finished copy. -/
def writeByCopy (p : Path) (bytes : ByteArray) : Script (Except OsError Unit) :=
  .ask (.resolve p) fun
    | .error e => .done (.error e)
    | .ok place => do
      let file := place.path
      let copy := (copyPlace place).path
      match ← replaceFile file copy bytes with
      | .ok () => return .ok ()
      | .error e =>
        removeCopy copy
        return .error e

/-- Writes a text to a source file. -/
def writeSource (p : Path) (text : String) (atomic : Bool) : Script (Except SourceError Unit) := do
  let result ← if atomic then writeByCopy p text.toUTF8
    else Script.request (.write p text.toUTF8)
  return result.mapError .system

end CallSweep
