/-
  The program on a real machine.

  `perform` meets the requests of a run with the operations of the machine, and `main` hands it the
  run that the arguments ask for.  Nothing is decided here.

  Permission bits cannot be seen from here.  So that a file keeps them, taking over its permissions
  is left to the step behind it: a finished copy does not take the file's name but is poured into
  the file.
-/
import CallSweep.Command.Program

namespace CallSweep.Live

/-! ## Errors -/

/-- The number and the words of a failure. -/
def codeOf : IO.Error → UInt32 × String
  | .alreadyExists _ n s | .interrupted _ n s | .noFileOrDirectory _ n s
  | .invalidArgument _ n s | .permissionDenied _ n s | .resourceExhausted _ n s
  | .inappropriateType _ n s | .noSuchThing _ n s | .otherError n s | .resourceBusy n s
  | .resourceVanished n s | .unsupportedOperation n s | .hardwareFault n s
  | .unsatisfiedConstraints n s | .illegalOperation n s | .protocolError n s
  | .timeExpired n s => (n, s)
  | .unexpectedEof => (0, "unexpected end of file")
  | .userError s => (0, s)

/-- A failure in the terms of this library. -/
def osError (e : IO.Error) : OsError :=
  let (code, text) := codeOf e
  -- Some operations give the number with its sign turned.
  match if code < 0x80000000 then code else 0 - code with
  | 2 => .noEntry
  | 6 => .noDevice
  | 16 => .busy
  | 20 => .notDirectory
  | 21 => .isDirectory
  | 36 => .nameTooLong
  | 40 => .tooManyLinks
  | n => .other (text ++ " (os error " ++ toString n ++ ")")

/-- Does something with a path that the machine can be given. -/
def onPath {α : Type} (p : Path) (act : String → IO α) : IO (Except OsError α) := do
  match Disk.checkPath p, Text.decode? p.bytes with
  | .error e, _ => return .error e
  | .ok (), none => return .error (.other "Invalid or incomplete multibyte character (os error 84)")
  | .ok (), some s =>
    try return .ok (← act s)
    catch e => return .error (osError e)

/-! ## Looking -/

def kindOf : IO.FS.FileType → FileKind
  | .dir => .directory
  | .file => .file
  | _ => .other

def stat (p : String) : IO Stat := do
  let m ← ((← IO.currentDir) / p).metadata
  return ⟨kindOf m.type, m.byteSize.toNat, 0⟩

/-- The names in a directory.  Of what kind they are is looked up when they come up. -/
def names (p : String) : IO (List (Name × FileKind)) := do
  let found ← ((← IO.currentDir) / p).readDir
  return found.toList.filterMap fun entry =>
    let bytes := Text.encode entry.fileName
    if h : IsName bytes then some (⟨bytes, h⟩, .other) else none

def list (p : Path) : IO (Except OsError (Listing p)) := do
  if h : p.length ≤ maxPath then
    return (← onPath p names).map fun found => ⟨found, h⟩
  else return .error .nameTooLong

/-- The kind of an entry, links not followed. -/
def entryKind (p : String) : IO FileKind := do
  return kindOf (← ((← IO.currentDir) / p).symlinkMetadata).type

def next (p : Path) (l : Listing p) :
    IO (Except OsError (Option ((Name × Except OsError FileKind) × l.Shorter))) := do
  match l.next? with
  | none => return .ok none
  | some ((name, _), rest) => return .ok (some ((name, ← onPath (p.child name) entryKind), rest))

def resolve (p : String) : IO Place := do
  let real ← IO.FS.realPath p
  return (Path.ofString real.toString).components.filterMap fun
    | .down name => some name
    | _ => none

/-! ## Changing -/

/-- Gives a finished copy's bytes to the file and takes the copy away. -/
def pour (copy file : String) : IO Unit := do
  IO.FS.writeBinFile file (← IO.FS.readBinFile copy)
  IO.FS.removeFile copy

/-! ## Runs -/

/-- What a run changes beside the disk. -/
structure State where
  tally : IO.Ref Tally
  complaints : IO.Ref Nat
  status : IO.Ref Nat

/-- Prints on a channel. -/
def print (printed : Channel × String) : IO Unit :=
  match printed with
  | (.output, text) => do
    IO.print text
    (← IO.getStdout).flush
  | (.error, text) => IO.eprint text

/-- Tells a note: a message to the console, an event to the log. -/
def tell (o : Options) (filter : LogFilter) (s : State) : Note → IO Unit
  | .message m => do
    if let .error _ := m then s.complaints.modify (· + 1)
    (Program.console o.json m).forM print
  | .event e => if filter.admits e then IO.eprintln e.fullLine else pure ()

/-- Meets a request. -/
def answer (o : Options) (filter : LogFilter) (s : State) : (r : Request) → IO r.Answer
  | .stat p => onPath p stat
  | .list p => list p
  | .next p l => next p l
  | .read p => onPath p fun p => IO.FS.readBinFile p
  | .resolve p => onPath p resolve
  | .write p bytes => onPath p fun p => IO.FS.writeBinFile p bytes
  | .chmod _ _ => return .ok ()
  | .rename p q => do return (← onPath p fun p => onPath q (pour p)).bind id
  | .remove p => onPath p fun p => IO.FS.removeFile p
  | .count t => s.tally.modify (· + t)
  | .tally => s.tally.get
  | .note n => tell o filter s n
  | .complaints => s.complaints.get
  | .print c text => print (c, text)
  | .exit status => s.status.set status

/-- Carries out a run behind its arguments, and gives the exit status. -/
def run (env : Environment) (o : Options) : IO Nat := do
  let s : State := ⟨← IO.mkRef .zero, ← IO.mkRef 0, ← IO.mkRef 0⟩
  let filter := LogFilter.choose env.logFilter o.verbose
  let cwd := Path.ofString (← IO.currentDir).toString
  let perform (r : Request) : IO (Except String r.Answer) := do return .ok (← answer o filter s r)
  let _ ← (Program.job env cwd o).exec perform (pure [])
  s.status.get

/-- The bytes of a variable of the environment, if it is set. -/
def envBytes (name : String) : IO (Option (List UInt8)) := do
  return (← IO.getEnv name).map Text.encode

/-- Does what the arguments ask for, and gives the exit status. -/
def start (args : List String) : IO Nat := do
  match Options.ofArguments (args.map Text.encode) with
  | .error stop =>
    print (Program.stopText stop)
    return Program.stopStatus stop
  | .ok o =>
    run ⟨← envBytes "HOME", ← envBytes "XDG_CONFIG_HOME", ← envBytes "RUST_LOG"⟩ o

end CallSweep.Live

def main (args : List String) : IO UInt32 := do
  return (← CallSweep.Live.start args).toUInt32
