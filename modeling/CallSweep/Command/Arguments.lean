/-
  Reading the arguments of a command line.

  Arguments are byte strings, read from left to right.  One that begins with two hyphens is an
  option by its long name, and may carry its value behind an equals sign; one that begins with a
  single hyphen is a row of one-letter options; all others are values.  Behind a lone `--` all
  arguments are values.  A lone hyphen is a value.  A value belongs to the option right before it
  that lacks one, else it is the path.

  A value is not judged when it is read but when it is `settle`d: before the next option or path
  that is known is taken, and at the end.  So of two faults the earlier one is reported, except
  that an argument that is refused for itself (an unknown option, a flag with a value, a second
  path) is reported before the value that still waits.
-/
import CallSweep.Command.Options
import CallSweep.Text.Digits

namespace CallSweep

namespace Arguments

/-! ## Options -/

/-- Options that are on when they are given. -/
inductive Flag where
  | dryRun
  | noAtomic
  | json
  | verbose
  deriving DecidableEq, Repr

/-- What values are for. -/
inductive Slot where
  | path
  | callee
  | ext
  | maxDepth
  | skipDir
  | conf
  deriving DecidableEq, Repr

/-- What an option does. -/
inductive Meaning where
  | flag (f : Flag)
  | slot (s : Slot)
  | help
  | version
  deriving DecidableEq, Repr

/-- The options by their long names. -/
def longNames : List (String × Meaning) :=
  [("dry-run", .flag .dryRun), ("callee", .slot .callee), ("ext", .slot .ext),
    ("max-depth", .slot .maxDepth), ("skip-dir", .slot .skipDir), ("no-atomic", .flag .noAtomic),
    ("json", .flag .json), ("conf", .slot .conf), ("verbose", .flag .verbose), ("help", .help),
    ("version", .version)]

/-- What a letter behind a single hyphen means. -/
def ofLetter? : Char → Option Meaning
  | 'v' => some (.flag .verbose)
  | 'h' => some .help
  | 'V' => some .version
  | _ => none

/-- What a long name means. -/
def ofLongName? (name : List UInt8) : Option Meaning :=
  (Text.decode? name).bind fun name => longNames.lookup name

/-! ## Why reading ends -/

/-- Why no options come of some arguments. -/
inductive Stop where
  /-- Help is asked for. -/
  | help
  /-- The version is asked for. -/
  | version
  /-- An option that there is not, or a second path. -/
  | unknown
  /-- An option without its value, or an empty path. -/
  | noValue
  /-- A depth that is no number of 64 bits. -/
  | badNumber
  /-- A flag with a value. -/
  | needlessValue
  /-- An option that can be given once is given again. -/
  | repeated
  /-- A value that is no text. -/
  | notText
  deriving DecidableEq, Repr

/-! ## Taking flags and values -/

/-- The flag, as far as it has been given. -/
def raised (o : Options) : Flag → Bool
  | .dryRun => o.dryRun
  | .noAtomic => o.noAtomic
  | .json => o.json
  | .verbose => o.verbose

/-- Raises a flag, which must be down. -/
def raise (o : Options) (f : Flag) : Except Stop Options :=
  if raised o f then .error .repeated
  else
    .ok <| match f with
      | .dryRun => { o with dryRun := true }
      | .noAtomic => { o with noAtomic := true }
      | .json => { o with json := true }
      | .verbose => { o with verbose := true }

/-- A value as a text. -/
def text (value : List UInt8) : Except Stop String :=
  match Text.decode? value with
  | some s => .ok s
  | none => .error .notText

/-- A value as a depth: decimal digits, one plus sign in front of them at most. -/
def depth (value : List UInt8) : Except Stop Nat := do
  match Text.digits? 10 (Text.withoutPlus (← text value).toList) with
  | some n => if n ≤ Text.maxWord then return n else throw .badNumber
  | none => throw .badNumber

/-- A value as a path, which is not empty. -/
def path (value : List UInt8) : Except Stop Path :=
  if value.isEmpty then .error .noValue else .ok ⟨value⟩

/-- The value for a slot that holds one at most. -/
def once {α : Type} (old : Option α) (new : Except Stop α) : Except Stop (Option α) :=
  if old.isSome then .error .repeated else new.map some

/-- Puts a value into a slot. -/
def fill (o : Options) (value : List UInt8) : Slot → Except Stop Options
  | .path => do return { o with path := ← once o.path (path value) }
  | .callee => do return { o with callees := o.callees ++ [← text value] }
  | .ext => do return { o with extensions := o.extensions ++ [← text value] }
  | .maxDepth => do return { o with maxDepth := ← once o.maxDepth (depth value) }
  | .skipDir => do return { o with skipDirs := o.skipDirs ++ [← text value] }
  | .conf => do return { o with conf := ← once o.conf (path value) }

/-! ## Reading -/

/-- What is still open between two arguments. -/
inductive Pending where
  | nothing
  /-- An option that lacks its value. -/
  | waiting (s : Slot)
  /-- A value that has not been judged. -/
  | holding (s : Slot) (value : List UInt8)
  deriving DecidableEq, Repr

/-- The arguments read so far. -/
structure Reading where
  options : Options
  pending : Pending

/-- Judges what is pending. -/
def settle (r : Reading) : Except Stop Options :=
  match r.pending with
  | .nothing => .ok r.options
  | .waiting _ => .error .noValue
  | .holding s value => fill r.options value s

/-- Whether the path has been given. -/
def hasPath (r : Reading) : Bool :=
  r.options.path.isSome ||
    match r.pending with
    | .holding .path _ => true
    | _ => false

/-- Takes an argument as the path. -/
def readPath (r : Reading) (arg : List UInt8) : Except Stop Reading := do
  if hasPath r then throw .unknown
  return ⟨← settle r, .holding .path arg⟩

/-- Takes an argument as a value. -/
def readValue (r : Reading) (arg : List UInt8) : Except Stop Reading :=
  match r.pending with
  | .waiting s => .ok ⟨r.options, .holding s arg⟩
  | _ => readPath r arg

/-- Takes an option without a value attached to it. -/
def readOption (r : Reading) : Meaning → Except Stop Reading
  | .flag f => do return ⟨← raise (← settle r) f, .nothing⟩
  | .slot s => do return ⟨← settle r, .waiting s⟩
  | .help => do
    let _ ← settle r
    throw .help
  | .version => do
    let _ ← settle r
    throw .version

/-- Takes an option by its long name. -/
def readLong (r : Reading) (name : List UInt8) (value : Option (List UInt8)) :
    Except Stop Reading :=
  match ofLongName? name, value with
  | none, _ => .error .unknown
  | some m, none => readOption r m
  | some (.slot s), some value => do return ⟨← fill (← settle r) value s, .nothing⟩
  | some _, some _ => .error .needlessValue

/-- Takes a row of letters. -/
def readLetters (r : Reading) : List Char → Except Stop Reading
  | [] => .ok r
  | c :: cs =>
    match ofLetter? c with
    | none => .error .unknown
    | some m => do readLetters (← readOption r m) cs

/-! ## Shapes of arguments -/

/-- The byte that options begin with. -/
def hyphen : UInt8 := 0x2d

/-- The byte between an option and a value that is attached to it. -/
def equalsSign : UInt8 := 0x3d

/-- What an argument looks like. -/
inductive Shape where
  /-- The lone `--`. -/
  | divider
  | long (name : List UInt8) (value : Option (List UInt8))
  | letters (row : List UInt8)
  | value
  deriving DecidableEq, Repr

/-- What an argument looks like. -/
def shape : List UInt8 → Shape
  | a :: b :: rest =>
    if a ≠ hyphen then .value
    else if b ≠ hyphen then .letters (b :: rest)
    else if rest.isEmpty then .divider
    else
      let name := rest.takeWhile (· ≠ equalsSign)
      match rest.dropWhile (· ≠ equalsSign) with
      | [] => .long name none
      | _ :: value => .long name (some value)
  | _ => .value

/-! ## Rows of arguments -/

/-- Takes arguments behind the divider. -/
def readPaths (r : Reading) : List (List UInt8) → Except Stop Reading
  | [] => .ok r
  | arg :: args => do readPaths (← readPath r arg) args

/-- Takes arguments. -/
def readAll (r : Reading) : List (List UInt8) → Except Stop Reading
  | [] => .ok r
  | arg :: args => do
    match shape arg with
    | .divider => readPaths r args
    | .long name value => readAll (← readLong r name value) args
    | .letters row => readAll (← readLetters r (Text.lossy row).toList) args
    | .value => readAll (← readValue r arg) args

end Arguments

/-- The options that some arguments are. -/
def Options.ofArguments (args : List (List UInt8)) : Except Arguments.Stop Options := do
  Arguments.settle (← Arguments.readAll ⟨.none, .nothing⟩ args)

end CallSweep
