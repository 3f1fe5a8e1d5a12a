/-
  Where settings come from.

  There are three layers: the user's file, the file of the project that one stands in, and a file
  that is asked for.  What the upper one of two layers sets wins.  The first two need not be there,
  and if one of them cannot be used it is passed over with a warning; the file that is asked for
  must be there and in order.
-/
import CallSweep.Run.Script
import CallSweep.Settings.Yaml

namespace CallSweep

/-- The variables of the environment that matter, as far as they are set. -/
structure Environment where
  home : Option (List UInt8)
  configHome : Option (List UInt8)
  /-- What is to be logged. -/
  logFilter : Option (List UInt8)
  deriving DecidableEq

namespace Settings

/-! ## Paths -/

/-- The directory of the user's settings.  A variable that is blank or no text counts as unset. -/
def configHome (env : Environment) : Path :=
  match (env.configHome.bind Text.decode?).map Text.trim with
  | some dir => if dir = "" then besideHome else .ofString dir
  | none => besideHome
where
  besideHome : Path :=
    match env.home.bind Text.decode? with
    | some home =>
      if Text.allBlank home then .ofString ".config" else (Path.ofString home).join (.ofString ".config")
    | none => .ofString ".config"

/-- The user's settings file. -/
def userPath (env : Environment) : Path :=
  (configHome env).join (.ofString "omni-strip/settings.yaml")

/-- The settings file of the project in a directory. -/
def projectPath (cwd : Path) : Path := cwd.join (.ofString ".omni-strip.yaml")

/-! ## Files -/

/-- Why a file cannot be read as a text. -/
inductive Unreadable where
  | system (e : OsError)
  | notText
  deriving DecidableEq, Repr

def Unreadable.message : Unreadable → String
  | .system e => e.message
  | .notText => "stream did not contain valid UTF-8"

/-- Why settings cannot be had from a file. -/
inductive LoadError where
  | unreadable (p : Path) (cause : Unreadable)
  | malformed (p : Path) (e : Yaml.Error)
  deriving DecidableEq

def LoadError.message : LoadError → String
  | .unreadable p cause => "Failed to read settings " ++ p.display ++ ": " ++ cause.message
  | .malformed p e => "Failed to parse settings " ++ p.display ++ ": " ++ e.message

/-- The settings that the bytes of a file describe. -/
def ofBytes (p : Path) (bytes : ByteArray) : Except LoadError Settings :=
  match String.fromUTF8? bytes with
  | none => .error (.unreadable p .notText)
  | some text => (ofText text).mapError (.malformed p)

/-- Reads a settings file. -/
def loadFile (p : Path) : Script (Except LoadError Settings) :=
  .ask (.read p) fun
    | .error e => .done (.error (.unreadable p (.system e)))
    | .ok bytes => .done (ofBytes p bytes)

/-- The event of a layer that is passed over. -/
def ignored (p : Path) : LogEvent where
  topic := .settings
  level := .warn
  text := "failed to load settings file; ignoring"
  fields := [("path", p.display)]
  unshown := ["error"]

/-- Reads a settings file that need not be there. -/
def loadLayer (p : Path) : Script Settings :=
  .ask (.stat p) fun
    | .error _ => .done empty
    | .ok _ => do
      match ← loadFile p with
      | .ok s => return s
      | .error _ =>
        Script.request (.note (.event (ignored p)))
        return empty

/-! ## Layers -/

/-- The user's settings with the project's on top. -/
def loadImplicit (user project : Path) : Script Settings := do
  let lower ← loadLayer user
  let upper ← loadLayer project
  return lower.merge upper

/-- All layers of settings, for a run in the directory `cwd` that asks for the file `explicit`. -/
def load (env : Environment) (cwd : Path) (explicit : Option Path) :
    Script (Except LoadError Settings) := do
  let implicit ← loadImplicit (userPath env) (projectPath cwd)
  match explicit with
  | none => return .ok implicit
  | some p => return (← loadFile p).map implicit.merge

end Settings

end CallSweep
