/-
  The program behind the command line.

  A run reads its arguments, loads and resolves the settings, walks what it was asked to sweep and
  closes with the counts, if they are asked for, and the exit status.  The status is 0 when all
  went well, 1 when there is no configuration or something could not be swept, and 2 when the
  arguments cannot be understood.

  Messages of what was done go to standard output, or to standard error where standard output is
  kept for the counts; messages of what failed go to standard error.

  `Program.job` is all of a run behind its arguments, for any surroundings to carry out;
  `Program.run` carries it out on a disk.
-/
import CallSweep.Command.Arguments
import CallSweep.Command.LogFilter
import CallSweep.Run.World
import CallSweep.Settings.Load
import CallSweep.Walk

namespace CallSweep

namespace Program

/-! ## Texts -/

def versionText : String := "omni-strip 0.1.1\n"

def helpText : String :=
  "Remove console.log style debug calls from a file or directory tree.\n" ++
  "\n" ++
  "Usage: omni-strip [OPTIONS] [PATH]\n" ++
  "\n" ++
  "Arguments:\n" ++
  "  [PATH]  File or directory to clean (default: current directory)\n" ++
  "\n" ++
  "Options:\n" ++
  "      --dry-run          Show a diff of what would be removed without writing files\n" ++
  "      --callee <NAME>    Callee to remove; repeat for several (default: console.log)\n" ++
  "      --ext <EXT>        Eligible file extension; repeat for several (default: .js .ts .tsx " ++
    ".vue .jsx .cjs .mjs)\n" ++
  "      --max-depth <N>    Nested parenthesis levels accepted inside call arguments\n" ++
  "      --skip-dir <NAME>  Directory name to skip; repeat for several\n" ++
  "      --no-atomic        Overwrite files in place instead of temp file + rename\n" ++
  "      --json             Print the run summary as JSON on stdout\n" ++
  "      --conf <FILE>      Settings file layered over user and project settings\n" ++
  "  -v, --verbose          Debug logging (overridden by RUST_LOG)\n" ++
  "  -h, --help             Print help\n" ++
  "  -V, --version          Print version\n"

/-- The counts of a run as JSON. -/
def tallyText (t : Tally) : String :=
  "\x7b\n  \"files_scanned\": " ++ toString t.scanned ++
    ",\n  \"files_changed\": " ++ toString t.changed ++
    ",\n  \"removals\": " ++ toString t.removals ++
    ",\n  \"failures\": " ++ toString t.failures ++ "\n\x7d\n"

/-- How an error that ends a run is shown, with what caused it. -/
def errorText (text : String) (cause : Option String) : String :=
  "Error: " ++ text ++
    match cause with
    | some cause => "\n\nCaused by:\n    " ++ cause ++ "\n"
    | none => "\n"

/-! ## Arguments that make no run -/

/-- What is printed when the arguments make no run. -/
def stopText : Arguments.Stop → Channel × String
  | .help => (.output, helpText)
  | .version => (.output, versionText)
  | .unknown => (.error, "error: unexpected argument found\n")
  | .noValue => (.error, "error: a value is required but none was supplied\n")
  | .badNumber => (.error, "error: invalid value for '--max-depth <N>'\n")
  | .needlessValue => (.error, "error: unexpected value for a flag\n")
  | .repeated => (.error, "error: an argument cannot be used multiple times\n")
  | .notText => (.error, "error: invalid UTF-8 was detected in an argument\n")

/-- The exit status when the arguments make no run. -/
def stopStatus : Arguments.Stop → Nat
  | .help | .version => 0
  | _ => 2

/-! ## Configuration -/

/-- Why a run has no configuration. -/
inductive ConfigError where
  | load (e : Settings.LoadError)
  | invalid (e : Invalid)
  deriving DecidableEq

/-- How the lack of a configuration is shown. -/
def ConfigError.text : ConfigError → String
  | .load e =>
    errorText e.message <| some <|
      match e with
      | .unreadable _ cause => cause.message
      | .malformed _ e => e.message
  | .invalid e => errorText "invalid omni-strip configuration" (some e.message)

/-- The configuration of a run. -/
def configure (env : Environment) (cwd : Path) (o : Options) :
    Script (Except ConfigError Config) := do
  match ← Settings.load env cwd o.conf with
  | .error e => return .error (.load e)
  | .ok s => return (s.merge o.overlay).resolve.mapError .invalid

/-! ## Runs -/

/-- What is printed when a message arrives. -/
def console (json : Bool) : Message → List (Channel × String)
  | .info text => [(if json then .error else .output, text ++ "\n")]
  | .error text => [(.error, "error: " ++ text ++ "\n")]

/-- Ends a run that failed. -/
def giveUp (text : String) : Script Unit := do
  Script.request (.print .error text)
  Script.request (.exit 1)

/-- Ends a run after its walk. -/
def close (json : Bool) : Script Unit := do
  if json then
    let t ← Script.request .tally
    Script.request (.print .output (tallyText t))
  let n ← Script.request .complaints
  if 0 < n then giveUp (errorText (toString n ++ " path(s) could not be cleaned") none)

/-- The event of a configuration that is in force. -/
def configured : LogEvent := ⟨.program, .debug, "resolved configuration", [], ["config"]⟩

/-- A run behind its arguments, in the directory `cwd`. -/
def job (env : Environment) (cwd : Path) (o : Options) : Job :=
  (configure env cwd o).andThen fun
    | .error e => (giveUp e.text).job
    | .ok c =>
      .ask (.note (.event configured)) fun () =>
        (walk (Plan.ofConfig c) cwd (o.path.getD cwd)).followedBy (close o.json).job

/-! ## Runs on a disk -/

/-- What a run leaves. -/
structure Outcome where
  status : Nat
  output : String
  error : String
  /-- The lines of the log. -/
  logged : List LogEvent
  disk : Disk

/-- What was printed on a channel. -/
def printedOn (c : Channel) (printed : List (Channel × String)) : String :=
  String.join ((printed.filter (·.1 = c)).map (·.2))

/-- The world that a run of some options leaves. -/
def world (env : Environment) (cwd : Place) (o : Options) (disk : Disk) : World :=
  (World.run ⟨cwd, console o.json, fun _ => none⟩ (job env cwd.path o) (.start disk)).2

/-- A run with some arguments in a directory of a disk. -/
def run (env : Environment) (cwd : Place) (args : List (List UInt8)) (disk : Disk) : Outcome :=
  match Options.ofArguments args with
  | .error stop =>
    { status := stopStatus stop
      output := printedOn .output [stopText stop]
      error := printedOn .error [stopText stop]
      logged := []
      disk }
  | .ok o =>
    let w := world env cwd o disk
    { status := w.status
      output := printedOn .output w.printed
      error := printedOn .error w.printed
      logged := (Note.events w.notes).filter (LogFilter.choose env.logFilter o.verbose).admits
      disk := w.disk }

end Program

end CallSweep
