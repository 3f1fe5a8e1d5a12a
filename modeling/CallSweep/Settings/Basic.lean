/-
  Settings and the configuration that they resolve to.

  `Settings` is one layer: each of its seven fields may be left unset.  Layers are laid on top of
  one another by `merge`, where what the upper layer sets wins, an empty list included.  `resolve`
  fills what no layer sets from the standard configuration, takes the blanks off all names, drops
  those that are nothing else, and refuses a result that could not be acted on.
-/
import CallSweep.Call.Pattern
import CallSweep.Extensions

namespace CallSweep

/-! ## Configurations -/

/-- What a run is told to do. -/
structure Config where
  callees : List String
  extensions : List String
  maxDepth : Nat
  /-- Files of more bytes are reported and left alone. -/
  maxFileSize : Nat
  /-- Whether changes are shown instead of made. -/
  dryRun : Bool
  /-- Whether a file is replaced by a finished copy instead of overwritten. -/
  atomicWrite : Bool
  /-- Names of directories that are not entered. -/
  skipDirs : List String
  deriving DecidableEq, Repr

/-- What holds where nothing is set. -/
def Config.standard : Config where
  callees := ["console.log"]
  extensions := Extensions.standardEntries
  maxDepth := 1
  maxFileSize := 10 * 1024 * 1024
  dryRun := false
  atomicWrite := true
  skipDirs := []

/-! ## Layers -/

/-- One layer of settings. -/
structure Settings where
  callees : Option (List String)
  extensions : Option (List String)
  maxDepth : Option Nat
  maxFileSize : Option Nat
  dryRun : Option Bool
  atomicWrite : Option Bool
  skipDirs : Option (List String)
  deriving DecidableEq, Repr

/-- Why settings cannot be acted on. -/
inductive Invalid where
  | noCallee
  | noExtension
  | tooDeep (depth : Nat)
  | noSize
  deriving DecidableEq, Repr

def Invalid.message : Invalid → String
  | .noCallee => "Invalid settings: at least one callee is required"
  | .noExtension => "Invalid settings: at least one file extension is required"
  | .tooDeep depth =>
    "Invalid settings: max_nesting_depth must be at most " ++ toString CallSweep.maxDepth ++
      " (got " ++ toString depth ++ ")"
  | .noSize => "Invalid settings: max_file_size must be positive"

namespace Settings

/-- The layer that sets nothing. -/
def empty : Settings := ⟨none, none, none, none, none, none, none⟩

/-- The layer `upper` on top of the layer `lower`. -/
def merge (lower upper : Settings) : Settings where
  callees := upper.callees <|> lower.callees
  extensions := upper.extensions <|> lower.extensions
  maxDepth := upper.maxDepth <|> lower.maxDepth
  maxFileSize := upper.maxFileSize <|> lower.maxFileSize
  dryRun := upper.dryRun <|> lower.dryRun
  atomicWrite := upper.atomicWrite <|> lower.atomicWrite
  skipDirs := upper.skipDirs <|> lower.skipDirs

/-- The names of a list without the blanks around them; those that are blank are left out. -/
def nonBlank (names : List String) : List String :=
  (names.map Text.trim).filter (· ≠ "")

/-- The settings with what is unset filled in and all names trimmed. -/
def complete (s : Settings) : Config where
  callees := nonBlank (s.callees.getD Config.standard.callees)
  extensions := nonBlank (s.extensions.getD Config.standard.extensions)
  maxDepth := s.maxDepth.getD Config.standard.maxDepth
  maxFileSize := s.maxFileSize.getD Config.standard.maxFileSize
  dryRun := s.dryRun.getD Config.standard.dryRun
  atomicWrite := s.atomicWrite.getD Config.standard.atomicWrite
  skipDirs := nonBlank (s.skipDirs.getD Config.standard.skipDirs)

/-- The configuration that the settings describe, or the first thing that is wrong with it. -/
def resolve (s : Settings) : Except Invalid Config :=
  let c := s.complete
  if c.callees = [] then .error .noCallee
  else if c.extensions = [] then .error .noExtension
  else if CallSweep.maxDepth < c.maxDepth then .error (.tooDeep c.maxDepth)
  else if c.maxFileSize = 0 then .error .noSize
  else .ok c

/-- The settings that set every field as a configuration has it. -/
def ofConfig (c : Config) : Settings where
  callees := some c.callees
  extensions := some c.extensions
  maxDepth := some c.maxDepth
  maxFileSize := some c.maxFileSize
  dryRun := some c.dryRun
  atomicWrite := some c.atomicWrite
  skipDirs := some c.skipDirs

/-! ## Layers under layers -/

@[simp] theorem merge_empty (s : Settings) : s.merge empty = s := by
  cases s; simp [merge, empty]

@[simp] theorem empty_merge (s : Settings) : empty.merge s = s := by
  cases s; simp [merge, empty]

end Settings

end CallSweep
