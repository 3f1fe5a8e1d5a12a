/-
  What a command line asks for.

  `Options` are the arguments once they have been understood.  Those that bear on the configuration
  make up the topmost layer of settings, `Options.overlay`: a name list that is given replaces what
  lies below, and a flag can turn the dry run on and the finished copies off, never the other way.
-/
import CallSweep.Settings.Basic

namespace CallSweep

/-- The arguments of a run. -/
structure Options where
  /-- What is to be swept, if not the directory that one stands in. -/
  path : Option Path
  dryRun : Bool
  noAtomic : Bool
  /-- Whether the counts are printed as JSON. -/
  json : Bool
  verbose : Bool
  callees : List String
  extensions : List String
  skipDirs : List String
  maxDepth : Option Nat
  /-- A settings file to be laid over the user's and the project's. -/
  conf : Option Path
  deriving DecidableEq

namespace Options

/-- No arguments at all. -/
def none : Options where
  path := .none
  dryRun := false
  noAtomic := false
  json := false
  verbose := false
  callees := []
  extensions := []
  skipDirs := []
  maxDepth := .none
  conf := .none

/-- A list of names that counts as unset while it is empty. -/
def nonEmpty? (names : List String) : Option (List String) :=
  if names.isEmpty then .none else some names

/-- The layer of settings that the arguments set. -/
def overlay (o : Options) : Settings where
  callees := nonEmpty? o.callees
  extensions := nonEmpty? o.extensions
  maxDepth := o.maxDepth
  maxFileSize := .none
  dryRun := if o.dryRun then some true else .none
  atomicWrite := if o.noAtomic then some false else .none
  skipDirs := nonEmpty? o.skipDirs

end Options

end CallSweep
