/-
  The tokens of a YAML text.

  Indentation is made visible by tokens of its own: a block collection opens with a start token and
  is closed by `blockEnd`.  A key that is written without `?` is preceded by `key` all the same.
-/

namespace CallSweep.Yaml

/-- How a scalar is written, as far as it bears on what the scalar means. -/
inductive Style where
  | plain
  | quoted
  | literal
  | folded
  deriving DecidableEq, Repr

/-- A tag as it is written: a handle, which a directive explains, and the rest.  A tag that is given
    in full has no handle. -/
structure Tag where
  handle : String
  suffix : String
  deriving DecidableEq, Repr

inductive Token where
  | version (major minor : Nat)
  | tagHandle (handle stem : String)
  | documentStart
  | documentEnd
  | blockSequenceStart
  | blockMappingStart
  | blockEnd
  | flowSequenceStart
  | flowSequenceEnd
  | flowMappingStart
  | flowMappingEnd
  | blockEntry
  | flowEntry
  | key
  | value
  | alias (name : String)
  | anchor (name : String)
  | tag (tag : Tag)
  | scalar (style : Style) (text : String)
  | streamEnd
  deriving DecidableEq, Repr

end CallSweep.Yaml
