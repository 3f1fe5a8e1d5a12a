/-
  Settings as YAML.

  A settings text is a mapping from names of fields to their values; names that are no field are
  passed over with whatever value they have.  Lists hold scalars, which are taken as their text
  whatever they look like.  Flags and numbers are plain scalars.  A plain scalar without a tag that
  says nothing, or says `null` in one of its spellings, leaves the field unset; one with a tag, be it
  only `!`, is a value, unless the tag is that of null.
-/
import CallSweep.Settings.Basic
import CallSweep.Yaml.Document

namespace CallSweep.Settings

open Yaml (Document Error Event Style)

/-! ## Fields -/

/-- The fields of settings. -/
inductive Field where
  | callees
  | extensions
  | maxDepth
  | maxFileSize
  | dryRun
  | atomicWrite
  | skipDirs
  deriving DecidableEq, Repr

namespace Field

/-- The name of a field in a text. -/
def key : Field → String
  | .callees => "callees"
  | .extensions => "extensions"
  | .maxDepth => "max_nesting_depth"
  | .maxFileSize => "max_file_size"
  | .dryRun => "dry_run"
  | .atomicWrite => "atomic_write"
  | .skipDirs => "skip_dirs"

def all : List Field :=
  [.callees, .extensions, .maxDepth, .maxFileSize, .dryRun, .atomicWrite, .skipDirs]

/-- The field of a name. -/
def ofKey? (key : String) : Option Field := all.find? (·.key = key)

end Field

/-! ## Values -/

def nullTag : String := "tag:yaml.org,2002:null"

def boolTag : String := "tag:yaml.org,2002:bool"

def intTag : String := "tag:yaml.org,2002:int"

/-- The spellings of null. -/
def isNull (text : String) : Bool := ["null", "Null", "NULL", "~"].contains text

/-- The flag that a text spells. -/
def flag? (text : String) : Option Bool :=
  if ["true", "True", "TRUE"].contains text then some true
  else if ["false", "False", "FALSE"].contains text then some false
  else none

/-- The number that a text spells: one plus sign at most, then `0x`, `0o` or `0b` with digits of
    that base, or decimal digits without idle zeros; no more than 64 bits. -/
def number? (text : String) : Option Nat := do
  let n ← match Text.withoutPlus text.toList with
    | '0' :: 'x' :: cs => Text.digits? 16 cs
    | '0' :: 'o' :: cs => Text.digits? 8 cs
    | '0' :: 'b' :: cs => Text.digits? 2 cs
    | '0' :: _ :: _ => none
    | cs => Text.digits? 10 cs
  if n ≤ Text.maxWord then return n else none

/-- The text of a scalar that may be a flag or a number: a plain one, or a literal one that is
    tagged as what is asked for. -/
def word? (tag : String) : List (Event Nat) → Option String
  | .scalar _ given style text :: _ =>
    if style = .plain ∨ (style = .literal ∧ given = some tag) then some text else none
  | _ => none

/-- The texts of the scalars up to the end of a sequence. -/
def items? (d : Document) : List (Event Nat) → Option (List String)
  | .sequenceEnd :: _ => some []
  | .scalar _ _ _ text :: es => (items? d es).map (text :: ·)
  | .alias n :: es =>
    match d.target n with
    | .scalar _ _ _ text :: _ => (items? d es).map (text :: ·)
    | _ => none
  | _ => none

/-- The list that a value is.  A scalar in its place must say nothing. -/
def list? (d : Document) : List (Event Nat) → Option (List String)
  | .sequenceStart _ :: es => items? d es
  | .scalar _ _ .plain "" :: _ => some []
  | _ => none

/-- Whether a value leaves its field unset.  None when it is tagged as null and is not. -/
def isUnset? : List (Event Nat) → Option Bool
  | .scalar _ none .plain text :: _ => some (text.isEmpty || isNull text)
  | .scalar _ (some tag) .plain text :: _ =>
    if tag = nullTag then (if isNull text then some true else none) else some false
  | _ => some false

/-- The value of a field as `read` reads it, if it is set. -/
def value? {α : Type} (es : List (Event Nat)) (read : List (Event Nat) → Option α) :
    Option (Option α) := do
  if ← isUnset? es then return none
  return some (← read es)

/-- Sets a field from its value. -/
def set? (s : Settings) (d : Document) (f : Field) (es : List (Event Nat)) : Option Settings := do
  let es := match es with
    | .alias n :: _ => d.target n
    | es => es
  let flag (es : List (Event Nat)) := (word? boolTag es).bind flag?
  let number (es : List (Event Nat)) := (word? intTag es).bind number?
  match f with
  | .callees => return { s with callees := ← value? es (list? d) }
  | .extensions => return { s with extensions := ← value? es (list? d) }
  | .maxDepth => return { s with maxDepth := ← value? es number }
  | .maxFileSize => return { s with maxFileSize := ← value? es number }
  | .dryRun => return { s with dryRun := ← value? es flag }
  | .atomicWrite => return { s with atomicWrite := ← value? es flag }
  | .skipDirs => return { s with skipDirs := ← value? es (list? d) }

/-! ## Texts -/

/-- The text of a key. -/
def key? (d : Document) : Event Nat → Option String
  | .scalar _ _ _ text => some text
  | .alias n =>
    match d.target n with
    | .scalar _ _ _ text :: _ => some text
    | _ => none
  | _ => none

/-- Reads the entries of a mapping up to its end, the fields in `seen` having been read. -/
def readEntries (d : Document) (s : Settings) (seen : List Field) :
    List (Event Nat) → Except Error Settings
  | [] => .error .unexpectedToken
  | .mappingEnd :: _ => .ok s
  | e :: es =>
    have : (Document.skipNode 0 es).length < (e :: es).length :=
      Nat.lt_of_le_of_lt (Document.length_skipNode_le 0 es) (by simp only [List.length_cons]; omega)
    match key? d e with
    | none => .error .notAKey
    | some key =>
      match Field.ofKey? key with
      | none => readEntries d s seen (Document.skipNode 0 es)
      | some f =>
        if f ∈ seen then .error (.repeatedKey key)
        else
          match s.set? d f es with
          | none => .error (.wrongType key)
          | some s => readEntries d s (f :: seen) (Document.skipNode 0 es)
  termination_by es => es.length
  decreasing_by all_goals exact this

/-- The settings of a document. -/
def ofDocument (d : Document) : Except Error Settings :=
  match d.events with
  | .mappingStart _ :: es => readEntries d empty [] es
  | .scalar _ _ .plain "" :: _ => .ok empty
  | _ => .error .notAMapping

/-- The settings that a text describes.  A text of blanks alone, or without a document, sets
    nothing. -/
def ofText (text : String) : Except Error Settings := do
  if Text.allBlank text then return empty
  match ← Document.ofText text with
  | none => return empty
  | some d => ofDocument d

end CallSweep.Settings
