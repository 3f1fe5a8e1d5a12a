/-
  What a run tells: messages for its user and events for its log.

  A run leaves a list of `Note`s in the order in which they came.  Messages come on two channels,
  one for what was done and one for what failed; a host decides where each channel goes, and may
  as well send messages to the log.
-/

namespace CallSweep

/-! ## The log -/

/-- How much an event matters, most first. -/
inductive Level where
  | error
  | warn
  | info
  | debug
  | trace
  deriving DecidableEq, Repr

namespace Level

def name : Level → String
  | .error => "ERROR"
  | .warn => "WARN"
  | .info => "INFO"
  | .debug => "DEBUG"
  | .trace => "TRACE"

/-- How far down a level is. -/
def rank : Level → Nat
  | .error => 1
  | .warn => 2
  | .info => 3
  | .debug => 4
  | .trace => 5

end Level

/-- The parts of a program that events come from. -/
inductive Topic where
  | program
  | settings
  | files
  | walk
  | report
  deriving DecidableEq, Repr

/-- The target that a log shows for a topic, and that its filters name. -/
def Topic.target : Topic → String
  | .program => "omni_strip"
  | .settings => "omni_strip::config"
  | .files => "omni_strip::io"
  | .walk => "omni_strip::walker"
  | .report => "omni_strip::report"

/-- Something that is worth a line in the log. -/
structure LogEvent where
  topic : Topic
  level : Level
  text : String
  fields : List (String × String)
  /-- Names of fields that are not shown. -/
  unshown : List String := []
  deriving DecidableEq, Repr

namespace LogEvent

/-- The names of an event's fields.  Its text is one of them. -/
def fieldNames (e : LogEvent) : List String := "message" :: e.fields.map (·.1) ++ e.unshown

/-- The text of an event and its fields. -/
def words (e : LogEvent) : String :=
  " ".intercalate (e.text :: e.fields.map fun (key, value) => key ++ "=" ++ value)

/-- An event in one line. -/
def line (e : LogEvent) : String := e.level.name ++ " " ++ e.words

/-- An event in one line that also shows where it comes from. -/
def fullLine (e : LogEvent) : String :=
  e.level.name ++ " " ++ e.topic.target ++ ": " ++ e.words

end LogEvent

/-! ## Messages and notes -/

/-- Where a program prints. -/
inductive Channel where
  | output
  | error
  deriving DecidableEq, Repr

/-- A message for the user. -/
inductive Message where
  | info (text : String)
  | error (text : String)
  deriving DecidableEq, Repr

namespace Message

def text : Message → String
  | .info text => text
  | .error text => text

/-- The event of a message that is sent to the log. -/
def event : Message → LogEvent
  | .info text => ⟨.report, .info, text, [("event", "strip.report.info")], []⟩
  | .error text => ⟨.report, .error, text, [("event", "strip.report.error")], []⟩

end Message

/-- One thing that a run tells. -/
inductive Note where
  | message (m : Message)
  | event (e : LogEvent)
  deriving DecidableEq, Repr

namespace Note

/-- The messages on the channel for what was done. -/
def infos (notes : List Note) : List String :=
  notes.filterMap fun
    | .message (.info text) => some text
    | _ => none

/-- The messages on the channel for what failed. -/
def errors (notes : List Note) : List String :=
  notes.filterMap fun
    | .message (.error text) => some text
    | _ => none

/-- The events. -/
def events (notes : List Note) : List LogEvent :=
  notes.filterMap fun
    | .event e => some e
    | _ => none

end Note

end CallSweep
