/-
  One part of a log filter.

  A directive is written `level`, or with a target, with square brackets or with both, and then
  with a level behind an equals sign or without one:

  * `target` means the events whose target begins with it;
  * in brackets, `span` means what happens inside a span of that name;
  * in brackets and braces, `field` means the events with a field of that name, and `field=value`
    what happens inside a span with that value, which is a decimal number or a regular expression.

  Without a level everything is meant.

  Blanks at the two ends of a directive are passed over where its signs are looked for.  The texts
  between the signs are taken from the whole directive all the same, at the places that the signs
  would have in front of it: each blank that leads shifts them by its width.
-/
import CallSweep.Report
import CallSweep.Text.Regex
import CallSweep.Text.Utf8
import CallSweep.Text.Width

namespace CallSweep.LogFilter

/-! ## Levels -/

/-- The names of levels.  `off` lets nothing through. -/
def levelNames : List (String × Option Level) :=
  [("off", none), ("error", some .error), ("warn", some .warn), ("info", some .info),
    ("debug", some .debug), ("trace", some .trace)]

/-- The level that a text names, in letters of either case or by its rank. -/
def level? (text : String) : Option (Option Level) :=
  match Text.digits? 10 (Text.withoutPlus text.toList) with
  | some n => levelNames[n]?.map (·.2)
  | none => levelNames.lookup (String.ofList (text.toList.map Char.toLower))

/-- The level behind the equals sign, where everything is meant if nothing is said. -/
def levelPart? (text : String) : Option (Option Level) :=
  if text = "" then some (some .trace) else level? text

/-! ## Directives -/

/-- Which events a directive means, apart from their targets. -/
inductive Scope where
  | all
  | withField (name : String)
  | inSpan
  deriving DecidableEq, Repr

/-- One part of a filter: the events that it means are logged down to `level`, if any are. -/
structure Directive where
  /-- What targets begin with; empty for all of them. -/
  target : String
  scope : Scope
  level : Option Level
  deriving DecidableEq, Repr

namespace Directive

/-- Whether a directive means an event.  No event happens inside a span, for none is ever opened. -/
def concerns (d : Directive) (e : LogEvent) : Bool :=
  d.target.isPrefixOf e.topic.target &&
    match d.scope with
    | .all => true
    | .withField name => e.fieldNames.contains name
    | .inSpan => false

/-- The name of the field that events must have; empty if there is none. -/
def field (d : Directive) : String :=
  match d.scope with
  | .withField name => name
  | _ => ""

/-- Whether a directive means as few events as another, or fewer: the length of the target decides,
    then the name of the field. -/
def isAsNarrow (d other : Directive) : Bool :=
  other.target.length < d.target.length ||
    (other.target.length == d.target.length && !(d.field < other.field))

/-! ## Reading -/

/-- Whether a directive may begin with a character. -/
def canBegin (c : Char) : Bool := Text.isLetterOrDigit c || ['-', ':', '_'].contains c

/-- The scope that is written in braces, where a value makes it one of spans. -/
def braced? (text : String) : Option Scope :=
  let cs := text.toList
  let name := cs.takeWhile (· != '=')
  match cs.drop name.length with
  | [] => some (.withField text)
  | _ :: cs =>
    let value := cs.takeWhile (· != '=')
    if Text.isDecimal value || Text.Regex.isRegex value then some .inSpan else none

/-- The text of `part` from one octet up to another. -/
def between? (part : String) (first last : Nat) : Option String :=
  Text.decode? (((Text.encode part).take last).drop first)

/-- The level of a part whose signs have been read up to the octet `place`. -/
def closing? (part : String) (place : Nat) : List Char → Option (Option Level)
  | [] => some (some .trace)
  | '=' :: _ => (between? part (place + 1) part.utf8ByteSize).bind levelPart?
  | _ => none

/-- The scope in brackets and the level of a part whose opening bracket stands in front of the octet
    `place`. -/
def bracketed? (part : String) (place : Nat) (cs : List Char) :
    Option (Scope × Option Level) := do
  let span := cs.takeWhile fun c => c != ']' && c != '\x7b'
  let place := place + Text.width span + 1
  match cs.drop span.length with
  | ']' :: rest => return (.inSpan, ← closing? part place rest)
  | '\x7b' :: cs =>
    let field := cs.takeWhile (· != '\x7d')
    if field.isEmpty then none
    let last := place + Text.width field
    match cs.drop field.length with
    | '\x7d' :: ']' :: rest =>
      let scope ← braced? (← between? part place last)
      let level ← closing? part (last + 2) rest
      return (if span.isEmpty then scope else .inSpan, level)
    | _ => none
  | _ => none

/-- The directive that a part of a filter is. -/
def ofText? (part : String) : Option Directive := do
  let cs := Text.trimChars part.toList
  let head := cs.takeWhile fun c => c != '=' && c != '['
  if !head.head?.all canBegin then none
  let place := Text.width head
  match cs.drop head.length with
  | [] =>
    if head.isEmpty then none
    match level? part with
    | some level => return ⟨"", .all, level⟩
    | none => return ⟨part, .all, some .trace⟩
  | '[' :: rest =>
    let target ← between? part 0 place
    let (scope, level) ← bracketed? part (place + 1) rest
    return ⟨target, scope, level⟩
  | rest =>
    if head.isEmpty then none
    let target ← between? part 0 place
    return ⟨target, .all, ← closing? part place rest⟩

end Directive

end CallSweep.LogFilter
