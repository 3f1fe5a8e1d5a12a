/-
  The structure of a YAML text as a flat list of events.

  Collections are bracketed by their start and end events; everything between two brackets of a
  mapping is a key and its value in turn.  What the grammar asks for next is kept on a stack of
  `Goal`s.  A goal looks at the next token, takes it or not, and is replaced by the goals that it
  leaves.  Where a key, a value or an item is left out, an empty plain scalar stands for it.
-/
import CallSweep.Yaml.Cursor
import CallSweep.Yaml.Token

namespace CallSweep.Yaml

/-! ## Events -/

/-- An event; an alias says in terms of `ρ` what it stands for, and a tag is spelled out. -/
inductive Event (ρ : Type) where
  | alias (target : ρ)
  | scalar (anchor tag : Option String) (style : Style) (text : String)
  | sequenceStart (anchor : Option String)
  | sequenceEnd
  | mappingStart (anchor : Option String)
  | mappingEnd
  | documentStart
  | documentEnd
  deriving DecidableEq, Repr

/-- What stands where nothing is written. -/
def Event.nothing {ρ : Type} : Event ρ := .scalar none none .plain ""

/-! ## Goals -/

/-- What the grammar asks for. -/
inductive Goal where
  /-- The first document or none. -/
  | stream
  /-- A further document or none. -/
  | nextDocument
  /-- The content of a document behind its mark. -/
  | content
  | endOfDocument
  /-- A node in a block collection; a sequence may then stand as deep as the key it belongs to if
      `atKey`. -/
  | blockNode (atKey : Bool)
  | flowNode
  | blockItems
  /-- A sequence that is no deeper than the keys around it. -/
  | itemsAtKey
  | blockKey
  | blockValue
  | flowItems (first : Bool)
  /-- The only key of a mapping that is written as an item of a sequence. -/
  | pairKey
  | pairValue
  | pairEnd
  | flowKeys (first : Bool)
  | flowValue
  /-- The value of a key that is followed by none. -/
  | noValue
  deriving DecidableEq, Repr

/-- The handles of tags with what they stand for. -/
abbrev Handles := List (String × String)

/-- The handles that every document knows. -/
def standardHandles : Handles := [("!", "!"), ("!!", "tag:yaml.org,2002:")]

/-- What a step of the grammar needs to know and leaves: goals, tokens and tag handles. -/
structure Grammar where
  goals : List Goal
  tokens : List Token
  handles : Handles

namespace Grammar

/-- A tag in full. -/
def tagText (handles : Handles) (t : Tag) : Except Error String :=
  if t.handle = "" then .ok t.suffix
  else
    match handles.lookup t.handle with
    | some stem => .ok (stem ++ t.suffix)
    | none => .error .unknownTagHandle

/-- Reads the directives in front of a document, `given` and `versioned` telling what has been read
    of them. -/
def directives (given : Handles) (versioned : Bool) :
    List Token → Except Error (Handles × List Token)
  | .version major minor :: ts =>
    if versioned || major ≠ 1 || (minor ≠ 1 && minor ≠ 2) then .error .badDirective
    else directives given true ts
  | .tagHandle handle stem :: ts =>
    if (given.lookup handle).isSome then .error .badDirective
    else directives ((handle, stem) :: given) versioned ts
  | ts => .ok (given ++ standardHandles, ts)

/-- Reads the anchor and the tag of a node, in either order. -/
def properties (handles : Handles) (ts : List Token) :
    Except Error (Option String × Option String × List Token) := do
  match ts with
  | .anchor a :: .tag t :: ts => return (some a, some (← tagText handles t), ts)
  | .anchor a :: ts => return (some a, none, ts)
  | .tag t :: .anchor a :: ts => return (some a, some (← tagText handles t), ts)
  | .tag t :: ts => return (none, some (← tagText handles t), ts)
  | ts => return (none, none, ts)

/-- Reads the head of a node: a whole alias or scalar, or the start of a collection, whose parts
    are then the next goal. -/
def node (g : Grammar) (block atKey : Bool) : Except Error (List (Event String) × Grammar) := do
  match g.tokens with
  | .alias name :: ts => return ([.alias name], { g with tokens := ts })
  | tokens =>
    let (anchor, tag, ts) ← properties g.handles tokens
    let into (goal : Goal) (e : Event String) (ts : List Token) :=
      ([e], { g with goals := goal :: g.goals, tokens := ts })
    match ts, block with
    | .scalar style text :: ts, _ =>
      return ([.scalar anchor tag style text], { g with tokens := ts })
    | .flowSequenceStart :: ts, _ => return into (.flowItems true) (.sequenceStart anchor) ts
    | .flowMappingStart :: ts, _ => return into (.flowKeys true) (.mappingStart anchor) ts
    | .blockSequenceStart :: ts, true => return into .blockItems (.sequenceStart anchor) ts
    | .blockMappingStart :: ts, true => return into .blockKey (.mappingStart anchor) ts
    | .blockEntry :: _, true =>
      if atKey then return into .itemsAtKey (.sequenceStart anchor) ts
      else if anchor.isSome || tag.isSome then
        return ([.scalar anchor tag .plain ""], { g with tokens := ts })
      else throw .unexpectedToken
    | ts, _ =>
      if anchor.isSome || tag.isSome then
        return ([.scalar anchor tag .plain ""], { g with tokens := ts })
      else throw .unexpectedToken

/-! ## Steps -/

/-- Tokens behind which a block collection goes on without a node. -/
def endsBlockNode : List Token → Bool
  | .key :: _ | .value :: _ | .blockEnd :: _ => true
  | _ => false

/-- Tokens behind which a flow mapping goes on without a node. -/
def endsFlowNode (close : Token) : List Token → Bool
  | .flowEntry :: _ => true
  | t :: _ => t == close
  | [] => false

/-- Meets the goal `goal`, the others being those of `g`. -/
def step (g : Grammar) (goal : Goal) : Except Error (List (Event String) × Grammar) := do
  let goOn (goals : List Goal) (ts : List Token) : Grammar :=
    { g with goals := goals ++ g.goals, tokens := ts }
  let document (ts : List Token) : Except Error (List (Event String) × Grammar) := do
    let (handles, ts) ← directives [] false ts
    match ts with
    | .documentStart :: ts =>
      return ([.documentStart], { goOn [.content, .endOfDocument] ts with handles })
    | _ => throw .unexpectedToken
  match goal, g.tokens with
  | .stream, [.streamEnd] => return ([], goOn [] [])
  | .stream, .version a b :: ts => document (.version a b :: ts)
  | .stream, .tagHandle a b :: ts => document (.tagHandle a b :: ts)
  | .stream, .documentStart :: ts => document (.documentStart :: ts)
  | .stream, ts =>
    return ([.documentStart],
      { goOn [.blockNode false, .endOfDocument] ts with handles := standardHandles })
  | .nextDocument, [.streamEnd] => return ([], goOn [] [])
  | .nextDocument, .documentEnd :: ts => return ([], goOn [.nextDocument] ts)
  | .nextDocument, ts => document ts
  | .content, ts =>
    match ts with
    | .version .. :: _ | .tagHandle .. :: _ | .documentStart :: _ | .documentEnd :: _
    | .streamEnd :: _ => return ([.nothing], goOn [] ts)
    | _ => return ([], goOn [.blockNode false] ts)
  | .endOfDocument, .documentEnd :: ts => return ([.documentEnd], goOn [.nextDocument] ts)
  | .endOfDocument, ts => return ([.documentEnd], goOn [.nextDocument] ts)
  | .blockNode atKey, _ => g.node true atKey
  | .flowNode, _ => g.node false false
  -- Block sequences.
  | .blockItems, .blockEntry :: ts =>
    match ts with
    | .blockEntry :: _ | .blockEnd :: _ => return ([.nothing], goOn [.blockItems] ts)
    | _ => return ([], goOn [.blockNode false, .blockItems] ts)
  | .blockItems, .blockEnd :: ts => return ([.sequenceEnd], goOn [] ts)
  | .blockItems, _ => throw .unexpectedToken
  | .itemsAtKey, .blockEntry :: ts =>
    match ts with
    | .blockEntry :: _ => return ([.nothing], goOn [.itemsAtKey] ts)
    | _ =>
      if endsBlockNode ts then return ([.nothing], goOn [.itemsAtKey] ts)
      else return ([], goOn [.blockNode false, .itemsAtKey] ts)
  | .itemsAtKey, ts => return ([.sequenceEnd], goOn [] ts)
  -- Block mappings.
  | .blockKey, .key :: ts =>
    if endsBlockNode ts then return ([.nothing], goOn [.blockValue] ts)
    else return ([], goOn [.blockNode true, .blockValue] ts)
  | .blockKey, .blockEnd :: ts => return ([.mappingEnd], goOn [] ts)
  | .blockKey, _ => throw .unexpectedToken
  | .blockValue, .value :: ts =>
    if endsBlockNode ts then return ([.nothing], goOn [.blockKey] ts)
    else return ([], goOn [.blockNode true, .blockKey] ts)
  | .blockValue, ts => return ([.nothing], goOn [.blockKey] ts)
  -- Flow sequences.
  | .flowItems _, .flowSequenceEnd :: ts => return ([.sequenceEnd], goOn [] ts)
  | .flowItems first, ts =>
    let ts ←
      match first, ts with
      | true, ts => pure ts
      | false, .flowEntry :: ts => pure ts
      | false, _ => throw .unexpectedToken
    match ts with
    | .key :: ts => return ([.mappingStart none], goOn [.pairKey, .flowItems false] ts)
    | .flowSequenceEnd :: ts => return ([.sequenceEnd], goOn [] ts)
    | ts => return ([], goOn [.flowNode, .flowItems false] ts)
  | .pairKey, ts =>
    match ts with
    | .value :: ts | .flowEntry :: ts | .flowSequenceEnd :: ts =>
      -- The token in place of the key is taken for it.
      return ([.nothing], goOn [.pairValue] ts)
    | ts => return ([], goOn [.flowNode, .pairValue] ts)
  | .pairValue, .value :: ts =>
    if endsFlowNode .flowSequenceEnd ts then return ([.nothing], goOn [.pairEnd] ts)
    else return ([], goOn [.flowNode, .pairEnd] ts)
  | .pairValue, ts => return ([.nothing], goOn [.pairEnd] ts)
  | .pairEnd, ts => return ([.mappingEnd], goOn [] ts)
  -- Flow mappings.
  | .flowKeys _, .flowMappingEnd :: ts => return ([.mappingEnd], goOn [] ts)
  | .flowKeys first, ts =>
    let ts ←
      match first, ts with
      | true, ts => pure ts
      | false, .flowEntry :: ts => pure ts
      | false, _ => throw .unexpectedToken
    match ts with
    | .key :: ts =>
      match ts with
      | .value :: _ => return ([.nothing], goOn [.flowValue] ts)
      | _ =>
        if endsFlowNode .flowMappingEnd ts then return ([.nothing], goOn [.flowValue] ts)
        else return ([], goOn [.flowNode, .flowValue] ts)
    | .flowMappingEnd :: ts => return ([.mappingEnd], goOn [] ts)
    | ts => return ([], goOn [.flowNode, .noValue] ts)
  | .flowValue, .value :: ts =>
    if endsFlowNode .flowMappingEnd ts then return ([.nothing], goOn [.flowKeys false] ts)
    else return ([], goOn [.flowNode, .flowKeys false] ts)
  | .flowValue, ts => return ([.nothing], goOn [.flowKeys false] ts)
  | .noValue, ts => return ([.nothing], goOn [.flowKeys false] ts)

/-- Meets all goals, in at most `steps` steps. -/
def run : (steps : Nat) → Grammar → Except Error (List (Event String))
  | 0, _ => .error .unexpectedToken
  | steps + 1, g =>
    match g.goals with
    | [] => .ok []
    | goal :: goals => do
      let (events, g) ← step { g with goals } goal
      return events ++ (← run steps g)

end Grammar

/-- The events of a text's tokens.  A token is taken in one step, and no more than a handful of
    steps take none in between. -/
def events (tokens : List Token) : Except Error (List (Event String)) :=
  Grammar.run (8 * tokens.length + 8) ⟨[.stream], tokens, standardHandles⟩

end CallSweep.Yaml
