/-
  A document with its aliases resolved.

  An anchor is known by a number, and an alias stands for the node whose anchor has that number.
  A new anchor gets the number of different names that were anchors before it.  So when a name is
  anchored for a second time it gets a number that a later name may get as well, and both then
  stand for the later node: `targets` is searched from the newest entry on.
-/
import CallSweep.Yaml.Event
import CallSweep.Yaml.Token.Lexer

namespace CallSweep.Yaml

/-- The events of one document between its start and its end, and for each number of an anchor the
    place of its node among them. -/
structure Document where
  events : List (Event Nat)
  targets : List (Nat × Nat)

namespace Document

/-- Names that are anchors, with their numbers, and the targets so far. -/
structure Anchors where
  numbers : List (String × Nat)
  targets : List (Nat × Nat)

namespace Anchors

/-- Takes note of the anchor of the node at `place`. -/
def add (a : Anchors) (anchor : Option String) (place : Nat) : Anchors :=
  match anchor with
  | none => a
  | some name =>
    let number := a.numbers.length
    ⟨(name, number) :: a.numbers.filter (·.1 ≠ name), (number, place) :: a.targets⟩

/-- An event with its alias resolved by the anchors before it. -/
def resolve (a : Anchors) (e : Event String) (place : Nat) :
    Except Error (Anchors × Event Nat) :=
  match e with
  | .alias name =>
    match a.numbers.lookup name with
    | some number => .ok (a, .alias number)
    | none => .error .unknownAlias
  | .scalar anchor tag style text => .ok (a.add anchor place, .scalar anchor tag style text)
  | .sequenceStart anchor => .ok (a.add anchor place, .sequenceStart anchor)
  | .mappingStart anchor => .ok (a.add anchor place, .mappingStart anchor)
  | .sequenceEnd => .ok (a, .sequenceEnd)
  | .mappingEnd => .ok (a, .mappingEnd)
  | .documentStart => .ok (a, .documentStart)
  | .documentEnd => .ok (a, .documentEnd)

/-- Resolves the aliases of a list of events, the first of them standing at `place`. -/
def resolveAll (a : Anchors) (place : Nat) :
    List (Event String) → Except Error (Anchors × List (Event Nat))
  | [] => .ok (a, [])
  | e :: es => do
    let (a, e) ← a.resolve e place
    let (a, es) ← resolveAll a (place + 1) es
    return (a, e :: es)

end Anchors

/-- The events from the node on that an alias stands for. -/
def target (d : Document) (number : Nat) : List (Event Nat) :=
  match d.targets.lookup number with
  | some place => d.events.drop place
  | none => []

/-- The events behind the first node, `depth` collections being open. -/
def skipNode {ρ : Type} (depth : Nat) : List (Event ρ) → List (Event ρ)
  | [] => []
  | .sequenceStart _ :: es | .mappingStart _ :: es => skipNode (depth + 1) es
  | .sequenceEnd :: es | .mappingEnd :: es => if depth ≤ 1 then es else skipNode (depth - 1) es
  | _ :: es => if depth = 0 then es else skipNode depth es

/-- Skipping a node leaves fewer events, unless there are none. -/
theorem length_skipNode_le {ρ : Type} (depth : Nat) (es : List (Event ρ)) :
    (skipNode depth es).length ≤ es.length - 1 := by
  induction es generalizing depth with
  | nil => simp [skipNode]
  | cons e es ih =>
    have step : ∀ d, (skipNode d es).length ≤ es.length := fun d => Nat.le_trans (ih d) (by omega)
    cases e <;> simp only [skipNode, List.length_cons, Nat.add_sub_cancel]
    all_goals first
      | exact step _
      | (split <;> first | exact Nat.le_refl _ | exact step _)

/-- The only document of a text, or none if there is nothing in it. -/
def ofText (text : String) : Except Error (Option Document) := do
  match ← Yaml.events (← tokens text) with
  | [] => return none
  | .documentStart :: es =>
    let content := es.takeWhile (· ≠ .documentEnd)
    if content.length + 1 < es.length then throw .severalDocuments
    let (a, events) ← Anchors.resolveAll ⟨[], []⟩ 0 content
    return some ⟨events, a.targets⟩
  | _ => throw .unexpectedToken

end Document

end CallSweep.Yaml
