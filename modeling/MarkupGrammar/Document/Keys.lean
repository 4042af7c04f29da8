import MarkupGrammar.Grammar
import MarkupGrammar.Path.Matcher
import MarkupGrammar.Violation

/-! # Checking identity constraints

An identity constraint is *activated* by an element whose declaration carries it. Its selector
follows the document until that element ends; at each selected element a *selection* is opened, in
which the fields are followed until the selected element ends. Then the tuple of the selection is
complete or not. A complete tuple of a `unique` or `key` constraint must differ from the tuples of
the activation before; it is recorded in the *ledger* of the activating element. A complete tuple of
a `keyref` waits for the end of the activating element and must be in the ledger there.

Each open element has a ledger, which is added to that of its parent at its end; so it holds what
has been recorded at the element and in it. References that are not found are reported at the end of
the document, in the order in which their activations ended. -/

namespace MarkupGrammar

/-- The values of the fields. -/
abbrev FieldTuple := List Value

/-- The tuples recorded, each with the number of its constraint. -/
abbrev Ledger := List (Nat × FieldTuple)

/-- The value of a selected element or attribute, by its type; the text itself if it is no value of
the type, or if there is none. -/
def Selected.typedValue (types : TypeTable) (s : Selected) : Value :=
  match s.type?.bind types.find? with
  | some type =>
    match type.validate {} s.value with
    | .ok value => value
    | .error _ => .string s.value
  | none => .string s.value

/-! ## Fields -/

/-- A field of a selection. -/
structure FieldWalk where
  matcher : Matcher
  /-- The first value found. -/
  value? : Option Value := none
  /-- Whether a further value has been reported. -/
  isReported : Bool := false
  deriving Repr, Inhabited

namespace FieldWalk

/-- A field before the selected element. -/
def ofExpression (e : PathExpression) : FieldWalk := { matcher := .ofExpression e true }

/-- Notes a value of the field with the given number. A second value is reported, once. -/
def record (f : FieldWalk) (number : Nat) (constraint : Name) (path : String) (value : Value) :
    FieldWalk × List Violation :=
  if f.value?.isNone then ({ f with value? := some value }, [])
  else if f.isReported then (f, [])
  else ({ f with isReported := true },
    [⟨.repeatedField number constraint, some constraint, some value.text, some path⟩])

/-- Notes what the matcher delivered. -/
def recordSelected (f : FieldWalk) (types : TypeTable) (number : Nat) (constraint : Name)
    (path : String) (selected : Option Selected) : FieldWalk × List Violation :=
  match selected with
  | some s => f.record number constraint path (s.typedValue types)
  | none => (f, [])

end FieldWalk

/-! ## Selections and activations -/

/-- An identity constraint with its number. -/
structure NumberedConstraint where
  number : Nat
  constraint : Constraint
  deriving Repr, Inhabited

/-- An element that a selector selected. -/
structure Selection where
  of : NumberedConstraint
  /-- The place of the activation among the activations. -/
  activation : Nat
  /-- The depth of the element. -/
  depth : Nat
  /-- The path of the element. -/
  path : String
  fields : List FieldWalk
  deriving Repr, Inhabited

namespace Selection

/-- Runs a step of all fields, which may deliver a value each. -/
def advance (s : Selection) (types : TypeTable) (step : Matcher → Option Selected × Matcher) :
    Selection × List Violation :=
  let fields := s.fields.zipIdx.map fun (f, i) =>
    let (selected, matcher) := step f.matcher
    { f with matcher }.recordSelected types (i + 1) s.of.constraint.name s.path selected
  ({ s with fields := fields.map (·.1) }, fields.flatMap (·.2))

/-- Follows a start tag. -/
def start (s : Selection) (types : TypeTable) (e : TagEvent) : Selection × List Violation :=
  s.advance types fun m =>
    let (start, m) := m.start e
    (start.captured, m)

/-- Follows an end tag. -/
def stop (s : Selection) (types : TypeTable) : Selection × List Violation :=
  s.advance types Matcher.stop

/-- Follows a piece of text. -/
def characters (s : Selection) (text : String) : Selection :=
  { s with fields := s.fields.map fun f => { f with matcher := f.matcher.characters text } }

/-- The numbers of the fields without value. -/
def missing (s : Selection) : List Nat :=
  (s.fields.zipIdx.filter fun (f, _) => f.value?.isNone).map fun (_, i) => i + 1

/-- The values found. -/
def tuple (s : Selection) : FieldTuple := s.fields.filterMap (·.value?)

end Selection

/-- An identity constraint that has been activated. -/
structure Activation where
  of : NumberedConstraint
  /-- The depth of the activating element. -/
  depth : Nat
  /-- The selector. -/
  matcher : Matcher
  /-- The complete tuples so far. -/
  tuples : List FieldTuple := []
  deriving Repr, Inhabited

/-- A complete tuple of a keyref that has not been found yet. -/
structure OpenReference where
  of : NumberedConstraint
  /-- The number of the constraint that it refers to. -/
  refer : Nat
  /-- The depth of the activating element. -/
  depth : Nat
  tuple : FieldTuple
  path : String
  deriving Repr, Inhabited

/-! ## The state -/

/-- What is known of the identity constraints at a point of a document. -/
structure Keys where
  /-- The number of open elements. -/
  depth : Nat := 0
  /-- The activations, the latest last. -/
  activations : List Activation := []
  /-- The selections, the latest last. -/
  selections : List Selection := []
  /-- The ledgers of the open elements, innermost first. -/
  ledgers : List Ledger := []
  /-- The references whose activation has not ended. -/
  waiting : List OpenReference := []
  /-- The references that were not found. -/
  dangling : List OpenReference := []
  deriving Repr, Inhabited

namespace Keys

/-! ### Start tags -/

/-- The activations by an element. -/
def activationsOf (g : Grammar) (element? : Option Nat) (depth : Nat) : List Activation :=
  match element?.bind (g.elements[·]?) with
  | none => []
  | some d => d.constraints.filterMap fun number =>
    (g.constraints[number]?).map fun constraint =>
      { of := ⟨number, constraint⟩, depth, matcher := .ofExpression constraint.selector false }

/-- Lets an activation follow a start tag; tells whether the element is selected. -/
def Activation.start (a : Activation) (e : TagEvent) : Bool × Activation :=
  let (start, matcher) := a.matcher.start e
  (start.matched, { a with matcher })

/-- The selection of an element by the activation at a place. -/
def select (a : Activation) (place depth : Nat) (path : String) : Selection :=
  { of := a.of, activation := place, depth, path,
    fields := a.of.constraint.fields.map FieldWalk.ofExpression }

/-- Follows the start tag of an element with the given number of its declaration. -/
def start (g : Grammar) (k : Keys) (element? : Option Nat) (e : TagEvent) (path : String) :
    Keys × List Violation :=
  let depth := k.depth + 1
  let followed := k.selections.map (·.start g.types e)
  let activations := (k.activations ++ activationsOf g element? depth).map (Activation.start · e)
  let selected := (activations.zipIdx.filter fun ((isSelected, _), _) => isSelected).map
    fun ((_, a), place) => (select a place depth path).start g.types e
  ({ k with
      depth
      activations := activations.map (·.2)
      selections := followed.map (·.1) ++ selected.map (·.1)
      ledgers := [] :: k.ledgers },
    followed.flatMap (·.2) ++ selected.flatMap (·.2))

/-! ### Text -/

/-- Follows a piece of text. -/
def characters (k : Keys) (text : String) : Keys :=
  { k with selections := k.selections.map (·.characters text) }

/-! ### End tags -/

/-- Records a complete tuple of an activation in its ledger. -/
def enter (k : Keys) (a : Activation) (place : Nat) (tuple : FieldTuple) : Keys :=
  { k with
    activations := k.activations.set place { a with tuples := tuple :: a.tuples }
    ledgers := k.ledgers.modify (k.depth - a.depth) ((a.of.number, tuple) :: ·) }

/-- Closes a selection whose fields all have a value. -/
def closeComplete (k : Keys) (s : Selection) : Keys × List Violation :=
  let c := s.of.constraint
  match k.activations[s.activation]? with
  | none => (k, [])
  | some a =>
    match c.kind, c.refer? with
    | .keyref, some refer =>
      ({ k with waiting := k.waiting ++ [⟨s.of, refer, a.depth, s.tuple, s.path⟩] }, [])
    | .keyref, none => (k, [])
    | _, _ =>
      if a.tuples.contains s.tuple then
        let shown := Violation.tupleText s.tuple
        (k, [⟨.duplicateKey s.tuple c.kind c.name, some c.name, some shown, some s.path⟩])
      else (k.enter a s.activation s.tuple, [])

/-- Closes a selection. -/
def closeSelection (k : Keys) (s : Selection) : Keys × List Violation :=
  let c := s.of.constraint
  if s.missing.isEmpty then k.closeComplete s
  else if c.kind = .key then
    (k, [⟨.incompleteKey s.missing c.name, some c.name, none, some s.path⟩])
  else (k, [])

/-- Closes selections in order. -/
def closeSelections (k : Keys) : List Selection → Keys × List Violation
  | [] => (k, [])
  | s :: rest =>
    let (k, first) := k.closeSelection s
    let (k, others) := k.closeSelections rest
    (k, first ++ others)

/-- Looks up the references of the activations by the innermost element, and adds its ledger to that
of its parent. -/
def closeLedger (k : Keys) : Keys :=
  match k.ledgers with
  | [] => k
  | ledger :: outer =>
    let (ready, waiting) := k.waiting.partition (·.depth == k.depth)
    let missing := ready.filter fun r => !ledger.contains (r.refer, r.tuple)
    let ledgers := match outer with
      | [] => []
      | parent :: rest => (ledger ++ parent) :: rest
    { k with ledgers, waiting, dangling := k.dangling ++ missing }

/-- Follows an end tag. -/
def stop (g : Grammar) (k : Keys) : Keys × List Violation :=
  if k.depth = 0 then (k, [])
  else
    let followed := k.selections.map (·.stop g.types)
    let (closing, selections) := (followed.map (·.1)).partition (·.depth == k.depth)
    let (k, violations) := { k with selections }.closeSelections closing.reverse
    let k := k.closeLedger
    let activations := k.activations.map fun a => { a with matcher := a.matcher.stop.2 }
    ({ k with
        depth := k.depth - 1
        activations := activations.filter (·.depth != k.depth) },
      followed.flatMap (·.2) ++ violations)

/-! ### The end of the document -/

/-- The report of a reference that was not found. -/
def danglingViolation (g : Grammar) (r : OpenReference) : Violation :=
  let c := r.of.constraint
  let refer := match g.constraints[r.refer]? with
    | some target => target.name.text
    | none => ""
  ⟨.danglingKeyref r.tuple c.name refer, some c.name, some (Violation.tupleText r.tuple),
    some r.path⟩

/-- Reports the references that were not found, once. -/
def finish (g : Grammar) (k : Keys) : Keys × List Violation :=
  ({ k with dangling := [], waiting := [] }, (k.dangling ++ k.waiting).map (danglingViolation g))

end Keys

end MarkupGrammar
