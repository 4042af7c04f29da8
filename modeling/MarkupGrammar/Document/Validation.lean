import MarkupGrammar.Document.AttributeCheck
import MarkupGrammar.Document.ContentWalk
import MarkupGrammar.Document.Event
import MarkupGrammar.Document.PooledKeys
import MarkupGrammar.Document.Report

/-! # Validating documents

A document is validated along its *events*: start tags, pieces of text and end tags. A validation
keeps the open elements, the state of the identity constraints, the identifiers of the document and
the violations found so far; its report is made at the end of the document. A document that is given
as a tree is followed node by node.

An event may fail: when elements nest too deeply, or when tags do not match. No violations come from
an event that fails. -/

namespace MarkupGrammar

/-- What to validate. -/
structure ValidationOptions where
  /-- Whether identity constraints are checked. -/
  checksConstraints : Bool := true
  /-- Whether identifiers and references to them are checked. -/
  checksIdentifiers : Bool := true
  /-- Whether the root has to be the one that the grammar describes. -/
  checksRoot : Bool := true
  limits : Limits := {}
  /-- What evaluates assertions; without it they do not count. -/
  evaluate? : Option (Assertion → Except String Bool) := none

/-- What values are read with. -/
def ValidationOptions.context (o : ValidationOptions) : ValueContext := { evaluate? := o.evaluate? }

/-- A validation at a point of a document. -/
structure Validation where
  walk : ContentWalk := {}
  keys : PooledKeys := {}
  identifiers : Identifiers := {}
  violations : List Violation := []
  deriving Repr, Inhabited

namespace Validation

/-- The number of open elements. -/
def depth (v : Validation) : Nat := v.walk.depth

/-- A validation before its document. What has gone before is dropped, but for the matchers, which
are kept to be used again. -/
def restart (v : Validation) : Validation :=
  { walk := {}, keys := v.keys.clear, identifiers := {}, violations := [] }

/-- The validation with more violations. -/
def report (v : Validation) (vs : List Violation) : Validation :=
  { v with violations := v.violations ++ vs }

/-! ## Events -/

/-- The attributes of an element that is not validated against a declaration. -/
def undeclaredAttributes (as : List Attribute) : List EffectiveAttribute :=
  (as.filter (!·.isReserved)).map (.ofAttribute · none)

/-- Checks the attributes of an element in the given mode. -/
def checkAttributes (g : Grammar) (o : ValidationOptions) (v : Validation) (mode : Mode)
    (path : String) (as : List Attribute) : AttributeCheck :=
  let ids? := if o.checksIdentifiers then some v.identifiers else none
  match mode.declaration?.bind (g.elements[·]?) with
  | some d => g.checkAttributes d o.context ids? path as
  | none => { effective := undeclaredAttributes as, ids? }

/-- Follows a start tag. -/
def start (g : Grammar) (o : ValidationOptions) (v : Validation) (name : Name)
    (as : List Attribute) : Except Failure Validation := do
  let s ← v.walk.start g o.limits o.checksRoot name
  let check := v.checkAttributes g o s.mode s.path as
  let (keys, keyViolations) :=
    if o.checksConstraints then
      let element? := s.mode.declaration?
      let type? := (element?.bind (g.elements[·]?)).bind (·.type?)
      v.keys.start g element? ⟨name, check.effective.map (·.typed), type?⟩ s.path
    else (v.keys, [])
  return { v with walk := s.walk, keys, identifiers := check.ids?.getD v.identifiers }.report
    (s.violations ++ check.violations ++ keyViolations)

/-- Follows a piece of text. -/
def characters (g : Grammar) (o : ValidationOptions) (v : Validation) (text : String) :
    Except Failure Validation := do
  let (walk, violations) ← v.walk.characters g text
  let keys := if o.checksConstraints then v.keys.characters text else v.keys
  return { v with walk, keys }.report violations

/-- Follows an end tag. One that fails has closed the innermost element all the same, but not its
identity constraints. -/
def stop (g : Grammar) (o : ValidationOptions) (v : Validation) (name : Name) :
    Except Failure Unit × Validation :=
  match v.walk.stop g o.context name with
  | (.error e, walk) => (.error e, { v with walk })
  | (.ok violations, walk) =>
    let (keys, keyViolations) := if o.checksConstraints then v.keys.stop g else (v.keys, [])
    (.ok (), { v with walk, keys }.report (violations ++ keyViolations))

/-- The outcome of an event that changes nothing when it fails. -/
def settle (v : Validation) : Except Failure Validation → Except Failure Unit × Validation
  | .ok next => (.ok (), next)
  | .error e => (.error e, v)

/-- Follows an event. -/
def step (g : Grammar) (o : ValidationOptions) (v : Validation) :
    Event → Except Failure Unit × Validation
  | .start name as => v.settle (v.start g o name as)
  | .characters text => v.settle (v.characters g o text)
  | .stop name => v.stop g o name

/-- Follows events up to the first that fails. -/
def run (g : Grammar) (o : ValidationOptions) (v : Validation) :
    List Event → Except Failure Unit × Validation
  | [] => (.ok (), v)
  | e :: es =>
    match v.step g o e with
    | (.ok (), v) => v.run g o es
    | (.error f, v) => (.error f, v)

/-! ## The end of the document -/

/-- A reference to an identifier that is not declared. -/
def danglingViolation (r : IdReference) : Violation :=
  ⟨.danglingIdref r.id, none, some r.id, some r.path⟩

/-- Ends the document. The report takes the violations along. -/
def finish (g : Grammar) (o : ValidationOptions) (v : Validation) :
    Except Failure Report × Validation :=
  if v.depth > 0 then (.error (.markup (.unclosed v.depth)), v)
  else
    let (keys, keyViolations) := if o.checksConstraints then v.keys.finish g else (v.keys, [])
    let idViolations :=
      if o.checksIdentifiers then v.identifiers.dangling.map danglingViolation else []
    (.ok ⟨v.violations ++ keyViolations ++ idViolations⟩, { v with keys, violations := [] })

/-- Validates a document, given as its events, from its beginning to its end. -/
def validate (g : Grammar) (o : ValidationOptions) (v : Validation) (es : List Event) :
    Except Failure Report × Validation :=
  match v.restart.run g o es with
  | (.ok (), v) => v.finish g o
  | (.error f, v) => (.error f, v)

/-! ## Trees -/

mutual
/-- Follows a node of a document tree; an element by its start tag, its children and its end tag.
Text outside of elements does not count, and nothing that comes after an event that fails. -/
def follow (g : Grammar) (o : ValidationOptions) (v : Validation) :
    Node → Except Failure Unit × Validation
  | .element name attributes children =>
    match v.step g o (.start name attributes) with
    | (.error f, v) => (.error f, v)
    | (.ok (), v) =>
      match v.followAll g o children with
      | (.error f, v) => (.error f, v)
      | (.ok (), v) => v.step g o (.stop name)
  | .text s => if v.depth = 0 then (.ok (), v) else v.step g o (.characters s)
  | .aside => (.ok (), v)

/-- Follows nodes in order. -/
def followAll (g : Grammar) (o : ValidationOptions) (v : Validation) :
    List Node → Except Failure Unit × Validation
  | [] => (.ok (), v)
  | n :: ns =>
    match v.follow g o n with
    | (.error f, v) => (.error f, v)
    | (.ok (), v) => v.followAll g o ns
end

/-- Validates a document, given as its nodes, from its beginning to its end. -/
def validateTree (g : Grammar) (o : ValidationOptions) (v : Validation) (ns : List Node) :
    Except Failure Report × Validation :=
  match v.restart.followAll g o ns with
  | (.ok (), v) => v.finish g o
  | (.error f, v) => (.error f, v)

end Validation

end MarkupGrammar
