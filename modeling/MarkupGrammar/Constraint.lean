import MarkupGrammar.Fault

/-! # Identity constraints

An identity constraint belongs to an element declaration. Its selector selects elements below an
element of that declaration, and its fields select one value each at a selected element; the values
make up a tuple. Tuples of a `unique` or `key` constraint differ from each other; those of a
`keyref` occur among the tuples of the constraint that it refers to. -/

namespace MarkupGrammar

/-- An identity constraint as declared. -/
structure ConstraintDraft where
  name : Name
  kind : ConstraintKind
  /-- The notation of the selector. -/
  selector : String
  /-- The notations of the fields. -/
  fields : List String := []
  /-- The name of the constraint that a keyref refers to. -/
  refer? : Option Name := none
  /-- The bindings of the prefixes in the notations. -/
  bindings : Bindings := {}
  deriving Repr, Inhabited

/-- An identity constraint of a grammar. -/
structure Constraint where
  name : Name
  kind : ConstraintKind
  selector : PathExpression
  fields : List PathExpression
  /-- The number of the constraint that a keyref refers to. -/
  refer? : Option Nat := none
  /-- The number of the element declaration that the constraint belongs to. -/
  element : Nat
  deriving Repr, Inhabited

/-! ## Compilation -/

namespace ConstraintDraft

/-- Where faults of the constraint are found. -/
def component (d : ConstraintDraft) : Fault.Component := .constraint d.kind d.name

/-- Reads the fields. All of them are looked at, also after a fault. -/
def readFields (b : Bindings) : List String → List PathExpression × List Fault.Cause
  | [] => ([], [])
  | source :: sources =>
    let (fields, causes) := readFields b sources
    match PathExpression.read b .field source with
    | .ok field => (field :: fields, causes)
    | .error fault => (fields, .invalidField source fault :: causes)

/-- Compiles a constraint, all but the reference of a keyref, which may be to a later constraint;
`element` is the number of its element declaration. -/
def compile (d : ConstraintDraft) (element : Nat) : Except (List Fault.Cause) Constraint := do
  let selector ← (PathExpression.read d.bindings .selector d.selector).mapError
    fun fault => [.invalidSelector d.selector fault]
  if d.fields.isEmpty then throw [.noFields]
  let (fields, causes) := readFields d.bindings d.fields
  if !causes.isEmpty then throw causes
  if d.kind = .keyref ∧ d.refer? = none then throw [.noReference]
  return { name := d.name, kind := d.kind, selector, fields, element }

end ConstraintDraft

namespace Constraint

/-- The number of the constraint of a name. -/
def find? (cs : Array Constraint) (n : Name) : Option Nat := cs.findIdx? (·.name == n)

/-- What the keyref `c` refers to by a name: a constraint with as many fields that is no keyref. -/
def referent (cs : Array Constraint) (c : Constraint) (refer : Name) : Except Fault.Cause Nat :=
  match find? cs refer with
  | none => .error (.unknownConstraint refer)
  | some i =>
    match cs[i]? with
    | none => .error (.unknownConstraint refer)
    | some target =>
      if target.kind = .keyref then .error (.refersToKeyref refer)
      else if target.fields.length != c.fields.length then
        .error (.fieldCounts c.fields.length target.fields.length refer)
      else .ok i

end Constraint

end MarkupGrammar
