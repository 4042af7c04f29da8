import MarkupGrammar.Element
import MarkupGrammar.Text.Quoted

/-! # Grammars

A compiled grammar: the declarations of elements, attributes, identity constraints and simple types,
and the substitution groups. Declarations refer to each other by their numbers. A grammar describes
the documents with a certain root (a document type) or the elements of a namespace (a schema). -/

namespace MarkupGrammar

/-! ## Descriptions -/

/-- The kinds of grammars. -/
inductive Grammar.Kind where
  | documentType
  | schema
  deriving DecidableEq, Repr, Inhabited

/-- The name of a kind. -/
def Grammar.Kind.text : Grammar.Kind → String
  | .documentType => "DTD"
  | .schema => "Schema"

/-- What a grammar describes. -/
inductive Description where
  /-- Documents whose root has the given local name. -/
  | documentType (root : String)
  /-- The elements of a namespace. -/
  | schema (space : Option String)
  deriving DecidableEq, Repr, Inhabited

namespace Description

/-- The kind of grammar. -/
def kind : Description → Grammar.Kind
  | documentType _ => .documentType
  | schema _ => .schema

/-- What tells the grammars of one kind apart. -/
def key : Description → Option String
  | documentType root => some root
  | schema space => space

/-- The written form. -/
def text : Description → String
  | documentType root => s!"DTD <{root}>"
  | schema (some space) => "Schema " ++ Text.braced space
  | schema none => "Schema (no namespace)"

end Description

/-! ## Grammars -/

/-- A compiled grammar. -/
structure Grammar where
  description : Description
  elements : Array ElementDeclaration := #[]
  attributes : Array AttributeDeclaration := #[]
  constraints : Array Constraint := #[]
  /-- The expressions that content models were compiled from. -/
  expressions : ExpressionTable := {}
  /-- The declared simple types. -/
  types : TypeTable := {}
  /-- The declared substitution groups. -/
  substitutions : Substitutions := {}
  /-- What is asked about substitution instead of the declared groups. -/
  comparator? : Option Comparator := none

namespace Grammar

/-- The kind of grammar. -/
def kind (g : Grammar) : Kind := g.description.kind

/-- What is asked about substitution; nothing if there are no groups either. -/
def comparator (g : Grammar) : Option Comparator :=
  match g.comparator? with
  | some c => some c
  | none => if g.substitutions.isEmpty then none else some g.substitutions.comparator

/-! ### Looking up declarations -/

/-- The number of the element declaration of a name and scope. -/
def lookup (elements : Array ElementDeclaration) (scope : Scope) (name : Name) : Option Nat :=
  elements.findIdx? fun d => d.scope == scope && d.name == name

/-- The number of the declaration that the name of a child refers to: one of the scope, or else a
global one. -/
def lookupChild (elements : Array ElementDeclaration) (scope : Scope) (name : Name) : Option Nat :=
  match scope with
  | .global => lookup elements .global name
  | .within _ => (lookup elements scope name).or (lookup elements .global name)

/-- The number of the global declaration of a name. -/
def globalElement (g : Grammar) (name : Name) : Option Nat := lookup g.elements .global name

/-- `lookupChild` in a grammar. -/
def resolveChild (g : Grammar) (scope : Scope) (name : Name) : Option Nat :=
  lookupChild g.elements scope name

/-- The number of the identity constraint of a name. -/
def findConstraint (g : Grammar) (name : Name) : Option Nat := Constraint.find? g.constraints name

/-- The attribute declarations of an element, with their numbers. -/
def attributesOf (g : Grammar) (d : ElementDeclaration) : List (Nat × AttributeDeclaration) :=
  d.attributes.filterMap fun i => (g.attributes[i]?).map (i, ·)

/-- The declaration of an attribute of an element. -/
def findAttribute (g : Grammar) (d : ElementDeclaration) (name : Name) :
    Option AttributeDeclaration :=
  ((g.attributesOf d).find? fun (_, a) => a.name == name).map (·.2)

/-! ### Writing -/

/-- The written form of the members of an all-group. -/
def allText (a : AllGroup) : String :=
  let members := a.members.map fun m => m.symbol.leaf.text ++ m.occurs.text
  let list := Text.joined "," members
  s!"&({list})"

/-- The written form of text content with elements. -/
def mixedText (symbols : List Symbol) : String :=
  if symbols.isEmpty then "(#PCDATA)"
  else
    let alternatives := Text.joined "|" (symbols.map (·.leaf.text))
    s!"(#PCDATA|{alternatives})*"

/-- The written form of an expression, or of empty content where there is none. -/
def expressionText (g : Grammar) (expression? : Option Nat) : Except Failure String :=
  match expression? with
  | some root => (g.expressions.text root).mapError .defect
  | none => .ok "EMPTY"

/-- The written form of the content of an element declaration. -/
def declaredText (g : Grammar) (d : ElementDeclaration) : Except Failure String :=
  let c := d.content
  match c.category, c.model, c.expression? with
  | .empty, _, _ => .ok "EMPTY"
  | .any, _, _ => .ok "ANY"
  | .simple, _, _ => .ok (match d.type? with
    | some type => Text.braced type.text
    | none => mixedText [])
  | .mixedSimple, .mixed symbols, none | .mixedComplex, .mixed symbols, none =>
    .ok (mixedText symbols)
  | .children, .all a, _ => .ok (allText a)
  | _, _, expression? => g.expressionText expression?

/-- The written form of the content of the element declaration of a number. -/
def contentText (g : Grammar) (element : Nat) : Except Failure String :=
  match g.elements[element]? with
  | some d => g.declaredText d
  | none => .error (.defect (.dangling .elements element))

/-- The description, for the summary of a grammar. -/
def descriptionSummary : Description → String
  | .documentType root =>
    let root := Text.Quoting.display.quote root
    "Dtd \x7b root_element: " ++ root ++ " \x7d"
  | .schema space =>
    let space := match space with
      | some space =>
        let space := Text.Quoting.display.quote space
        s!"Some({space})"
      | none => "None"
    "Schema \x7b target_namespace: " ++ space ++ " \x7d"

/-- A summary: the description and the number of declarations of each sort. -/
def summary (g : Grammar) : String :=
  let fields := [
    ("description", descriptionSummary g.description),
    ("elements", toString g.elements.size),
    ("attributes", toString g.attributes.size),
    ("identity_constraints", toString g.constraints.size),
    ("content_spec_nodes", toString g.expressions.size),
    ("simple_types", toString g.types.size)]
  let written := fields.map fun (name, value) => s!"{name}: {value}"
  "Grammar \x7b " ++ Text.joined ", " written ++ " \x7d"

end Grammar

end MarkupGrammar
