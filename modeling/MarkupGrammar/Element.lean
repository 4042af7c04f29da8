import MarkupGrammar.Attribute
import MarkupGrammar.Constraint
import MarkupGrammar.Content

/-! # Element declarations

An element is declared in a scope, and says in which scope the names of its children are looked up.
Of one name and scope there is one declaration. -/

namespace MarkupGrammar

/-- An element as declared. -/
structure ElementDraft where
  name : Name
  scope : Scope := .global
  /-- The scope of the children. -/
  childScope : Scope := .global
  content : ContentDraft
  attributes : List AttributeDraft := []
  /-- A wildcard for attributes that are not declared. -/
  attributeWildcard? : Option Wildcard := none
  constraints : List ConstraintDraft := []
  /-- The only value allowed, for text content. -/
  fixed? : Option String := none
  deriving Repr, Inhabited

/-- The simple type of the content. -/
def ElementDraft.type? (d : ElementDraft) : Option Name :=
  match d.content with
  | .simple type => some type
  | _ => none

/-- An element of a grammar. -/
structure ElementDeclaration where
  name : Name
  scope : Scope
  /-- The scope of the children. -/
  childScope : Scope
  content : Content := {}
  /-- The simple type of the content. -/
  type? : Option Name := none
  /-- The only value allowed, for text content. -/
  fixed? : Option String := none
  /-- The numbers of the attribute declarations. -/
  attributes : List Nat := []
  /-- A wildcard for attributes that are not declared. -/
  attributeWildcard? : Option Wildcard := none
  /-- The numbers of the identity constraints. -/
  constraints : List Nat := []
  deriving DecidableEq, Repr, Inhabited

namespace ElementDeclaration

/-- Whether an attribute that is not declared is allowed. -/
def allowsAttribute (d : ElementDeclaration) (name : Name) : Bool :=
  d.attributeWildcard?.any (·.allows name)

end ElementDeclaration

end MarkupGrammar
