import MarkupGrammar.Limits
import MarkupGrammar.Particle
import MarkupGrammar.Path.Reader
import MarkupGrammar.Scope
import MarkupGrammar.SimpleType

/-! # Faults of grammars

What keeps a declared grammar from being compiled. A fault has a cause, which determines its kind
and its report, and the component of the grammar that it was found in, if that is known. -/

namespace MarkupGrammar

namespace Fault

/-- The kinds of faults. -/
inductive Kind where
  | ambiguousContentModel
  | unsupportedAllOccurrence
  | misplacedAllGroup
  | duplicateIdentityConstraint
  | duplicateElement
  | duplicateAttribute
  | duplicateType
  | unresolvedReference
  | invalidXPath
  | invalidFacet
  | invalidOccurs
  | limitExceeded
  deriving DecidableEq, Repr, Inhabited

/-- The name of a kind. -/
def Kind.text : Kind → String
  | ambiguousContentModel => "AmbiguousContentModel"
  | unsupportedAllOccurrence => "UnsupportedAllOccurrence"
  | misplacedAllGroup => "MisplacedAllGroup"
  | duplicateIdentityConstraint => "DuplicateIdentityConstraint"
  | duplicateElement => "DuplicateElement"
  | duplicateAttribute => "DuplicateAttribute"
  | duplicateType => "DuplicateType"
  | unresolvedReference => "UnresolvedReference"
  | invalidXPath => "InvalidXPath"
  | invalidFacet => "InvalidFacet"
  | invalidOccurs => "InvalidOccurs"
  | limitExceeded => "LimitExceeded"

/-- Why the default value of an attribute, or the value of an attribute in a document, is not
allowed. -/
inductive AttributeReason where
  /-- The type is not known. -/
  | unknownType (type : Name)
  /-- The text is no value of the type. -/
  | notAValue (fault : Value.Fault)
  /-- The value is none of those listed. -/
  | notListed (value : String) (listed : List String)
  deriving DecidableEq, Repr, Inhabited

/-- The report of a reason. -/
def AttributeReason.message : AttributeReason → String
  | unknownType type => s!"unknown type '{type.text}'"
  | notAValue fault => fault.message
  | notListed value listed =>
    let alternatives := Text.joined "|" listed
    s!"'{value}' is not one of ({alternatives})"

/-- The causes of faults. -/
inductive Cause where
  | occurs (fault : Occurs.Fault)
  | wildcard (fault : Wildcard.Fault)
  | limit (excess : Limits.Excess)
  | unbound (u : UnboundPrefix)
  /-- A name is listed twice in mixed content. -/
  | duplicateMixed (name : Name)
  /-- Two leaves of a content model overlap where both can come next. -/
  | ambiguousModel (a b : Leaf)
  /-- Two members of an all-group overlap. -/
  | ambiguousAll (a b : Leaf)
  /-- An all-group is a member of another group. -/
  | nestedAll
  /-- A particle other than an all-group stands where one is expected. -/
  | notAll
  /-- A member of an all-group is a group. -/
  | groupInAll
  /-- An all-group may occur more than once. -/
  | repeatedAll (occurs : Occurs)
  /-- A member of an all-group has an occurrence range that is not supported. -/
  | allMember (occurs : Occurs) (leaf : Leaf)
  /-- The same, for a group that is only written out. -/
  | allMemberShown (occurs : Occurs)
  | duplicateType (name : Name)
  | unknownBase (base : Name)
  | type (fault : TypeDraft.Fault)
  | duplicateElement (name : Name) (scope : Scope)
  | unknownType (type : Name)
  | duplicateAttribute (name : Name)
  | unknownAttributeType (type attr : Name)
  | invalidDefault (attr : Name) (reason : AttributeReason)
  | duplicateConstraint (name : Name)
  | invalidSelector (source : String) (fault : PathExpression.Fault)
  | invalidField (source : String) (fault : PathExpression.Fault)
  | noFields
  /-- A keyref does not say what it refers to. -/
  | noReference
  | unknownConstraint (name : Name)
  /-- A keyref refers to a keyref. -/
  | refersToKeyref (name : Name)
  /-- A keyref refers to a constraint with another number of fields. -/
  | fieldCounts (own other : Nat) (name : Name)
  /-- A fault that a client states in its own words. -/
  | stated (kind : Kind) (text : String)
  deriving Repr, Inhabited, DecidableEq

/-- The kind of a cause. -/
def Cause.kind : Cause → Kind
  | occurs _ => .invalidOccurs
  | wildcard _ | type _ | invalidDefault _ _ => .invalidFacet
  | limit _ => .limitExceeded
  | duplicateMixed _ | duplicateElement _ _ => .duplicateElement
  | ambiguousModel _ _ | ambiguousAll _ _ => .ambiguousContentModel
  | nestedAll | notAll | groupInAll => .misplacedAllGroup
  | repeatedAll _ | allMember _ _ | allMemberShown _ => .unsupportedAllOccurrence
  | duplicateType _ => .duplicateType
  | unbound _ | unknownBase _ | unknownType _ | unknownAttributeType _ _ | noReference
  | unknownConstraint _ | refersToKeyref _ | fieldCounts _ _ _ => .unresolvedReference
  | duplicateAttribute _ => .duplicateAttribute
  | duplicateConstraint _ => .duplicateIdentityConstraint
  | invalidSelector _ _ | invalidField _ _ | noFields => .invalidXPath
  | stated kind _ => kind

/-- The report of a cause. -/
def Cause.message : Cause → String
  | occurs fault => fault.message
  | wildcard fault => fault.message
  | limit excess => excess.message
  | unbound u => u.message
  | duplicateMixed name => s!"'{name.text}' appears more than once in mixed content"
  | ambiguousModel a b =>
    s!"content model is ambiguous: '{a.text}' and '{b.text}' can both match the same element"
  | ambiguousAll a b =>
    s!"all group is ambiguous: '{a.text}' and '{b.text}' can both match the same element"
  | nestedAll => "an all group must be the only top-level particle of a content model"
  | notAll => "expected an all group"
  | groupInAll => "an all group may only contain element and wildcard particles"
  | repeatedAll o => s!"all group occurrence must be 0..1 or 1..1, found {o.text}"
  | allMember o leaf =>
    s!"occurrence '{o.text}' of '{leaf.text}' in an all group is not supported"
  | allMemberShown o => s!"occurrence '{o.text}' in an all group is not supported"
  | duplicateType name => s!"type '{name.text}' is already defined"
  | unknownBase base => s!"unknown base type '{base.text}'"
  | type fault => fault.message
  | duplicateElement name scope =>
    s!"element '{name.text}' is declared twice in {scope.text} scope"
  | unknownType t => s!"unknown simple type '{t.text}'"
  | duplicateAttribute name => s!"attribute '{name.text}' is declared twice"
  | unknownAttributeType t attr =>
    s!"unknown simple type '{t.text}' of attribute '{attr.text}'"
  | invalidDefault attr reason =>
    s!"invalid value constraint of attribute '{attr.text}': {reason.message}"
  | duplicateConstraint name => s!"identity constraint '{name.text}' is declared twice"
  | invalidSelector source fault => s!"invalid selector '{source}': {fault.message}"
  | invalidField source fault => s!"invalid field '{source}': {fault.message}"
  | noFields => "at least one field is required"
  | noReference => "keyref requires a referenced key"
  | unknownConstraint name => s!"unknown identity constraint '{name.text}'"
  | refersToKeyref name => s!"'{name.text}' is a keyref, not a key or unique constraint"
  | fieldCounts own other name =>
    s!"field count {own} differs from the {other} fields of '{name.text}'"
  | stated _ text => text

/-- The components of a grammar. -/
inductive Component where
  | simpleType (name : Name)
  | element (name : Name)
  | constraint (kind : ConstraintKind) (name : Name)
  /-- A component that a client names in its own words. -/
  | stated (text : String)
  deriving Repr, Inhabited, DecidableEq

/-- The written form of a component. -/
def Component.text : Component → String
  | simpleType name => s!"simple type '{name.text}'"
  | element name => s!"element '{name.text}'"
  | constraint kind name => s!"{kind.text} '{name.text}'"
  | stated text => text

end Fault

/-- What keeps a grammar from being compiled. -/
structure Fault where
  /-- What is wrong. -/
  cause : Fault.Cause
  /-- Where it was found. -/
  component? : Option Fault.Component := none
  deriving Repr, Inhabited, DecidableEq

namespace Fault

/-- The fault, found in the given component. -/
def within (f : Fault) (c : Component) : Fault := { f with component? := some c }

/-- The report, with the component. -/
def text (f : Fault) : String :=
  match f.component? with
  | some c => s!"{f.cause.message} (in {c.text})"
  | none => f.cause.message

/-- The reports of several faults, one a line. -/
def listText (fs : List Fault) : String := Text.joined "\n" (fs.map text)

end Fault

end MarkupGrammar
