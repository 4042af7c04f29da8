import MarkupGrammar.SimpleType.Table

/-! # Attribute declarations

An attribute is declared for an element with a type and a *presence*: it is required, or it is not,
or it has a value that counts where it is absent; a fixed value is also the only one allowed. The
value that stands in for an absent attribute has to be allowed itself. -/

namespace MarkupGrammar

/-- The types of attributes. -/
inductive AttributeType where
  | text
  | id
  | idReference
  | idReferences
  | nameToken
  | nameTokens
  | entity
  | entities
  /-- One of the given notations. -/
  | notations (names : List String)
  /-- One of the given name tokens. -/
  | enumeration (values : List String)
  /-- A simple type. -/
  | simple (name : Name)
  deriving DecidableEq, Repr, Inhabited

namespace AttributeType

/-- The name of the simple type that the values are of. -/
def typeName : AttributeType → Name
  | text => .qualified schemaSpace "string"
  | id => .qualified schemaSpace "ID"
  | idReference => .qualified schemaSpace "IDREF"
  | idReferences => .qualified schemaSpace "IDREFS"
  | nameToken | enumeration _ => .qualified schemaSpace "NMTOKEN"
  | nameTokens => .qualified schemaSpace "NMTOKENS"
  | entity => .qualified schemaSpace "ENTITY"
  | entities => .qualified schemaSpace "ENTITIES"
  | notations _ => .qualified schemaSpace "NOTATION"
  | simple name => name

/-- Whether the type is one of the list types among those without a name of their own. -/
def isList : AttributeType → Bool
  | idReferences | nameTokens | entities => true
  | _ => false

/-- The values that are allowed, if they are listed. -/
def listed? : AttributeType → Option (List String)
  | notations values | enumeration values => some values
  | _ => none

/-- The written form. -/
def written : AttributeType → String
  | text => "CDATA"
  | id => "ID"
  | idReference => "IDREF"
  | idReferences => "IDREFS"
  | nameToken => "NMTOKEN"
  | nameTokens => "NMTOKENS"
  | entity => "ENTITY"
  | entities => "ENTITIES"
  | notations names =>
    let alternatives := Text.joined "|" names
    s!"NOTATION ({alternatives})"
  | enumeration values =>
    let alternatives := Text.joined "|" values
    s!"({alternatives})"
  | simple name => name.text

end AttributeType

/-- What counts where an attribute is absent. -/
inductive Presence where
  | required
  | implied
  /-- The attribute has this value only. -/
  | fixed (value : String)
  /-- The attribute has this value if it is absent. -/
  | default (value : String)
  deriving DecidableEq, Repr, Inhabited

/-- The value of an absent attribute. -/
def Presence.value? : Presence → Option String
  | fixed value | default value => some value
  | required | implied => none

/-- An attribute as declared. -/
structure AttributeDraft where
  name : Name
  type : AttributeType := .text
  presence : Presence := .implied
  deriving DecidableEq, Repr, Inhabited

/-- An attribute of a grammar. -/
structure AttributeDeclaration where
  name : Name
  type : AttributeType
  presence : Presence
  /-- The number of the element declaration that it belongs to. -/
  element : Nat
  deriving DecidableEq, Repr, Inhabited

namespace AttributeDeclaration

/-- Whether the attribute may not be absent. -/
def isRequired (a : AttributeDeclaration) : Bool := a.presence == .required

end AttributeDeclaration

namespace AttributeType

/-- Tests a literal against a type; gives the literal after the treatment of white space. -/
def check (t : AttributeType) (types : TypeTable) (ctx : ValueContext) (literal : String) :
    Except Fault.AttributeReason String :=
  match types.find? t.typeName with
  | none => .error (.unknownType t.typeName)
  | some type => do
    let _ ← (type.validate ctx literal).mapError .notAValue
    let treated := type.spacing.normalize literal
    match t.listed? with
    | some listed =>
      if listed.contains treated then return treated else throw (.notListed treated listed)
    | none => return treated

end AttributeType

/-! ## Declaring attributes -/

namespace AttributeDraft

/-- Declares an attribute, `element` being the number of its element. -/
def declare (d : AttributeDraft) (types : TypeTable) (element : Nat) :
    Except Fault.Cause AttributeDeclaration := do
  if let .simple type := d.type then
    if !types.contains type then throw (.unknownAttributeType type d.name)
  if let some value := d.presence.value? then
    let _ ← (d.type.check types {} value).mapError (.invalidDefault d.name)
  return ⟨d.name, d.type, d.presence, element⟩

/-- Declares the attributes of an element; those that have a fault are left out. The names in `seen`
have been declared before. -/
def declareAll (types : TypeTable) (element : Nat) (seen : List Name) :
    List AttributeDraft → List AttributeDeclaration × List Fault.Cause
  | [] => ([], [])
  | d :: ds =>
    let (declared, causes) := declareAll types element (d.name :: seen) ds
    if seen.contains d.name then (declared, .duplicateAttribute d.name :: causes)
    else match d.declare types element with
      | .ok a => (a :: declared, causes)
      | .error cause => (declared, cause :: causes)

end AttributeDraft

end MarkupGrammar
