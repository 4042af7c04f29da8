import MarkupGrammar.Path.Matcher

/-! # Events of documents

A document as the sequence of its start tags, pieces of text and end tags, with expanded names. A
document that is a tree has the events of its nodes in document order; comments and instructions
have none. -/

namespace MarkupGrammar

/-! ## Attributes of documents

The attributes of an element as they stand in its start tag, and as they count after the values of
absent ones have been added. -/

/-- An attribute in a start tag. -/
structure Attribute where
  name : Name
  value : String
  deriving DecidableEq, Repr, Inhabited

/-- Whether an attribute is addressed to the reader or the validator: it declares a namespace or is
in a namespace of theirs. Such attributes need no declaration. -/
def Attribute.isReserved (a : Attribute) : Bool :=
  match a.name.space with
  | some space => space == declarationSpace || space == instanceSpace
  | none =>
    a.name.localPart == "xmlns" ||
      (Text.after? "xmlns:".toList a.name.localPart.toList).isSome

/-- An attribute as it counts. -/
structure EffectiveAttribute where
  name : Name
  value : String
  /-- The type of the value, if the attribute is declared. -/
  type? : Option Name := none
  /-- Whether the attribute is absent from the start tag. -/
  isDefault : Bool := false
  deriving DecidableEq, Repr, Inhabited

namespace EffectiveAttribute

/-- An attribute that stands in the start tag. -/
def ofAttribute (a : Attribute) (type? : Option Name) : EffectiveAttribute :=
  { name := a.name, value := a.value, type? }

/-- The attribute for a matcher. -/
def typed (a : EffectiveAttribute) : TypedAttribute := ⟨a.name, a.value, a.type?⟩

end EffectiveAttribute

/-! ## Events -/

/-- An event of a document. -/
inductive Event where
  | start (name : Name) (attributes : List Attribute)
  | characters (text : String)
  | stop (name : Name)
  deriving DecidableEq, Repr, Inhabited

/-- A node of a document tree. -/
inductive Node where
  | element (name : Name) (attributes : List Attribute) (children : List Node)
  | text (text : String)
  /-- A comment or a processing instruction. -/
  | aside
  deriving Repr, Inhabited

namespace Node

mutual
/-- The events of a node. -/
def events : Node → List Event
  | element name attributes children =>
    .start name attributes :: (childEvents children ++ [.stop name])
  | text s => [.characters s]
  | aside => []

/-- The events of nodes, one after the other. -/
def childEvents : List Node → List Event
  | [] => []
  | n :: ns => n.events ++ childEvents ns
end

end Node

end MarkupGrammar
