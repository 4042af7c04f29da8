import MarkupGrammar.Document.Event
import MarkupGrammar.Markup.Token

/-! # Document trees

The nodes of a well-formed document, from its tokens: end tags match start tags, prefixes are
declared, and no two attributes of an element have one expanded name. Texts that are not separated
are one. A document has one root, but where an entity closes it, more may follow. -/

namespace MarkupGrammar.Markup

/-! ## Names -/

/-- What the attributes of a start tag declare, in order. The reserved labels and their namespaces
belong together, and a label is declared once. -/
def declaredBy : List (WrittenName × String) → Option Declared
  | [] => some []
  | (name, space) :: as => do
    let others ← declaredBy as
    if name.label? = some "xmlns" then
      if space = declarationSpace || (name.localPart == "xml") != (space == xmlSpace) ||
          others.any (·.1 == some name.localPart) then none
      else if name.localPart = "xml" then return others
      else return (some name.localPart, space) :: others
    else if name.localPart = "xmlns" then
      if space = declarationSpace || space = xmlSpace then none else return (none, space) :: others
    else return others

/-- Whether an attribute declares what a label stands for. -/
def isDeclaration (name : WrittenName) : Bool :=
  name.label? == some "xmlns" || name.localPart == "xmlns"

/-- The expanded name of an element. -/
def elementName? (declared : Declared) (name : WrittenName) : Option Name :=
  match name.label?, declared.lookup name.label? with
  | some "xmlns", _ => none
  | _, some space => some (.qualified space name.localPart)
  | none, none => some (.unqualified name.localPart)
  | some _, none => none

/-- The expanded name of an attribute. -/
def attributeName? (declared : Declared) (name : WrittenName) : Option Name :=
  match name.label? with
  | none => some (.unqualified name.localPart)
  | some "xml" => some (.qualified xmlSpace name.localPart)
  | some label => (declared.lookup (some label)).map (.qualified · name.localPart)

/-- The attributes that are no declarations, with different expanded names. -/
def attributes? (declared : Declared) (seen : List Name) :
    List (WrittenName × String) → Option (List Attribute)
  | [] => some []
  | (written, value) :: as =>
    if isDeclaration written then attributes? declared seen as
    else do
      let name ← attributeName? declared written
      if seen.contains name then none
      return ⟨name, value⟩ :: (← attributes? declared (name :: seen) as)

/-! ## The tree -/

/-- An element whose end tag has not been found. -/
structure OpenNode where
  written : WrittenName
  name : Name
  attributes : List Attribute
  declared : Declared
  /-- The children so far, the last first. -/
  children : List Node := []
  deriving Repr, Inhabited

namespace OpenNode

/-- The element with one more child; a text continues the text before it. -/
def add (o : OpenNode) (n : Node) : OpenNode :=
  match n, o.children with
  | .text b, .text a :: before => { o with children := .text (a ++ b) :: before }
  | n, before => { o with children := n :: before }

/-- The element when its end tag is found. -/
def close (o : OpenNode) : Node := .element o.name o.attributes o.children.reverse

/-- The element of a start tag. -/
def ofTag (inForce : Declared) (name : WrittenName) (as : List (WrittenName × String)) :
    Option OpenNode := do
  let declared := (← declaredBy as) ++ inForce
  return {
    written := name, name := ← elementName? declared name,
    attributes := ← attributes? declared [] as, declared }

end OpenNode

/-- Adds a node to the innermost open element, or else to the nodes of the document, of which the
last one comes first. -/
def addNode (n : Node) : (opened : List OpenNode) → (nodes : List Node) →
    List OpenNode × List Node
  | [], nodes => ([], n :: nodes)
  | o :: outer, nodes => (o.add n :: outer, nodes)

/-- The nodes of a document, from its tokens. The elements that are open are listed, the innermost
first, and the nodes so far, the last one first. -/
def nodesOfTokens? (opened : List OpenNode) (nodes : List Node) : List Token → Option (List Node)
  | [] => if opened.isEmpty then some nodes.reverse else none
  | .start name as :: ts => do
    let inForce := match opened with
      | [] => []
      | parent :: _ => parent.declared
    nodesOfTokens? ((← OpenNode.ofTag inForce name as) :: opened) nodes ts
  | .stop name :: ts =>
    match opened with
    | [] => none
    | o :: outer =>
      if o.written ≠ name then none
      else
        let (opened, nodes) := addNode o.close outer nodes
        nodesOfTokens? opened nodes ts
  | .text s :: ts =>
    let (opened, nodes) := addNode (.text s) opened nodes
    nodesOfTokens? opened nodes ts
  | .aside :: ts =>
    let (opened, nodes) := addNode .aside opened nodes
    nodesOfTokens? opened nodes ts

/-- The nodes of a well-formed document. -/
def readTree? (allowsDoctype : Bool) (markup : String) : Option (List Node) :=
  (documentTokens? allowsDoctype markup).bind (nodesOfTokens? [] [])

end MarkupGrammar.Markup
