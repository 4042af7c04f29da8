import MarkupGrammar.Fault

/-! # Violations

Where a document does not follow its grammar. A violation has a cause, which determines its kind and
its report, and may carry the name and the value in question and the path of the element. -/

namespace MarkupGrammar

namespace Violation

/-- The kinds of violations. -/
inductive Kind where
  | unexpectedElement
  | incompleteContent
  | elementNotAllowed
  | textNotAllowed
  | undeclaredElement
  | undeclaredAttribute
  | missingAttribute
  | invalidAttributeValue
  | fixedValueMismatch
  | invalidValue
  | duplicateId
  | danglingIdref
  | duplicateKey
  | incompleteKey
  | fieldMultipleMatch
  | danglingKeyref
  | rootMismatch
  deriving DecidableEq, Repr, Inhabited

/-- The name of a kind. -/
def Kind.text : Kind → String
  | unexpectedElement => "UnexpectedElement"
  | incompleteContent => "IncompleteContent"
  | elementNotAllowed => "ElementNotAllowed"
  | textNotAllowed => "TextNotAllowed"
  | undeclaredElement => "UndeclaredElement"
  | undeclaredAttribute => "UndeclaredAttribute"
  | missingAttribute => "MissingAttribute"
  | invalidAttributeValue => "InvalidAttributeValue"
  | fixedValueMismatch => "FixedValueMismatch"
  | invalidValue => "InvalidValue"
  | duplicateId => "DuplicateId"
  | danglingIdref => "DanglingIdref"
  | duplicateKey => "DuplicateKey"
  | incompleteKey => "IncompleteKey"
  | fieldMultipleMatch => "FieldMultipleMatch"
  | danglingKeyref => "DanglingKeyref"
  | rootMismatch => "RootMismatch"

/-- The leaves that were expected instead, for a report. -/
def expectedText (expected : List Leaf) : String :=
  if expected.isEmpty then "no more elements" else Text.joined ", " (expected.map Leaf.text)

/-- The values of a tuple of fields, for a report. -/
def tupleText (tuple : List Value) : String := Text.joined ", " (tuple.map Value.text)

/-- The causes of violations. -/
inductive Cause where
  /-- The root is not the element that the grammar names. -/
  | otherRoot (name : Name) (expected : String)
  | undeclaredElement (name : Name)
  | unexpectedElement (name parent : Name) (expected : List Leaf)
  | elementNotAllowed (parent : Name) (category : Category)
  | textNotAllowed (element : Name) (category : Category)
  | incompleteContent (element : Name) (expected : List Leaf)
  | invalidContent (element type : Name) (fault : Value.Fault)
  | fixedContent (element : Name) (fixed : String)
  | undeclaredAttribute (attr element : Name)
  | missingAttribute (attr element : Name)
  | invalidAttribute (attr : Name) (reason : Fault.AttributeReason)
  | fixedAttribute (attr : Name) (fixed : String)
  | duplicateId (id : String)
  | danglingIdref (id : String)
  /-- A field of a constraint, counted from one, has more than one value. -/
  | repeatedField (field : Nat) (constraint : Name)
  /-- Fields of a key, counted from one, have no value. -/
  | incompleteKey (missing : List Nat) (constraint : Name)
  | duplicateKey (tuple : List Value) (kind : ConstraintKind) (constraint : Name)
  | danglingKeyref (tuple : List Value) (constraint : Name) (refer : String)
  /-- A violation that a client states in its own words. -/
  | stated (kind : Kind) (text : String)
  deriving Repr, Inhabited, DecidableEq

/-- The kind of a cause. -/
def Cause.kind : Cause → Kind
  | otherRoot _ _ => .rootMismatch
  | undeclaredElement _ => .undeclaredElement
  | unexpectedElement _ _ _ => .unexpectedElement
  | elementNotAllowed _ _ => .elementNotAllowed
  | textNotAllowed _ _ => .textNotAllowed
  | incompleteContent _ _ => .incompleteContent
  | invalidContent _ _ _ => .invalidValue
  | fixedContent _ _ | fixedAttribute _ _ => .fixedValueMismatch
  | undeclaredAttribute _ _ => .undeclaredAttribute
  | missingAttribute _ _ => .missingAttribute
  | invalidAttribute _ _ => .invalidAttributeValue
  | duplicateId _ => .duplicateId
  | danglingIdref _ => .danglingIdref
  | repeatedField _ _ => .fieldMultipleMatch
  | incompleteKey _ _ => .incompleteKey
  | duplicateKey _ _ _ => .duplicateKey
  | danglingKeyref _ _ _ => .danglingKeyref
  | stated kind _ => kind

/-- The report of a cause. -/
def Cause.message : Cause → String
  | otherRoot name expected => s!"root element '{name.text}' does not match '{expected}'"
  | undeclaredElement name => s!"element '{name.text}' is not declared"
  | unexpectedElement name parent expected =>
    s!"unexpected child element '{name.text}' in '{parent.text}'; " ++
      s!"expected {expectedText expected}"
  | elementNotAllowed parent category =>
    s!"element '{parent.text}' ({category.text}) does not allow child elements"
  | textNotAllowed element category =>
    s!"character data is not allowed in element '{element.text}' ({category.text})"
  | incompleteContent element expected =>
    s!"content of element '{element.text}' is incomplete; expected {expectedText expected}"
  | invalidContent element type fault =>
    s!"invalid value for element '{element.text}' of type '{type.text}': {fault.message}"
  | fixedContent element fixed => s!"value of element '{element.text}' must be '{fixed}'"
  | undeclaredAttribute attr element =>
    s!"attribute '{attr.text}' is not declared for element '{element.text}'"
  | missingAttribute attr element =>
    s!"required attribute '{attr.text}' of element '{element.text}' is missing"
  | invalidAttribute attr reason =>
    s!"invalid value for attribute '{attr.text}': {reason.message}"
  | fixedAttribute attr fixed =>
    s!"attribute '{attr.text}' must have the fixed value '{fixed}'"
  | duplicateId id => s!"ID '{id}' is already declared"
  | danglingIdref id => s!"IDREF '{id}' does not match any ID"
  | repeatedField field constraint =>
    s!"field {field} of identity constraint '{constraint.text}' matches more than one value"
  | incompleteKey missing constraint =>
    let fields := Text.joined ", " (missing.map toString)
    s!"missing value for field(s) {fields} of key '{constraint.text}'"
  | duplicateKey tuple kind constraint =>
    s!"duplicated value ({tupleText tuple}) for {kind.text} '{constraint.text}'"
  | danglingKeyref tuple constraint refer =>
    s!"value ({tupleText tuple}) of keyref '{constraint.text}' " ++
      s!"does not match any value of '{refer}'"
  | stated _ text => text

end Violation

/-- A place where a document does not follow its grammar. -/
structure Violation where
  /-- What is wrong. -/
  cause : Violation.Cause
  /-- The element, attribute or constraint in question. -/
  name? : Option Name := none
  /-- The value in question. -/
  value? : Option String := none
  /-- The path of the element. -/
  path? : Option String := none
  deriving Repr, Inhabited, DecidableEq

namespace Violation

/-- The kind of a violation. -/
def kind (v : Violation) : Kind := v.cause.kind

/-- The report of a violation. -/
def message (v : Violation) : String := v.cause.message

/-- The report with value and path. -/
def text (v : Violation) : String :=
  let value := match v.value? with
    | some value => s!"\n\nValue: {value}"
    | none => ""
  let path := match v.path? with
    | some path => s!"\n\nPath: {path}"
    | none => ""
  v.message ++ value ++ path

end Violation

end MarkupGrammar
