import MarkupGrammar.Name
import MarkupGrammar.Name.Lexical
import MarkupGrammar.Path

/-! # Reading location paths

Paths are written in the abbreviated or the unabbreviated notation of steps, with a bar between the
members of a union and blanks around anything. A path that may begin at any descendant begins with
`.//`; no other step skips levels. Steps that stay at the element count for nothing. Of several
faults the leftmost is reported. -/

namespace MarkupGrammar

namespace PathExpression

/-- Why a text is no expression. -/
inductive Fault where
  | empty
  | emptyStep (path : String)
  | unsupportedAxis (axis : String)
  | invalidNameTest (test : String)
  | misplacedAttribute (path : String)
  | attributeInSelector (path : String)
  | misplacedDescendant (path : String)
  | unbound (u : UnboundPrefix)
  deriving DecidableEq, Repr, Inhabited

/-- The report of a fault. -/
def Fault.message : Fault → String
  | empty => "empty XPath expression"
  | emptyStep path => s!"empty step in '{path}'"
  | unsupportedAxis axis => s!"unsupported axis '{axis}'"
  | invalidNameTest test => s!"invalid name test '{test}'"
  | misplacedAttribute path => s!"attribute step must be the last step: '{path}'"
  | attributeInSelector path => s!"attribute steps are not allowed in selectors: '{path}'"
  | misplacedDescendant path => s!"'//' is only allowed at the start of a path: '{path}'"
  | unbound u => u.message

/-- What an expression is for. -/
inductive Role where
  /-- It selects elements. -/
  | selector
  /-- It selects elements or attributes. -/
  | field
  deriving DecidableEq, Repr, Inhabited

/-- The namespace of a prefix. -/
def spaceOf (b : Bindings) (label : List Char) : Except Fault String :=
  match b.space? (String.ofList label) with
  | some space => .ok space
  | none => .error (.unbound ⟨String.ofList label⟩)

/-- The part of a text before an ending. -/
def before? (ending s : List Char) : Option (List Char) :=
  (Text.after? ending.reverse s.reverse).map List.reverse

/-- Reads a name test. The default namespace is for elements only. -/
def readTest (b : Bindings) (isAttribute : Bool) (s : List Char) : Except Fault NameTest :=
  let invalid : Except Fault NameTest := .error (.invalidNameTest (String.ofList s))
  if s = ['*'] then .ok .any
  else match before? [':', '*'] s with
    | some label =>
      if Lexical.isUncolonized label then (spaceOf b label).map .space else invalid
    | none =>
      if !Lexical.isQualified s then invalid
      else match Text.cut ':' s with
        | some (label, localPart) =>
          (spaceOf b label).map fun space => .name (.qualified space (String.ofList localPart))
        | none =>
          .ok (.name ⟨if isAttribute then none else b.unprefixed, String.ofList s⟩)

/-- The name after the mark of an attribute step. -/
def attributeName? (s : List Char) : Option (List Char) :=
  match s with
  | '@' :: name => some name
  | s => Text.after? "attribute::".toList s

/-- Reads the steps of a path. `whole` is the path as written, `rest` its part that the steps are
taken from; `isFirst` tells whether no step has been read, and `path` what has been read. -/
def readSteps (b : Bindings) (role : Role) (whole : String) (rest : List Char) :
    (isFirst : Bool) → (path : LocationPath) → List (List Char) → Except Fault LocationPath
  | _, path, [] => .ok path
  | isFirst, path, s :: steps =>
    if s.isEmpty then
      let skipsLevels :=
        (Text.cutAt ['/', '/'] rest).isSome || (isFirst && rest.head? == some '/')
      .error (if skipsLevels then .misplacedDescendant whole else .emptyStep whole)
    else if s = ['.'] ∨ s = "self::node()".toList then
      readSteps b role whole rest false path steps
    else match attributeName? s with
      | some name =>
        if role = .selector then .error (.attributeInSelector whole)
        else if !steps.isEmpty then .error (.misplacedAttribute whole)
        else match readTest b true (Text.trimBlanks name) with
          | .ok test => .ok { path with attribute? := some test }
          | .error e => .error e
      | none =>
        let name := Text.trimBlanks ((Text.after? "child::".toList s).getD s)
        match Text.cutAt [':', ':'] name with
        | some (axis, _) => .error (.unsupportedAxis (String.ofList axis))
        | none =>
          match readTest b false name with
          | .ok test =>
            readSteps b role whole rest false { path with steps := path.steps ++ [test] } steps
          | .error e => .error e

/-- Reads one path. -/
def readPath (b : Bindings) (role : Role) (member : List Char) : Except Fault LocationPath :=
  let whole := Text.trimBlanks member
  if whole.isEmpty then .error .empty
  else
    let (descendant, rest) := match Text.after? ['.', '/', '/'] whole with
      | some rest => (true, Text.dropBlanks rest)
      | none => (false, whole)
    let steps := (Text.pieces (· == '/') rest).map Text.trimBlanks
    readSteps b role (String.ofList whole) rest true { descendant } steps

/-- Reads an expression. -/
def read (b : Bindings) (role : Role) (source : String) : Except Fault PathExpression :=
  if (Text.trimBlanks source.toList).isEmpty then .error .empty
  else
    ((Text.pieces (· == '|') source.toList).mapM (readPath b role)).map fun paths =>
      ⟨source, paths⟩

end PathExpression

end MarkupGrammar
