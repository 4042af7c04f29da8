import MarkupGrammar.Name

/-! # Location paths

The paths that select the elements and the fields of an identity constraint. A path starts at a
context element and goes from children to children, each passing a name test; it may begin anywhere
below the context, and it may end in an attribute. An expression is a union of paths. -/

namespace MarkupGrammar

/-- A test on names. -/
inductive NameTest where
  /-- One name. -/
  | name (n : Name)
  /-- All names. -/
  | any
  /-- The names of a namespace. -/
  | space (space : String)
  deriving DecidableEq, Repr, Inhabited

namespace NameTest

/-- Whether a name passes. -/
def accepts : NameTest → Name → Bool
  | name expected, n => expected == n
  | any, _ => true
  | space s, n => n.isIn (some s)

/-- The written form. -/
def text : NameTest → String
  | name n => n.text
  | any => "*"
  | space s => Text.braced s ++ "*"

end NameTest

/-- A location path. -/
structure LocationPath where
  /-- Whether the path may begin at any descendant of the context, too. -/
  descendant : Bool := false
  /-- The tests on the children, one below the other. -/
  steps : List NameTest := []
  /-- The test on an attribute of the last element. -/
  attribute? : Option NameTest := none
  deriving DecidableEq, Repr, Inhabited

/-- The written form; a path without steps selects the context, a full stop. -/
def LocationPath.text (p : LocationPath) : String :=
  let last := match p.attribute? with
    | some test => ["@" ++ test.text]
    | none => []
  let steps := p.steps.map NameTest.text ++ last
  (if p.descendant then ".//" else "./") ++
    Text.joined "/" (if steps.isEmpty then ["."] else steps)

/-- A union of location paths. -/
structure PathExpression where
  /-- The expression as written. -/
  source : String
  /-- The paths. -/
  paths : List LocationPath
  deriving Repr, Inhabited

/-- The written form. -/
def PathExpression.text (e : PathExpression) : String := e.source

/-- Whether two expressions select the same by having the same paths. -/
def PathExpression.agrees (a b : PathExpression) : Bool := a.paths == b.paths

end MarkupGrammar
