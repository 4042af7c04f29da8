import MarkupGrammar.Grammar
import MarkupGrammar.Violation

/-! # Walking through content

The structure of a document is checked along its start tags, pieces of text and end tags. For each
open element the walk keeps its *mode*, which tells what it is validated against, the state of its
content model, and its path. The path of the root is its local name behind a slash; the path of a
child continues that of its parent, with the number of the child among the children of its name,
which a counter of 32 bits gives.

A start tag that fails, because the elements nest too deeply, changes nothing. An end tag that fails
has closed the innermost element, if there was one. -/

namespace MarkupGrammar

/-- What an element is validated against. -/
inductive Mode where
  /-- The element declaration of a number. -/
  | declared (element : Nat)
  /-- Nothing; its children are validated if they are declared. -/
  | lax
  /-- Nothing, and the same holds for all that is in it. -/
  | skip
  deriving DecidableEq, Repr, Inhabited

/-- The number of the declaration. -/
def Mode.declaration? : Mode → Option Nat
  | declared element => some element
  | lax | skip => none

/-- An open element. -/
structure OpenElement where
  name : Name
  mode : Mode
  state : ModelState
  /-- The path. -/
  path : String
  /-- The text so far, for content that is a value. -/
  text : String := ""
  /-- The counters of the children so far, one for each name. -/
  children : List (Name × Nat) := []
  /-- Whether text has been reported where none is allowed. -/
  isTextReported : Bool := false
  deriving DecidableEq, Repr, Inhabited

/-- The open elements, innermost first. -/
structure ContentWalk where
  opened : List OpenElement := []
  deriving DecidableEq, Repr, Inhabited

namespace ContentWalk

/-- The number of open elements. -/
def depth (w : ContentWalk) : Nat := w.opened.length

/-- The path of the innermost element. -/
def path? (w : ContentWalk) : Option String := w.opened.head?.map (·.path)

/-! ## Start tags -/

/-- Counts one more of a name; the counter of a name that is not listed is zero. Gives the new
number, too. -/
def countUp (name : Name) : List (Name × Nat) → Nat × List (Name × Nat)
  | [] => (Counter.next 0, [(name, Counter.next 0)])
  | (n, count) :: rest =>
    if n = name then (Counter.next count, (n, Counter.next count) :: rest)
    else
      let (total, rest) := countUp name rest
      (total, (n, count) :: rest)

/-- An element that is not declared. -/
def undeclared (name : Name) (path : String) : Violation :=
  ⟨.undeclaredElement name, some name, none, some path⟩

/-- The mode of the root. -/
def rootMode (g : Grammar) (checksRoot : Bool) (name : Name) (path : String) :
    Mode × List Violation :=
  let mismatch := match g.description with
    | .documentType root =>
      if checksRoot && root != name.localPart then
        [⟨.otherRoot name root, some name, none, some path⟩]
      else []
    | .schema _ => []
  match g.globalElement name with
  | some element => (.declared element, mismatch)
  | none => (.lax, mismatch ++ [undeclared name path])

/-- The mode of a child that a wildcard stands for. In the grammar of a document type all such
children have to be declared. -/
def wildcardMode (g : Grammar) (p : Processing) (name : Name) (path : String) :
    Mode × List Violation :=
  let p : Processing := match g.kind with
    | .documentType => .strict
    | .schema => p
  match p, g.globalElement name with
  | .skip, _ => (.skip, [])
  | _, some element => (.declared element, [])
  | .lax, none => (.lax, [])
  | .strict, none => (.lax, [undeclared name path])

/-- The mode of a child whose name refers to the declaration `bound` in the content model. A child
that stands for another element goes by its own declaration, if there is one. -/
def boundMode (g : Grammar) (bound : Nat) (name : Name) : Mode :=
  if (g.elements[bound]?).any (·.name == name) then .declared bound
  else .declared ((g.globalElement name).getD bound)

/-- The mode that a child has by its name alone. -/
def modeByName (g : Grammar) (parent : ElementDeclaration) (name : Name) : Mode :=
  match g.resolveChild parent.childScope name with
  | some element => .declared element
  | none => .lax

/-- The mode of a child, from the answer of its parent's content model. -/
def answeredMode (g : Grammar) (parent : ElementDeclaration) (name : Name) (path : String) :
    Match → Mode × List Violation
  | .matched _ (some p) => wildcardMode g p name path
  | .matched (some bound) none => (boundMode g bound name, [])
  | .matched none none =>
    let mode := modeByName g parent name
    (mode, if mode = .lax then [undeclared name path] else [])
  | .unexpected expected =>
    (modeByName g parent name,
      [⟨.unexpectedElement name parent.name expected, some name, none, some path⟩])
  | .notAllowed =>
    (modeByName g parent name,
      [⟨.elementNotAllowed parent.name parent.content.category, some name, none, some path⟩])

/-- The declaration of a number. -/
def declaration (g : Grammar) (element : Nat) : Except Failure ElementDeclaration :=
  match g.elements[element]? with
  | some d => .ok d
  | none => .error (.defect (.noDeclaration element))

/-- Offers a child to the content model of its parent: gives the mode of the child and the state of
the parent after it. -/
def childMode (g : Grammar) (parent : OpenElement) (name : Name) (path : String) :
    Except Failure (Mode × ModelState × List Violation) :=
  match parent.mode with
  | .skip => .ok (.skip, parent.state, [])
  | .lax => .ok (((g.globalElement name).map .declared).getD .lax, parent.state, [])
  | .declared element => do
    let d ← declaration g element
    let (answer, state) := d.content.model.accept g.comparator parent.state name
    let (mode, violations) := answeredMode g d name path answer
    return (mode, state, violations)

/-- The state of an element's content before its first child. -/
def startState (g : Grammar) : Mode → Except Failure ModelState
  | .declared element => (·.content.model.start) <$> declaration g element
  | .lax | .skip => .ok .any

/-- What a start tag amounts to. -/
structure Start where
  mode : Mode
  path : String
  violations : List Violation := []
  /-- The walk after it. -/
  walk : ContentWalk
  deriving Repr, Inhabited

/-- Follows a start tag. -/
def start (g : Grammar) (limits : Limits) (checksRoot : Bool) (w : ContentWalk) (name : Name) :
    Except Failure Start := do
  (limits.check .depth (w.depth + 1)).mapError .limit
  match w.opened with
  | [] =>
    let path := "/" ++ name.localPart
    let (mode, violations) := rootMode g checksRoot name path
    let state ← startState g mode
    return { mode, path, violations, walk := ⟨[{ name, mode, state, path }]⟩ }
  | parent :: rest =>
    let (number, children) := countUp name parent.children
    let path := s!"{parent.path}/{name.localPart}[{number}]"
    let (mode, parentState, violations) ← childMode g parent name path
    let parent := { parent with state := parentState, children }
    let state ← startState g mode
    return { mode, path, violations, walk := ⟨{ name, mode, state, path } :: parent :: rest⟩ }

/-! ## Text -/

/-- Text in an element with the declaration `d`: kept where it is part of a value, and reported once
where it is not allowed. -/
def receive (d : ElementDeclaration) (e : OpenElement) (text : String) :
    OpenElement × List Violation :=
  let category := d.content.category
  if category = .simple then ({ e with text := e.text ++ text }, [])
  else if category.allowsText || e.isTextReported || text.toList.all Text.isMarkupBlank then (e, [])
  else ({ e with isTextReported := true },
    [⟨.textNotAllowed d.name category, some e.name, some (Text.trim text), some e.path⟩])

/-- Follows a piece of text. Text outside of elements does not count. -/
def characters (g : Grammar) (w : ContentWalk) (text : String) :
    Except Failure (ContentWalk × List Violation) :=
  match w.opened with
  | [] => .ok (w, [])
  | e :: rest =>
    match e.mode with
    | .lax | .skip => .ok (w, [])
    | .declared element => do
      let d ← declaration g element
      let (e, violations) := receive d e text
      return (⟨e :: rest⟩, violations)

/-! ## End tags -/

/-- Whether a value agrees with a fixed literal; if the literal is no value, the texts are compared
after the treatment of white space. -/
def agreesWithFixed (type : SimpleType) (ctx : ValueContext) (fixed text : String) (value : Value) :
    Bool :=
  match type.validate ctx fixed with
  | .ok expected => expected == value
  | .error _ => type.spacing.normalize fixed == type.spacing.normalize text

/-- Checks the text of an element whose content is a value. -/
def checkText (g : Grammar) (ctx : ValueContext) (d : ElementDeclaration) (e : OpenElement) :
    List Violation :=
  match d.type?.bind g.types.find? with
  | none => []
  | some type =>
    match type.validate ctx e.text with
    | .error fault =>
      [⟨.invalidContent d.name type.name fault, some e.name, some e.text, some e.path⟩]
    | .ok value =>
      match d.fixed? with
      | none => []
      | some fixed =>
        if agreesWithFixed type ctx fixed e.text value then []
        else [⟨.fixedContent d.name fixed, some e.name, some e.text, some e.path⟩]

/-- Checks the content of an element that ends. -/
def checkContent (g : Grammar) (ctx : ValueContext) (d : ElementDeclaration) (e : OpenElement) :
    List Violation :=
  let incomplete := match d.content.model.finish e.state with
    | .ok () => []
    | .error expected => [⟨.incompleteContent d.name expected, some e.name, none, some e.path⟩]
  incomplete ++ if d.content.category = .simple then checkText g ctx d e else []

/-- Closes an element by an end tag with the given name. -/
def close (g : Grammar) (ctx : ValueContext) (e : OpenElement) (name : Name) :
    Except Failure (List Violation) :=
  if e.name ≠ name then .error (.markup (.mismatched name e.name))
  else match e.mode with
    | .lax | .skip => .ok []
    | .declared element => do
      let d ← declaration g element
      return checkContent g ctx d e

/-- Follows an end tag. -/
def stop (g : Grammar) (ctx : ValueContext) (w : ContentWalk) (name : Name) :
    Except Failure (List Violation) × ContentWalk :=
  match w.opened with
  | [] => (.error (.markup (.unopened name)), w)
  | e :: rest => (close g ctx e name, ⟨rest⟩)

end ContentWalk

end MarkupGrammar
