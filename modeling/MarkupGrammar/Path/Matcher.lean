import MarkupGrammar.Path

/-! # Matching location paths on a stream

A matcher follows an expression through the start and end tags of a document. The first element that
it sees is the context. For each path it keeps the *positions* that have been reached at the open
element: how many steps lead to it. Where a path has reached no position, the elements below cannot
match, and only their number is kept (`Walk.skipped`).

On a start tag the matcher tells whether the element, or one of its attributes, is selected, and
delivers the attribute; on an end tag it delivers a selected element, with its text if text is
collected. -/

namespace MarkupGrammar

/-- An attribute as a matcher sees it. -/
structure TypedAttribute where
  name : Name
  value : String
  /-- The type of the value, if it is known. -/
  type? : Option Name
  deriving DecidableEq, Repr, Inhabited

/-- A start tag as a matcher sees it. -/
structure TagEvent where
  name : Name
  attributes : List TypedAttribute := []
  /-- The type of the element's text, if it is known. -/
  type? : Option Name := none
  deriving DecidableEq, Repr, Inhabited

/-- A selected element or attribute. -/
structure Selected where
  isAttribute : Bool
  name : Name
  value : String
  type? : Option Name
  deriving DecidableEq, Repr, Inhabited

/-! ## One path -/

namespace LocationPath

/-- The open elements of one path. -/
structure Walk where
  /-- The positions reached at the innermost element. -/
  positions : List Nat := []
  /-- For each open element, innermost first, the positions at its parent and whether the path
  selects it. -/
  opened : List (List Nat × Bool) := []
  /-- The number of open elements below an element where no position was reached. -/
  skipped : Nat := 0
  deriving DecidableEq, Repr, Inhabited

/-- What a path selects at a start tag. -/
inductive Hit where
  | nothing
  | element
  | attr (a : TypedAttribute)
  deriving DecidableEq, Repr, Inhabited

/-- The positions at an element, from those at its parent. -/
def reach (p : LocationPath) (isContext : Bool) (positions : List Nat) (name : Name) : List Nat :=
  let reached :=
    if isContext then [0]
    else (positions.filter fun i => (p.steps[i]?).any (·.accepts name)).map (· + 1)
  if p.descendant && !reached.contains 0 then reached ++ [0] else reached

/-- What the path selects at an element where all its steps have been made. -/
def hit (p : LocationPath) (e : TagEvent) : Hit :=
  match p.attribute? with
  | none => .element
  | some test =>
    match e.attributes.find? fun a => test.accepts a.name with
    | some a => .attr a
    | none => .nothing

/-- Follows a start tag. -/
def Walk.start (w : Walk) (p : LocationPath) (e : TagEvent) (isContext : Bool) : Hit × Walk :=
  if w.skipped > 0 then (.nothing, { w with skipped := w.skipped + 1 })
  else
    let reached := p.reach isContext w.positions e.name
    if reached.isEmpty then (.nothing, { w with skipped := 1 })
    else
      let hit := if reached.contains p.steps.length then p.hit e else .nothing
      (hit, { w with positions := reached, opened := (w.positions, hit == .element) :: w.opened })

/-- Follows an end tag; tells whether the path selects the element. -/
def Walk.stop (w : Walk) : Bool × Walk :=
  if w.skipped > 0 then (false, { w with skipped := w.skipped - 1 })
  else match w.opened with
    | (positions, isHit) :: rest => (isHit, { w with positions, opened := rest })
    | [] => (false, w)

end LocationPath

/-! ## Expressions -/

/-- An open element of a matcher. -/
structure MatcherFrame where
  name : Name
  type? : Option Name
  /-- The text so far, if it is collected. -/
  text? : Option String
  deriving DecidableEq, Repr, Inhabited

/-- A matcher. -/
structure Matcher where
  /-- The paths and where they are. -/
  walks : List (LocationPath × LocationPath.Walk)
  /-- The open elements, innermost first. -/
  frames : List MatcherFrame := []
  /-- Whether the text of selected elements is collected. -/
  collectsText : Bool := false
  deriving Repr, Inhabited

namespace Matcher

/-- The matcher of an expression, before the context. -/
def ofExpression (e : PathExpression) (collectsText : Bool) : Matcher :=
  { walks := e.paths.map (·, {}), collectsText }

/-- The matcher before the context. -/
def clear (m : Matcher) : Matcher :=
  { m with walks := m.walks.map fun (p, _) => (p, {}), frames := [] }

/-- The number of open elements. -/
def depth (m : Matcher) : Nat := m.frames.length

/-- What a matcher tells about a start tag. -/
structure Start where
  /-- Whether the element or an attribute of it is selected. -/
  matched : Bool
  /-- The selected attribute, of the first path that selects one. -/
  captured : Option Selected
  deriving DecidableEq, Repr, Inhabited

/-- Follows a start tag. -/
def start (m : Matcher) (e : TagEvent) : Start × Matcher :=
  let isContext := m.frames.isEmpty
  let followed := m.walks.map fun (p, w) => (p, w.start p e isContext)
  let hits := followed.map fun (_, hit, _) => hit
  let isElement := hits.any (· == .element)
  let captured := hits.findSome? fun
    | .attr a => some ⟨true, a.name, a.value, a.type?⟩
    | _ => none
  let text? := if m.collectsText && isElement then some "" else none
  (⟨isElement || captured.isSome, captured⟩,
    { m with
      walks := followed.map fun (p, _, w) => (p, w)
      frames := ⟨e.name, e.type?, text?⟩ :: m.frames })

/-- Follows a piece of text. -/
def characters (m : Matcher) (text : String) : Matcher :=
  { m with frames := m.frames.map fun f => { f with text? := f.text?.map (· ++ text) } }

/-- Follows an end tag; delivers the element if it is selected. -/
def stop (m : Matcher) : Option Selected × Matcher :=
  let followed := m.walks.map fun (p, w) => (p, w.stop)
  let isElement := followed.any fun (_, isHit, _) => isHit
  let walks := followed.map fun (p, _, w) => (p, w)
  match m.frames with
  | [] => (none, { m with walks })
  | f :: frames =>
    (if isElement then some ⟨false, f.name, f.text?.getD "", f.type?⟩ else none,
      { m with walks, frames })

end Matcher

end MarkupGrammar
