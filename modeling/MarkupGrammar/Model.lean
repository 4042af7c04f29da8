import MarkupGrammar.Automaton

/-! # Content models

What is compiled from declared content, and how child elements are offered to it one by one. The
state of a model is what it remembers of the children before: nothing for text content and free
content, a state of the automaton for element content, and for an all-group how often each member
has occurred, in a counter of 32 bits. A state that does not belong to its model allows nothing. -/

namespace MarkupGrammar

/-- A member of an all-group. -/
structure AllMember where
  symbol : Symbol
  occurs : Occurs
  deriving DecidableEq, Repr, Inhabited

/-- An all-group: its members in any order, or, if it is emptiable, nothing. -/
structure AllGroup where
  members : List AllMember
  emptiable : Bool
  deriving DecidableEq, Repr, Inhabited

/-- A content model. -/
inductive Model where
  | empty
  | any
  /-- Text with elements that fit one of the symbols. -/
  | mixed (symbols : List Symbol)
  | children (automaton : Automaton)
  | all (group : AllGroup)
  /-- Text only. -/
  | simple
  deriving DecidableEq, Repr, Inhabited

/-- What a model remembers. -/
inductive ModelState where
  /-- The counter of the children. -/
  | empty (children : Nat)
  | any
  | mixed
  /-- The state of the automaton. -/
  | children (state : Nat)
  /-- The counter of each member. -/
  | all (counts : List Nat)
  | simple
  deriving DecidableEq, Repr, Inhabited

namespace AllGroup

/-- The members that may occur again, with their places. -/
def openMembers (g : AllGroup) (counts : List Nat) : List (AllMember × Nat) :=
  g.members.zipIdx.filter fun (m, i) => !m.occurs.isOver (counts.getD i 0)

/-- The members that have to occur again. -/
def missing (g : AllGroup) (counts : List Nat) : List Leaf :=
  ((g.members.zip counts).filter fun (m, n) => m.occurs.isMissing n).map (·.1.symbol.leaf)

/-- Offers a child. -/
def accept (g : AllGroup) (c : Option Comparator) (counts : List Nat) (name : Name) :
    Match × List Nat :=
  let candidates := g.openMembers counts
  match firstLeast? (fun (m, _) => m.symbol.rank? c name) candidates with
  | some (m, i) => (m.symbol.answer, counts.modify i Counter.next)
  | none => (.unexpected (candidates.map (·.1.symbol.leaf)), counts)

end AllGroup

namespace Model

/-- The state before the first child. -/
def start : Model → ModelState
  | empty => .empty 0
  | any => .any
  | mixed _ => .mixed
  | children _ => .children 0
  | all g => .all (g.members.map fun _ => 0)
  | simple => .simple

/-- Whether text other than white space may occur. -/
def allowsText : Model → Bool
  | any | mixed _ | simple => true
  | empty | children _ | all _ => false

/-- Offers a child. The answer comes with the state after it. -/
def accept (m : Model) (c : Option Comparator) (s : ModelState) (name : Name) :
    Match × ModelState :=
  match m, s with
  | empty, .empty n => (.notAllowed, .empty (Counter.next n))
  | simple, s => (.notAllowed, s)
  | any, s => (.matched none (some .lax), s)
  | mixed symbols, s =>
    match firstLeast? (Symbol.rank? c name) symbols with
    | some symbol => (symbol.answer, s)
    | none => (.unexpected (symbols.map (·.leaf)), s)
  | children a, .children state =>
    match a.step? c state name with
    | some (symbol, target) => (symbol.answer, .children target)
    | none => (.unexpected (a.expected state), .children state)
  | all g, .all counts =>
    let (answer, counts) := g.accept c counts name
    (answer, .all counts)
  | _, s => (.notAllowed, s)

/-- Whether the content may end; if not, the leaves that are expected. -/
def finish (m : Model) (s : ModelState) : Except (List Leaf) Unit :=
  match m, s with
  | children a, .children state =>
    if a.isAccepting state then .ok () else .error (a.expected state)
  | all g, .all counts =>
    if g.emptiable && counts.all (· == 0) then .ok ()
    else
      let missing := g.missing counts
      if missing.isEmpty then .ok () else .error missing
  | _, _ => .ok ()

/-- Lets the names of the symbols refer to declarations. -/
def bind (resolve : Name → Option Nat) : Model → Model
  | mixed symbols => mixed (symbols.map (Symbol.bind resolve))
  | children a => children (a.bind resolve)
  | all g =>
    all { g with members := g.members.map fun m => { m with symbol := m.symbol.bind resolve } }
  | m => m

end Model

end MarkupGrammar
