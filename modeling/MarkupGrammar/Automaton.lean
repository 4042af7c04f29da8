import MarkupGrammar.Overlap

/-! # Automata over symbols

A content model offers *symbols* to a child element: leaves, each with the declaration that its name
refers to. A symbol that names the element is preferred to one that the element may stand for, and
that one to a wildcard; of equally good symbols the first is taken.

A deterministic automaton over symbols has states that list their transitions, each a symbol and a
state, both by number; the transition taken for a name is the one whose symbol fits best. -/

namespace MarkupGrammar

/-! ## Symbols and matches -/

/-- A leaf of a content model. -/
structure Symbol where
  leaf : Leaf
  /-- The number of the element declaration that the leaf refers to, if there is one. -/
  decl? : Option Nat := none
  deriving DecidableEq, Repr, Inhabited

/-- The answer of a content model to a child element. -/
inductive Match where
  /-- The element is allowed, by a declaration or by a wildcard, or by a name without
  declaration. -/
  | matched (decl? : Option Nat) (wildcard? : Option Processing)
  /-- The element is not allowed here; the leaves would be. -/
  | unexpected (expected : List Leaf)
  /-- There are no child elements in such content. -/
  | notAllowed
  deriving DecidableEq, Repr, Inhabited

namespace Symbol

/-- How well a symbol fits a name, less being better; nothing if it does not fit. -/
def rank? (c : Option Comparator) (name : Name) (s : Symbol) : Option Nat :=
  match s.leaf with
  | .element n =>
    if n = name then some 0 else if Comparator.isRelated c n name then some 1 else none
  | .wildcard w => if w.allows name then some 2 else none

/-- The answer if the symbol is taken. -/
def answer (s : Symbol) : Match :=
  match s.leaf with
  | .element _ => .matched s.decl? none
  | .wildcard w => .matched none (some w.processing)

/-- The symbol with its name referring to the declaration that `resolve` finds. -/
def bind (resolve : Name → Option Nat) (s : Symbol) : Symbol :=
  match s.leaf with
  | .element n => { s with decl? := resolve n }
  | .wildcard _ => s

/-- The symbols of leaves, repeated leaves left out. -/
def ofLeaves (ls : List Leaf) : List Symbol :=
  (ls.foldl (fun seen l => if seen.contains l then seen else seen ++ [l]) []).map (⟨·, none⟩)

end Symbol

/-- The first of the elements with the least rank among those that have one. -/
def firstLeast? {α : Type} (rank? : α → Option Nat) : List α → Option α
  | [] => none
  | x :: xs =>
    match rank? x, firstLeast? rank? xs with
    | none, best => best
    | some _, none => some x
    | some r, some y => if (rank? y).any (· < r) then some y else some x

/-! ## Automata -/

/-- A state of an automaton. -/
structure AutomatonState where
  /-- Pairs of a symbol and the state that it leads to. -/
  transitions : List (Nat × Nat)
  /-- Whether the content may end here. -/
  accepting : Bool
  deriving DecidableEq, Repr, Inhabited

/-- An automaton; it starts in state zero. -/
structure Automaton where
  symbols : Array Symbol
  states : Array AutomatonState
  deriving DecidableEq, Repr, Inhabited

namespace Automaton

/-- The transitions from a state, with their symbols. -/
def choices (a : Automaton) (state : Nat) : List (Symbol × Nat) :=
  match a.states[state]? with
  | some s => s.transitions.filterMap fun (symbol, target) => (a.symbols[symbol]?).map (·, target)
  | none => []

/-- The transition for a name. -/
def step? (a : Automaton) (c : Option Comparator) (state : Nat) (name : Name) :
    Option (Symbol × Nat) :=
  firstLeast? (fun (s, _) => s.rank? c name) (a.choices state)

/-- Whether the content may end in a state. -/
def isAccepting (a : Automaton) (state : Nat) : Bool := (a.states[state]?).any (·.accepting)

/-- The leaves that lead on from a state. -/
def expected (a : Automaton) (state : Nat) : List Leaf := (a.choices state).map (·.1.leaf)

/-- Lets the names of the symbols refer to declarations. -/
def bind (resolve : Name → Option Nat) (a : Automaton) : Automaton :=
  { a with symbols := a.symbols.map (Symbol.bind resolve) }

end Automaton

end MarkupGrammar
