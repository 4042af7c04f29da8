import MarkupGrammar.Expression
import MarkupGrammar.NumberSet

/-! # Positions of expressions

The *positions* of an expression are its leaves, numbered in order. A survey of an expression finds
whether it is nullable, which positions can be first and last, and which positions can follow each
position.

The facts about a node are recorded when its parts have been surveyed, and taken out when the node
that it is a part of needs them. A node that is a part twice is surveyed twice; if the record that
is needed has been taken out already, there is no survey. -/

namespace MarkupGrammar

/-- A leaf at its place in an expression. -/
structure Position where
  leaf : Leaf
  /-- The particle that the leaf comes from. -/
  particle : Nat
  deriving DecidableEq, Repr, Inhabited

/-- What is known about a surveyed node. -/
structure Facts where
  /-- Whether the empty word satisfies it. -/
  nullable : Bool := false
  /-- The positions that a word can begin with. -/
  first : NumberSet := .empty
  /-- The positions that a word can end with. -/
  last : NumberSet := .empty
  deriving DecidableEq, Repr, Inhabited

/-- The state of a survey. -/
structure Survey where
  positions : Array Position := #[]
  /-- The positions that can follow each position. -/
  follow : Array NumberSet := #[]
  /-- The records, the latest first. -/
  records : List (Nat × Facts) := []
  deriving Repr, Inhabited

namespace Survey

/-- Surveying. -/
abbrev M := StateT Survey (Except Defect)

/-- Records facts, in place of earlier ones about the node. -/
def record (i : Nat) (f : Facts) : M Unit :=
  modify fun s => { s with records := (i, f) :: s.records.filter (·.1 != i) }

/-- Takes out the facts about a node. -/
def take (i : Nat) : M Facts := do
  match (← get).records.lookup i with
  | some f =>
    modify fun s => { s with records := s.records.filter (·.1 != i) }
    return f
  | none => throw (.shared i)

/-- Lets each position of `before` be followed by those of `after`. -/
def link (before after : NumberSet) : M Unit :=
  modify fun s =>
    { s with
      follow := before.toList.foldl (fun follow p => follow.modify p (·.union after)) s.follow }

/-- Adds a position. -/
def place (p : Position) : M Nat :=
  modifyGet fun s =>
    (s.positions.size, { s with positions := s.positions.push p, follow := s.follow.push .empty })

/-- The facts about a node, from the records of its parts. -/
def factsOf : Expression → M Facts
  | .empty => return { nullable := true }
  | .leaf l particle => do
    let p ← place ⟨l, particle⟩
    return { first := .single p, last := .single p }
  | .choice a b => do
    let fa ← take a
    let fb ← take b
    return ⟨fa.nullable || fb.nullable, fa.first.union fb.first, fa.last.union fb.last⟩
  | .sequence a b => do
    let fa ← take a
    let fb ← take b
    link fa.last fb.first
    return {
      nullable := fa.nullable && fb.nullable
      first := if fa.nullable then fa.first.union fb.first else fa.first
      last := if fb.nullable then fa.last.union fb.last else fb.last }
  | .optional a => do
    let f ← take a
    return { f with nullable := true }
  | .zeroOrMore a => do
    let f ← take a
    link f.last f.first
    return { f with nullable := true }
  | .oneOrMore a => do
    let f ← take a
    link f.last f.first
    return f

/-- Surveys a node after its parts. Every level uses up one unit of fuel. -/
def visit (t : ExpressionTable) : (fuel : Nat) → (i : Nat) → M Unit
  | 0, _ => throw .cyclic
  | fuel + 1, i => do
    let e ← t.get i
    e.parts.forM (visit t fuel)
    record i (← factsOf e)

/-- The facts about an expression, and the survey with its positions. -/
def run (t : ExpressionTable) (root : Nat) : Except Defect (Facts × Survey) :=
  (do visit t (t.size + 1) root; take root : M Facts).run {}

end Survey

end MarkupGrammar
