/-! # Limits

Bounds on what a grammar may compile to and on how deep a document may nest. A quantity may reach
its maximum; an `Excess` is a quantity above it. -/

namespace MarkupGrammar

/-- The maxima in force. -/
structure Limits where
  /-- Open elements in a document. -/
  maxDepth : Nat := 1000
  /-- Members of an all-group that is written out as its orderings. -/
  maxAllMembers : Nat := 8
  /-- Nodes of the table of content expressions. -/
  maxNodes : Nat := 100000
  /-- States of one automaton. -/
  maxStates : Nat := 10000
  /-- An occurrence bound that is expanded into copies. -/
  maxOccurs : Nat := 1000
  deriving DecidableEq, Repr, Inhabited

namespace Limits

/-- Limits for grammars from untrusted sources. -/
def strict : Limits := ⟨100, 5, 10000, 1000, 100⟩

/-- Limits for large trusted grammars. -/
def permissive : Limits := ⟨10000, 10, 10000000, 1000000, 100000⟩

/-- The quantities that are limited. -/
inductive Quantity where
  | depth
  | allMembers
  | nodes
  | states
  | occurs
  deriving DecidableEq, Repr, Inhabited

/-- The maximum of a quantity. -/
def maximum (l : Limits) : Quantity → Nat
  | .depth => l.maxDepth
  | .allMembers => l.maxAllMembers
  | .nodes => l.maxNodes
  | .states => l.maxStates
  | .occurs => l.maxOccurs

/-- A quantity that was found above its maximum. -/
structure Excess where
  /-- What is too large. -/
  quantity : Quantity
  /-- Its size. -/
  found : Nat
  /-- The size allowed. -/
  maximum : Nat
  deriving DecidableEq, Repr, Inhabited

/-- The report of an excess. -/
def Excess.message (e : Excess) : String :=
  match e.quantity with
  | .depth => s!"element depth {e.found} exceeds maximum {e.maximum}"
  | .allMembers =>
    s!"all group with {e.found} particles exceeds permutation maximum {e.maximum}"
  | .nodes => s!"content spec with {e.found} nodes exceeds maximum {e.maximum}"
  | .states => s!"content model automaton with {e.found} states exceeds maximum {e.maximum}"
  | .occurs => s!"occurrence bound {e.found} exceeds maximum {e.maximum}"

/-- Accepts a quantity up to its maximum. -/
def check (l : Limits) (q : Quantity) (found : Nat) : Except Excess Unit :=
  if found > l.maximum q then .error ⟨q, found, l.maximum q⟩ else .ok ()

end Limits

end MarkupGrammar
