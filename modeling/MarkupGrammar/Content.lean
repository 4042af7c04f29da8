import MarkupGrammar.Automaton.Construction
import MarkupGrammar.Lowering
import MarkupGrammar.Model

/-! # Declared content

The content that an element is declared with, and its compilation to a content model. Element
content becomes an automaton, or an all-group if its particle is one; the particle of mixed content
is compiled in the same way, so that its faults are found, but the model only keeps its leaves.

An all-group has leaves with basic occurrence ranges as members, none of which overlap, and occurs
once or is optional. -/

namespace MarkupGrammar

/-- Content as declared. -/
inductive ContentDraft where
  | empty
  | any
  /-- Text with elements of the given names. -/
  | mixedSimple (names : List Name)
  /-- Text with the elements of a particle, or text alone. -/
  | mixedComplex (particle? : Option Particle)
  /-- Elements that satisfy a particle. -/
  | children (particle : Particle)
  /-- Text that is a value of a type. -/
  | simple (type : Name)
  deriving Repr, Inhabited

/-- Content as compiled. -/
structure Content where
  category : Category := .empty
  model : Model := .empty
  /-- The number of the expression that the model was compiled from. -/
  expression? : Option Nat := none
  deriving DecidableEq, Repr, Inhabited

/-! ## All-groups -/

namespace AllGroup

/-- Adds a member to those before it. -/
def addMember (c : Option Comparator) (members : List AllMember) (p : Particle) :
    Except Fault.Cause (List AllMember) :=
  match p with
  | .group _ _ _ => .error .groupInAll
  | .leaf l o => do
    o.check.mapError .occurs
    if !o.isBasic then throw (.allMember o l)
    match members.find? fun m => m.symbol.leaf.overlaps c l with
    | some other => throw (.ambiguousAll other.symbol.leaf l)
    | none => return members ++ [⟨⟨l, none⟩, o⟩]

/-- The all-group of a particle. -/
def ofParticle (c : Option Comparator) (p : Particle) : Except Fault.Cause AllGroup :=
  match p with
  | .group .all ms o => do
    if 1 < o.min || o.max != some 1 then throw (.repeatedAll o)
    return ⟨← ms.foldlM (addMember c) [], o.min == 0⟩
  | _ => .error .notAll

end AllGroup

/-! ## Compilation -/

namespace ContentDraft

/-- The names that stand in a list before, in order. -/
def firstRepeated? (seen : List Name) : List Name → Option Name
  | [] => none
  | n :: ns => if seen.contains n then some n else firstRepeated? (n :: seen) ns

/-- Compiles a particle to a model for elements only, and the expression that it comes from. -/
def compileParticle (c : Option Comparator) (limits : Limits) (p : Particle) :
    LoweringM (Model × Option Nat) := do
  if p.isAll then
    match AllGroup.ofParticle c p with
    | .ok g => return (.all g, none)
    | .error cause => throw (.ofCause cause)
  else
    let root ← Lowering.root limits p
    match (← get).table.automaton c limits root with
    | .ok a => return (.children a, some root)
    | .error e => throw e

/-- Compiles content. -/
def compile (c : Option Comparator) (limits : Limits) : ContentDraft → LoweringM Content
  | empty => return {}
  | any => return { category := .any, model := .any }
  | simple _ => return { category := .simple, model := .simple }
  | mixedSimple names =>
    match firstRepeated? [] names with
    | some n => throw (.ofCause (.duplicateMixed n))
    | none =>
      return { category := .mixedSimple, model := .mixed (Symbol.ofLeaves (names.map .element)) }
  | mixedComplex none => return { category := .mixedComplex, model := .mixed [] }
  | mixedComplex (some p) => do
    let (_, expression?) ← compileParticle c limits p
    return { category := .mixedComplex, model := .mixed (Symbol.ofLeaves p.leaves), expression? }
  | children p => do
    let (model, expression?) ← compileParticle c limits p
    return { category := .children, model, expression? }

end ContentDraft

end MarkupGrammar
