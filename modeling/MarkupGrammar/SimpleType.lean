import MarkupGrammar.SimpleType.Facet

/-! # Simple types

A simple type is a built-in one, or is derived from another type, its *base*: as a restriction,
whose values are values of the base, or as a list, whose values are lists of them. Derivation adds
facets and may change the treatment of white space.

A literal of a derived type is treated, read by the base, word by word for lists, and tested against
the facets in their order. -/

namespace MarkupGrammar

/-- The two kinds of derivation. -/
inductive Variety where
  | restriction
  | list
  deriving DecidableEq, Repr, Inhabited

/-- A derived type, its base given by name. -/
structure Definition where
  name : Name
  base : Name
  variety : Variety
  spacing : Spacing
  facets : List Facet

/-- The values of the first enumeration. -/
def Definition.enumeration? (d : Definition) : Option (List Value) :=
  d.facets.findSome? fun
    | .enumeration values => some values
    | _ => none

/-- A simple type with all types that it is derived from. -/
inductive SimpleType where
  | builtin (b : Builtin)
  | derived (d : Definition) (base : SimpleType)
  /-- A derived type whose base is not known. -/
  | orphan (d : Definition)

namespace SimpleType

/-- The expanded name. -/
def name : SimpleType → Name
  | builtin b => b.expandedName
  | derived d _ => d.name
  | orphan d => d.name

/-- The treatment of white space. -/
def spacing : SimpleType → Spacing
  | builtin b => b.spacing
  | derived d _ => d.spacing
  | orphan d => d.spacing

/-- The built-in type that a type is derived from in the end. -/
def root? : SimpleType → Option Builtin
  | builtin b => some b
  | derived _ base => base.root?
  | orphan _ => none

/-- Reads a treated literal by the base: as a whole, or word by word. -/
def readByBase (readBase : String → Except Value.Fault Value) (variety : Variety)
    (literal : String) : Except Value.Fault Value :=
  match variety with
  | .restriction => readBase literal
  | .list => (((Text.words literal).mapM readBase)).map .list

/-- The value of a literal. -/
def validate (ctx : ValueContext) : SimpleType → String → Except Value.Fault Value
  | builtin b, s => b.validate ctx s
  | derived d base, s => do
    let literal := d.spacing.normalize s
    let value ← readByBase (validate ctx base) d.variety literal
    d.facets.forM (Facet.check d.name ctx literal value)
    return value
  | orphan d, _ => .error (.unknownBase d.base d.name)

end SimpleType

/-! ## Compiling definitions -/

/-- A derived type as declared. -/
structure TypeDraft where
  name : Name
  base : Name
  variety : Variety := .restriction
  facets : List FacetDraft := []
  deriving DecidableEq, Repr, Inhabited

namespace TypeDraft

/-- What is wrong with a declared facet. -/
inductive Fault where
  /-- A literal is no value. -/
  | invalidLiteral (literal : String) (fault : Value.Fault)
  /-- A pattern does not compile. -/
  | invalidPattern (source reason : String)
  deriving Repr, Inhabited, DecidableEq

/-- The report of a fault. -/
def Fault.message : Fault → String
  | invalidLiteral literal fault => s!"invalid bound '{literal}': {fault.message}"
  | invalidPattern source reason => s!"invalid pattern '{source}': {reason}"

/-- What has been compiled of a list of facets. -/
structure Progress where
  /-- The treatment of white space so far. -/
  spacing : Spacing
  /-- The facets other than patterns. -/
  facets : List Facet := []
  /-- The patterns. -/
  patterns : List CompiledPattern := []

/-- Compiles one facet. -/
def Progress.add (engine : PatternEngine) (read : Spacing → String → Except Fault Value)
    (p : Progress) : FacetDraft → Except Fault Progress
  | .spacing spacing => .ok { p with spacing }
  | .pattern source =>
    match engine.compile source with
    | .ok compiled => .ok { p with patterns := p.patterns ++ [compiled] }
    | .error reason => .error (.invalidPattern source reason)
  | .enumeration literals => do
    let values ← literals.mapM (read p.spacing)
    return { p with facets := p.facets ++ [.enumeration values] }
  | .bound side literal => do
    let value ← read p.spacing literal
    return { p with facets := p.facets ++ [.bound side value] }
  | .length kind n => .ok { p with facets := p.facets ++ [.length kind n] }
  | .assertion expression => .ok { p with facets := p.facets ++ [.assertion expression] }

/-- Compiles a declared type over its base. Literals are read by the base after the treatment of
white space that is in force where they stand; the patterns come last. -/
def compile (t : TypeDraft) (base : SimpleType) (engine : PatternEngine) (ctx : ValueContext) :
    Except Fault Definition := do
  let spacing := match t.variety with
    | .restriction => base.spacing
    | .list => .collapse
  let read (spacing : Spacing) (literal : String) : Except Fault Value :=
    (SimpleType.readByBase (base.validate ctx) t.variety (spacing.normalize literal)).mapError
      (.invalidLiteral literal)
  let p ← t.facets.foldlM (Progress.add engine read) { spacing }
  let patterns := if p.patterns.isEmpty then [] else [Facet.patterns p.patterns]
  return ⟨t.name, t.base, t.variety, p.spacing, p.facets ++ patterns⟩

end TypeDraft

end MarkupGrammar
