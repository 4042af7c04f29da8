import MarkupGrammar.Pattern.Reader
import MarkupGrammar.SimpleType.Builtin

/-! # Facets

What a type requires of its values beyond what its base requires. A facet is declared with literals
and compiled to one with values. A value must pass all facets; the patterns of a type count as one
facet, which a value passes if one of them matches its literal. -/

namespace MarkupGrammar

/-! ## Engines for patterns -/

/-- A pattern as an engine compiled it. -/
structure CompiledPattern where
  /-- The notation. -/
  source : String
  /-- Whether a literal matches as a whole. -/
  accepts : String → Bool

/-- What compiles the patterns of a grammar. -/
structure PatternEngine where
  /-- Compiles a notation, or says why it is wrong. -/
  compile : String → Except String CompiledPattern

/-- The engine for regular expressions. -/
def PatternEngine.regular : PatternEngine where
  compile source :=
    match Pattern.anchored source with
    | .ok a => .ok ⟨source, a.accepts⟩
    | .error fault => .error fault.message

/-- The engine for notations that stand for themselves, which may not be empty. -/
def PatternEngine.literal : PatternEngine where
  compile source := if source.isEmpty then .error "empty literal" else .ok ⟨source, (· == source)⟩

/-! ## Facets -/

/-- A facet as declared. -/
inductive FacetDraft where
  | enumeration (literals : List String)
  | pattern (source : String)
  | length (kind : LengthBound) (n : Nat)
  | bound (side : BoundSide) (literal : String)
  /-- Changes the treatment of white space; it counts for the facets after it, too. -/
  | spacing (spacing : Spacing)
  | assertion (expression : String)
  deriving DecidableEq, Repr, Inhabited

/-- A facet as compiled. -/
inductive Facet where
  | enumeration (values : List Value)
  | patterns (patterns : List CompiledPattern)
  | length (kind : LengthBound) (n : Nat)
  | bound (side : BoundSide) (value : Value)
  | assertion (expression : String)

namespace Facet

/-- Tests a value of the type `type`, given with its literal after the treatment of white space. -/
def check (type : Name) (ctx : ValueContext) (literal : String) (value : Value) :
    Facet → Except Value.Fault Unit
  | enumeration values =>
    if values.contains value then .ok () else .error (.notEnumerated literal type)
  | patterns ps =>
    if ps.any (·.accepts literal) then .ok () else .error (.noMatch literal (ps.map (·.source)))
  | length kind n =>
    if kind.admits n (value.length?.getD literal.length) then .ok ()
    else .error (.wrongLength literal kind n)
  | bound side limit =>
    if (value.compare? limit).any side.admits then .ok ()
    else .error (.outOfBounds literal side limit)
  | assertion expression =>
    match ctx.evaluate? with
    | none => .ok ()
    | some evaluate =>
      match evaluate ⟨expression, type, literal, [("value", value)]⟩ with
      | .ok true => .ok ()
      | .ok false => .error (.failedAssertion literal expression)
      | .error reason => .error (.unevaluated expression reason)

end Facet

end MarkupGrammar
