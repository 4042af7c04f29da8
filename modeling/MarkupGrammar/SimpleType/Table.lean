import MarkupGrammar.Fault

/-! # Tables of simple types

The types that a grammar knows: those it declares, in the order of declaration, and the built-in
ones. A declared type has another name than the built-in types and the types before it, and its base
is one of them. -/

namespace MarkupGrammar

/-! ## Types that are known -/

/-- The declared types, by name. -/
structure TypeTable where
  derived : List (Name × SimpleType) := []

namespace TypeTable

/-- The number of declared types. -/
def size (t : TypeTable) : Nat := t.derived.length

/-- The type of a name. -/
def find? (t : TypeTable) (n : Name) : Option SimpleType :=
  match t.derived.lookup n with
  | some type => some type
  | none => (Builtin.ofName? n).map .builtin

/-- Whether there is a type of that name. -/
def contains (t : TypeTable) (n : Name) : Bool := (t.find? n).isSome

/-- The built-in type that the type of a name is derived from in the end. -/
def root? (t : TypeTable) (n : Name) : Option Builtin := (t.find? n).bind SimpleType.root?

/-! ## Declarations -/

/-- The table with one more type. -/
def declare (engine : PatternEngine) (t : TypeTable) (d : TypeDraft) :
    Except Fault.Cause TypeTable :=
  if t.contains d.name then .error (.duplicateType d.name)
  else match t.find? d.base with
    | none => .error (.unknownBase d.base)
    | some base => do
      let definition ← (d.compile base engine {}).mapError .type
      return ⟨t.derived ++ [(d.name, .derived definition base)]⟩

/-- Declares types one after the other. One that has a fault is left out. -/
def declareAll (engine : PatternEngine) (t : TypeTable) : List TypeDraft → TypeTable × List Fault
  | [] => (t, [])
  | d :: ds =>
    match t.declare engine d with
    | .ok t => t.declareAll engine ds
    | .error cause =>
      let (t, faults) := t.declareAll engine ds
      (t, ⟨cause, some (.simpleType d.name)⟩ :: faults)

end TypeTable

/-! ## Types by name

A derived type knows its base by name. With a table at hand the base is looked up, and the base of
the base, until a built-in type is met: to find that type, or to validate a literal. Both go on as
long as there is fuel; a chain of types uses up one unit for each of its types. -/

namespace TypeTable

/-- The type of a name, from a table if there is one, and built in otherwise. -/
def base? (table? : Option TypeTable) (n : Name) : Option SimpleType :=
  (table?.bind (·.find? n)).or ((Builtin.ofName? n).map .builtin)

/-- The built-in type at the end of the chain that begins with a name. -/
def rootWithin (t : TypeTable) : (fuel : Nat) → Name → Option Builtin
  | 0, _ => none
  | fuel + 1, n =>
    match t.find? n with
    | some (.derived d _) | some (.orphan d) => t.rootWithin fuel d.base
    | some (.builtin b) => some b
    | none => none

/-- The built-in type at the end of the chain, looked for as long as all declared types may take. -/
def builtinRoot? (t : TypeTable) (n : Name) : Option Builtin := t.rootWithin (t.size + 1) n

/-- Reads a literal by the base: as a whole, or word by word. -/
def readBy (read : String → ExceptT Value.Fault Option Value) (variety : Variety)
    (literal : String) : ExceptT Value.Fault Option Value :=
  match variety with
  | .restriction => read literal
  | .list => .list <$> (Text.words literal).mapM read

/-- Validates a literal by the definition of a type, whose base is looked up. -/
def validateBy (table? : Option TypeTable) (ctx : ValueContext)
    (validate : SimpleType → String → ExceptT Value.Fault Option Value) (d : Definition)
    (s : String) : ExceptT Value.Fault Option Value :=
  match base? table? d.base with
  | none => throw (.unknownBase d.base d.name)
  | some base => do
    let literal := d.spacing.normalize s
    let value ← readBy (validate base) d.variety literal
    ExceptT.mk (some (d.facets.forM (Facet.check d.name ctx literal value)))
    return value

/-- Validates a literal, each base on the way looked up by its name. There is no result if the fuel
is used up. -/
def validateWithin (table? : Option TypeTable) (ctx : ValueContext) :
    (fuel : Nat) → SimpleType → String → ExceptT Value.Fault Option Value
  | 0, _, _ => ExceptT.mk none
  | fuel + 1, type, s =>
    match type with
    | .builtin b => ExceptT.mk (some (b.validate ctx s))
    | .derived d _ | .orphan d => validateBy table? ctx (validateWithin table? ctx fuel) d s

end TypeTable

end MarkupGrammar
