import MarkupGrammar.Grammar

/-! # Declared grammars

A grammar as declared, and its compilation. Types come first, then elements, their attributes, their
content and their identity constraints; references of keyrefs are resolved at the end. A declaration
with a fault is left out, and compilation goes on to find the faults of the others; there is a
grammar only if there are no faults. -/

namespace MarkupGrammar

/-- A grammar as declared. -/
structure GrammarDraft where
  description : Description
  elements : List ElementDraft := []
  types : List TypeDraft := []
  /-- Heads of substitution groups with members. -/
  substitutions : List (Name × Name) := []
  /-- What is asked about substitution instead of the declared groups. -/
  comparator? : Option Comparator := none
  /-- What compiles the patterns of types. -/
  engine : PatternEngine := .regular

namespace GrammarDraft

/-! ## Elements -/

/-- The faults of the declaration of an element, apart from repetition. -/
def elementFaults (types : TypeTable) (d : ElementDraft) : List Fault :=
  match d.type? with
  | some type =>
    if types.contains type then [] else [⟨.unknownType type, some (.element d.name)⟩]
  | none => []

/-- The declarations that are the first of their name and scope. The ones in `seen` stand before. -/
def distinctElements (types : TypeTable) (seen : List (Scope × Name)) :
    List ElementDraft → List ElementDraft × List Fault
  | [] => ([], [])
  | d :: ds =>
    let key := (d.scope, d.name)
    let (kept, faults) := distinctElements types (key :: seen) ds
    if seen.contains key then
      (kept, ⟨.duplicateElement d.name d.scope, some (.element d.name)⟩ :: faults)
    else (d :: kept, elementFaults types d ++ faults)

/-- The element declaration of a draft, before its content, attributes and constraints. -/
def declared (d : ElementDraft) : ElementDeclaration :=
  { name := d.name, scope := d.scope, childScope := d.childScope, type? := d.type?,
    fixed? := d.fixed?, attributeWildcard? := d.attributeWildcard? }

/-! ## Attributes -/

/-- The attribute declarations of elements, which are numbered from `element` on. -/
def declareAttributes (types : TypeTable) (element : Nat) :
    List ElementDraft → List (List AttributeDeclaration) × List Fault
  | [] => ([], [])
  | d :: ds =>
    let (own, causes) := AttributeDraft.declareAll types element [] d.attributes
    let (others, faults) := declareAttributes types (element + 1) ds
    (own :: others, causes.map (⟨·, some (.element d.name)⟩) ++ faults)

/-- The numbers of the entries of lists that are put behind each other, from `first` on. -/
def numbersFrom {α : Type} (first : Nat) : List (List α) → List (List Nat)
  | [] => []
  | l :: ls => List.range' first l.length :: numbersFrom (first + l.length) ls

/-! ## Content -/

/-- Compiles the content of elements into one table of expressions. -/
def compileContents (c : Option Comparator) (limits : Limits) (table : ExpressionTable) :
    List ElementDraft → Except Failure (List Content × ExpressionTable × List Fault)
  | [] => .ok ([], table, [])
  | d :: ds => do
    let (result, s) := (d.content.compile c limits).run.run { table }
    let (content, own) ← match result with
      | .ok content => pure (content, [])
      | .error (.faults fs) => pure ({}, fs.map (·.within (.element d.name)))
      | .error e => throw e
    let (contents, table, faults) ← compileContents c limits s.table ds
    return (content :: contents, table, own ++ faults)

/-! ## Identity constraints -/

/-- A compiled constraint with the name of the constraint that it refers to, if it is a keyref. -/
abbrev OpenConstraint := Constraint × Option Name

/-- What has been compiled of identity constraints. -/
structure Constraints where
  /-- The constraints so far. -/
  compiled : Array OpenConstraint := #[]
  /-- The faults so far. -/
  faults : List Fault := []
  deriving Inhabited

/-- Compiles one constraint of an element. -/
def Constraints.add (element : Nat) (cs : Constraints) (d : ConstraintDraft) : Constraints :=
  let failed (causes : List Fault.Cause) : Constraints :=
    { cs with faults := cs.faults ++ causes.map (⟨·, some d.component⟩) }
  if cs.compiled.any (·.1.name == d.name) then failed [.duplicateConstraint d.name]
  else match d.compile element with
    | .error causes => failed causes
    | .ok c =>
      let refer? := if d.kind = .keyref then d.refer? else none
      { cs with compiled := cs.compiled.push (c, refer?) }

/-- Compiles the constraints of all elements. -/
def compileConstraints (ds : List ElementDraft) : Constraints :=
  ds.zipIdx.foldl (fun cs (d, element) => d.constraints.foldl (Constraints.add element) cs) {}

/-- Resolves the reference of a keyref. -/
def resolveReference (all : Array Constraint) (c : OpenConstraint) : Constraint × List Fault :=
  match c with
  | (c, none) => (c, [])
  | (c, some refer) =>
    match c.referent all refer with
    | .ok i => ({ c with refer? := some i }, [])
    | .error cause => (c, [⟨cause, some (.constraint .keyref c.name)⟩])

/-- The numbers of the constraints of an element. -/
def constraintsOf (cs : Array Constraint) (element : Nat) : List Nat :=
  (List.range cs.size).filter fun i => (cs[i]?).any (·.element == element)

/-! ## The grammar -/

/-- Compiles a declared grammar. -/
def compile (limits : Limits) (draft : GrammarDraft) : Except Failure Grammar := do
  let (types, typeFaults) := ({} : TypeTable).declareAll draft.engine draft.types
  let base : Grammar :=
    { description := draft.description, types,
      substitutions := .ofPairs draft.substitutions, comparator? := draft.comparator? }
  let (kept, elementFaults) := distinctElements types [] draft.elements
  let (attributes, attributeFaults) := declareAttributes types 0 kept
  let (contents, expressions, contentFaults) ← compileContents base.comparator limits {} kept
  let cs := compileConstraints kept
  let resolved := cs.compiled.map (resolveReference (cs.compiled.map (·.1)))
  let constraints := resolved.map (·.1)
  let faults := typeFaults ++ elementFaults ++ attributeFaults ++ contentFaults ++ cs.faults ++
    resolved.toList.flatMap (·.2)
  if !faults.isEmpty then throw (.faults faults)
  let names := (kept.map declared).toArray
  let bound (c : Content) (scope : Scope) : Content :=
    { c with model := c.model.bind (Grammar.lookupChild names scope) }
  let parts := ((kept.zip contents).zip (numbersFrom 0 attributes)).zipIdx
  let elements := parts.map fun (((d, content), attributes), i) =>
    { declared d with
      content := bound content d.childScope
      attributes
      constraints := constraintsOf constraints i }
  return { base with
    elements := elements.toArray, attributes := attributes.flatten.toArray, constraints,
    expressions }

end GrammarDraft

end MarkupGrammar
