import MarkupGrammar.Document.Event
import MarkupGrammar.Grammar
import MarkupGrammar.Violation

/-! # Checking attributes

The attributes of an element are checked against its declaration, in the order of the start tag;
after them come the declared attributes that are absent. Values of identifier types are entered into
the identifiers of the document, if these are kept. -/

namespace MarkupGrammar

/-! ## Identifiers of a document

The identifiers that a document declares, and the references to identifiers, each with the path of
the element where it stands. An identifier may be declared after the references to it, so references
are looked up at the end. -/

/-- A reference to an identifier. -/
structure IdReference where
  /-- The identifier. -/
  id : String
  /-- The path of the element. -/
  path : String
  deriving DecidableEq, Repr, Inhabited

/-- The identifiers and references of a document. -/
structure Identifiers where
  declared : List String := []
  /-- The references, in document order. -/
  references : List IdReference := []
  deriving DecidableEq, Repr, Inhabited

namespace Identifiers

/-- Whether an identifier is declared. -/
def contains (t : Identifiers) (id : String) : Bool := t.declared.contains id

/-- Declares an identifier; tells whether it is new. -/
def declare (t : Identifiers) (id : String) : Bool × Identifiers :=
  if t.contains id then (false, t) else (true, { t with declared := id :: t.declared })

/-- Notes a reference. -/
def refer (t : Identifiers) (id path : String) : Identifiers :=
  { t with references := t.references ++ [⟨id, path⟩] }

/-- The references to identifiers that are not declared. -/
def dangling (t : Identifiers) : List IdReference := t.references.filter fun r => !t.contains r.id

end Identifiers

/-! ## Identifiers and references -/

/-- What the values of a type are to the identifiers of a document. -/
inductive IdRole where
  | none
  /-- Values are identifiers. -/
  | identifier
  /-- Values are references. -/
  | reference
  /-- The words of values are references. -/
  | references
  deriving DecidableEq, Repr, Inhabited

/-- The role of a type, by the built-in type that it is derived from. -/
def TypeTable.idRole (types : TypeTable) (type : Name) : IdRole :=
  match types.root? type with
  | some b =>
    if b.derivesFrom "ID" then .identifier
    else if b.derivesFrom "IDREF" then .reference
    else if b.derivesFrom "IDREFS" then .references
    else .none
  | none => .none

/-- Enters a value of the given role, found at an element; fails for an identifier that is declared
already. -/
def Identifiers.enter (t : Identifiers) (role : IdRole) (literal path : String) :
    Except Violation.Cause Identifiers :=
  match role with
  | .none => .ok t
  | .identifier =>
    match t.declare literal with
    | (true, t) => .ok t
    | (false, _) => .error (.duplicateId literal)
  | .reference => .ok (t.refer literal path)
  | .references => .ok ((Text.words literal).foldl (fun t id => t.refer id path) t)

/-! ## One value -/

namespace AttributeDeclaration

/-- The fixed value, if a literal differs from it; both are compared after the treatment of white
space. -/
def fixedOtherThan? (a : AttributeDeclaration) (types : TypeTable) (treated : String) :
    Option String :=
  match a.presence with
  | .fixed value =>
    match types.find? a.type.typeName with
    | some type => if type.spacing.normalize value = treated then none else some value
    | none => some value
  | .required | .implied | .default _ => none

/-- Checks a value found at an element. The result is the identifiers after it, or what is wrong
with which text. -/
def checkValue (a : AttributeDeclaration) (types : TypeTable) (ctx : ValueContext)
    (ids? : Option Identifiers) (path value : String) :
    Except (Violation.Cause × String) (Option Identifiers) := do
  let treated ← (a.type.check types ctx value).mapError
    fun reason => (.invalidAttribute a.name reason, value)
  if let some fixed := a.fixedOtherThan? types treated then
    throw (.fixedAttribute a.name fixed, value)
  match ids? with
  | none => return none
  | some ids =>
    let ids ← (ids.enter (types.idRole a.type.typeName) treated path).mapError (·, treated)
    return some ids

end AttributeDeclaration

/-! ## All attributes of an element -/

/-- What the attributes of an element amount to. -/
structure AttributeCheck where
  /-- The attributes as they count. -/
  effective : List EffectiveAttribute := []
  violations : List Violation := []
  /-- The identifiers after them, if they are kept. -/
  ids? : Option Identifiers := none
  deriving Inhabited

namespace Grammar

/-- Checks one attribute of a start tag. -/
def checkAttribute (g : Grammar) (d : ElementDeclaration) (ctx : ValueContext) (path : String)
    (ids? : Option Identifiers) (a : Attribute) : AttributeCheck :=
  if a.isReserved then { ids? }
  else match g.findAttribute d a.name with
    | none =>
      let violations := if d.allowsAttribute a.name then []
        else [⟨.undeclaredAttribute a.name d.name, some a.name, none, some path⟩]
      { effective := [.ofAttribute a none], violations, ids? }
    | some declared =>
      let effective := [EffectiveAttribute.ofAttribute a (some declared.type.typeName)]
      match declared.checkValue g.types ctx ids? path a.value with
      | .ok ids? => { effective, ids? }
      | .error (cause, value) =>
        { effective, violations := [⟨cause, some a.name, some value, some path⟩], ids? }

/-- Checks the attributes of a start tag in order. -/
def checkPresent (g : Grammar) (d : ElementDeclaration) (ctx : ValueContext) (path : String) :
    Option Identifiers → List Attribute → AttributeCheck
  | ids?, [] => { ids? }
  | ids?, a :: as =>
    let first := g.checkAttribute d ctx path ids? a
    let rest := g.checkPresent d ctx path first.ids? as
    { effective := first.effective ++ rest.effective
      violations := first.violations ++ rest.violations
      ids? := rest.ids? }

/-- What a declared attribute that is absent amounts to. -/
def checkAbsent (d : ElementDeclaration) (path : String) (a : AttributeDeclaration) :
    List EffectiveAttribute × List Violation :=
  if a.isRequired then
    ([], [⟨.missingAttribute a.name d.name, some a.name, none, some path⟩])
  else match a.presence.value? with
    | some value => ([⟨a.name, value, some a.type.typeName, true⟩], [])
    | none => ([], [])

/-- Checks the attributes of an element. -/
def checkAttributes (g : Grammar) (d : ElementDeclaration) (ctx : ValueContext)
    (ids? : Option Identifiers) (path : String) (as : List Attribute) : AttributeCheck :=
  let present := g.checkPresent d ctx path ids? as
  let missing := ((g.attributesOf d).map (·.2)).filter fun a => !as.any (·.name == a.name)
  let absent := missing.map (checkAbsent d path)
  { effective := present.effective ++ absent.flatMap (·.1)
    violations := present.violations ++ absent.flatMap (·.2)
    ids? := present.ids? }

end Grammar

end MarkupGrammar
