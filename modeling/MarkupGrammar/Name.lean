import MarkupGrammar.Text.Blank

/-! # Expanded names

An element, attribute or type is identified by its *expanded name*: a namespace, which may be
absent, and a local part. A namespace that is present but empty differs from an absent one. The
written form puts the namespace in curly brackets before the local part. Another one puts a *prefix*
with a colon before it, which stands for a namespace where it is bound. -/

namespace MarkupGrammar

/-- An expanded name. -/
structure Name where
  /-- The namespace, absent for a name in no namespace. -/
  space : Option String
  /-- The part of the name that is read within its namespace. -/
  localPart : String
  deriving DecidableEq, Repr, Inhabited, Hashable

namespace Name

/-- The name with local part `s` in no namespace. -/
def unqualified (s : String) : Name := ⟨none, s⟩

/-- The name with local part `s` in the namespace `space`. -/
def qualified (space s : String) : Name := ⟨some space, s⟩

/-- The written form. -/
def text (n : Name) : String :=
  match n.space with
  | some space => Text.braced space ++ n.localPart
  | none => n.localPart

/-- The name with a written form: in a namespace if it begins with one in curly brackets. -/
def ofText (s : String) : Name :=
  match s.toList with
  | '\x7b' :: rest =>
    match Text.cut '\x7d' rest with
    | some (space, localPart) => .qualified (String.ofList space) (String.ofList localPart)
    | none => .unqualified s
  | _ => .unqualified s

/-- Whether the name is in the given namespace. -/
def isIn (n : Name) (space : Option String) : Bool := n.space == space

end Name

/-! ## Well-known namespaces -/

/-- The namespace of the built-in simple types. -/
def schemaSpace : String := "http://www.w3.org/2001/XMLSchema"

/-- The namespace of the attributes that a document addresses to its validator. -/
def instanceSpace : String := "http://www.w3.org/2001/XMLSchema-instance"

/-- The namespace that the prefix `xml` always stands for. -/
def xmlSpace : String := "http://www.w3.org/XML/1998/namespace"

/-- The namespace of namespace declarations. -/
def declarationSpace : String := "http://www.w3.org/2000/xmlns/"

/-! ## Prefix bindings

A set of bindings says which namespace each prefix stands for, and in which namespace names without
a prefix are. The prefix `xml` stands for its own namespace whatever the bindings are. -/

/-- Bindings of prefixes to namespaces. -/
structure Bindings where
  /-- The bound prefixes; the first binding of a prefix counts. -/
  bound : List (String × String) := []
  /-- The namespace of names without a prefix. -/
  unprefixed : Option String := none
  deriving Repr, Inhabited

/-- A prefix that stands for no namespace. -/
structure UnboundPrefix where
  /-- The prefix. -/
  label : String
  deriving DecidableEq, Repr, Inhabited

/-- The report of an unbound prefix. -/
def UnboundPrefix.message (u : UnboundPrefix) : String :=
  s!"unknown namespace prefix '{u.label}'"

namespace Bindings

/-- The namespace that a prefix stands for. -/
def space? (b : Bindings) (label : String) : Option String :=
  if label = "xml" then some xmlSpace else b.bound.lookup label

/-- The expanded name of a written name: the text up to the first colon is its prefix. -/
def resolve (b : Bindings) (written : String) : Except UnboundPrefix Name :=
  match Text.cutString ':' written with
  | some (label, localPart) =>
    match b.space? label with
    | some space => .ok (.qualified space localPart)
    | none => .error ⟨label⟩
  | none => .ok ⟨b.unprefixed, written⟩

end Bindings

end MarkupGrammar
