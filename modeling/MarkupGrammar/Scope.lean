/-! # Classifications of declarations

Where an element declaration is in force, what kind of content it has, and the kinds of identity
constraints. -/

namespace MarkupGrammar

/-- Where an element declaration is in force. -/
inductive Scope where
  /-- Everywhere. -/
  | global
  /-- Below the elements of one scope. -/
  | within (id : Nat)
  deriving DecidableEq, Repr, Inhabited, Hashable

/-- The written form. -/
def Scope.text : Scope → String
  | global => "global"
  | within id => s!"local({id})"

/-- The kinds of content. -/
inductive Category where
  | empty
  | any
  /-- Text with elements of given names, in any order. -/
  | mixedSimple
  /-- Text with the elements of a particle. -/
  | mixedComplex
  /-- Elements only. -/
  | children
  /-- Text that is a value of a simple type. -/
  | simple
  deriving DecidableEq, Repr, Inhabited

namespace Category

/-- The written form. -/
def text : Category → String
  | empty => "EMPTY"
  | any => "ANY"
  | mixedSimple => "MIXED_SIMPLE"
  | mixedComplex => "MIXED_COMPLEX"
  | children => "CHILDREN"
  | simple => "SIMPLE"

/-- Whether text other than white space may occur. -/
def allowsText : Category → Bool
  | empty | children => false
  | any | mixedSimple | mixedComplex | simple => true

end Category

/-- The kinds of identity constraints. -/
inductive ConstraintKind where
  /-- Complete tuples of field values differ. -/
  | unique
  /-- Tuples are complete and differ. -/
  | key
  /-- Complete tuples occur among those of another constraint. -/
  | keyref
  deriving DecidableEq, Repr, Inhabited

/-- The written form. -/
def ConstraintKind.text : ConstraintKind → String
  | unique => "unique"
  | key => "key"
  | keyref => "keyref"

end MarkupGrammar
