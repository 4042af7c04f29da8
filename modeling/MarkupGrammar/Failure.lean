import MarkupGrammar.Fault

/-! # Failures

Why an operation has no result: the grammar has faults, a limit is exceeded, the markup is wrong, or
a table does not hold what it should. The last does not happen to tables that the library made. -/

namespace MarkupGrammar

/-- The tables that entries are referred to in by number. -/
inductive TableKind where
  | expressions
  | elements
  deriving DecidableEq, Repr, Inhabited

/-- The name of the references into a table. -/
def TableKind.text : TableKind → String
  | expressions => "ContentSpecIndex"
  | elements => "ElementIndex"

/-- What is wrong with a table. -/
inductive Defect where
  /-- There is no entry of that number. -/
  | dangling (table : TableKind) (index : Nat)
  /-- The facts about a content expression have been used already, as it has two parents. -/
  | shared (index : Nat)
  /-- Content expressions contain each other. -/
  | cyclic
  /-- There is no element declaration of that number. -/
  | noDeclaration (index : Nat)
  /-- A grammar was compiled for another description than it was asked for. -/
  | otherGrammar (compiled requested : String)
  deriving DecidableEq, Repr, Inhabited

/-- The report of a defect. -/
def Defect.message : Defect → String
  | dangling table index => s!"dangling arena handle {table.text}({index})"
  | shared index => s!"content spec node #{index} not analyzed"
  | cyclic => "content spec nodes form a cycle"
  | noDeclaration index => s!"no element declaration #{index}"
  | otherGrammar compiled requested =>
    s!"compiled grammar {compiled} does not match requested {requested}"

/-- What is wrong with markup. -/
inductive MarkupFault where
  /-- The text is not markup. -/
  | malformed
  /-- An end tag without a start tag. -/
  | unopened (name : Name)
  /-- An end tag after the start tag of another element. -/
  | mismatched (name opened : Name)
  /-- The document ended within elements. -/
  | unclosed (count : Nat)
  /-- A prefix that stands for no namespace. -/
  | unbound (u : UnboundPrefix)
  deriving DecidableEq, Repr, Inhabited

/-- The report of a fault in markup. -/
def MarkupFault.message : MarkupFault → String
  | malformed => "malformed markup"
  | unopened name => s!"end tag '{name.text}' without an open element"
  | mismatched name opened =>
    s!"end tag '{name.text}' does not match start tag '{opened.text}'"
  | unclosed count => s!"document ended with {count} unclosed element(s)"
  | unbound u => u.message

/-- Why an operation has no result. -/
inductive Failure where
  | faults (list : List Fault)
  | defect (defect : Defect)
  /-- A table has no room for another entry. -/
  | noRoom
  | limit (excess : Limits.Excess)
  | markup (fault : MarkupFault)
  deriving Repr, Inhabited, DecidableEq

namespace Failure

/-- The failure for a single cause. -/
def ofCause (c : Fault.Cause) : Failure := faults [⟨c, none⟩]

/-- The report of a failure. -/
def message : Failure → String
  | faults list => s!"compile error: {Fault.listText list}"
  | defect d => s!"internal error: {d.message}"
  | noRoom => "capacity error: arena handle space exhausted"
  | limit excess => s!"limit exceeded: {excess.message}"
  | markup fault => s!"XML error: {fault.message}"

end Failure

end MarkupGrammar
