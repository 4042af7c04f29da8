import MarkupGrammar.Document.Validation

/-! # Sessions

A validation serves any number of documents, one after the other. Its caller makes *requests*: to
begin a document, to follow an event, to end the document. There is a *reply* to each, also where
the request fails, and the caller may go on after a failure or leave a document unfinished. -/

namespace MarkupGrammar

/-- A request of the caller. -/
inductive Request where
  /-- To begin a document. -/
  | start
  | event (e : Event)
  /-- To end the document. -/
  | finish
  deriving DecidableEq, Repr, Inhabited

/-- Whether an event has brought up violations. -/
inductive Outcome where
  | accepted
  | violated
  deriving DecidableEq, Repr, Inhabited

/-- What a request amounts to. -/
inductive Answer where
  | started
  | outcome (result : Except Failure Outcome)
  | report (result : Except Failure Report)
  deriving Repr, Inhabited

/-- The answer to a request, with what can be seen of the validation after it. -/
structure Reply where
  answer : Answer
  /-- The number of open elements. -/
  depth : Nat
  /-- The violations that have not been reported yet. -/
  violations : List Violation
  deriving Repr, Inhabited

namespace Validation

/-- The outcome of an event that has led from one validation to another. -/
def outcome (v next : Validation) : Outcome :=
  if v.violations.length < next.violations.length then .violated else .accepted

/-- Serves a request. -/
def respond (g : Grammar) (o : ValidationOptions) (v : Validation) : Request → Answer × Validation
  | .start => (.started, v.restart)
  | .event e =>
    let (result, next) := v.step g o e
    (.outcome (result.map fun _ => v.outcome next), next)
  | .finish =>
    let (result, next) := v.finish g o
    (.report result, next)

/-- Serves requests in order, whether they fail or not. -/
def serve (g : Grammar) (o : ValidationOptions) (v : Validation) :
    List Request → List Reply × Validation
  | [] => ([], v)
  | r :: rs =>
    let (answer, v) := v.respond g o r
    let (replies, last) := v.serve g o rs
    (⟨answer, v.depth, v.violations⟩ :: replies, last)

end Validation

end MarkupGrammar
