import MarkupGrammar.Document.Validation

/-! # Walks over document trees

A document that is given as a tree is walked with a stack of the nodes that are still to be visited.
An element is visited twice: the first visit opens it and puts its children on the stack, above its
second visit, which closes it. The walk calls a *receiver*, which knows how many elements are open;
text outside of elements is left out. The walk ends with the first call that fails. -/

namespace MarkupGrammar

/-! ## Visits -/

namespace Node

mutual
/-- How often the node and those below it are visited. -/
def visits : Node → Nat
  | element _ _ children => childVisits children + 2
  | text _ | aside => 1

/-- How often nodes and those below them are visited. -/
def childVisits : List Node → Nat
  | [] => 0
  | n :: ns => n.visits + childVisits ns
end

end Node

/-- A node to be visited, and whether it has been visited before. -/
abbrev Visit := Node × Bool

/-- How many visits a stack stands for. -/
def visitsLeft : List Visit → Nat
  | [] => 0
  | (n, isClosing) :: stack => (if isClosing then 1 else n.visits) + visitsLeft stack

/-- The stack with nodes to be visited first, in order. -/
def withNodes (ns : List Node) (stack : List Visit) : List Visit := ns.map (·, false) ++ stack

theorem visitsLeft_withNodes (ns : List Node) (stack : List Visit) :
    visitsLeft (withNodes ns stack) = Node.childVisits ns + visitsLeft stack := by
  unfold withNodes
  induction ns with
  | nil => simp [Node.childVisits]
  | cons n ns ih => simp [visitsLeft, Node.childVisits, ih, Nat.add_assoc]

theorem visitsLeft_lt_cons (x : Visit) (stack : List Visit) :
    visitsLeft stack < visitsLeft (x :: stack) := by
  obtain ⟨n, isClosing⟩ := x
  have hpos : 0 < n.visits := by cases n <;> simp [Node.visits]
  rw [visitsLeft]
  split <;> omega

/-- An element has one more visit than those of its children and its second one. -/
theorem visitsLeft_opened_lt (name : Name) (attributes : List Attribute) (children : List Node)
    (stack : List Visit) :
    visitsLeft (withNodes children ((.element name attributes children, true) :: stack)) <
      visitsLeft ((.element name attributes children, false) :: stack) := by
  simp only [visitsLeft_withNodes, visitsLeft, Node.visits, if_true, Bool.false_eq_true, if_false]
  omega

/-! ## Receivers -/

/-- What a walk calls. -/
structure Receiver (σ ρ : Type) where
  /-- Begins a document. -/
  start : σ → σ
  /-- Follows an event. -/
  step : σ → Event → Except Failure Unit × σ
  /-- Ends the document. -/
  finish : σ → Except Failure ρ × σ
  /-- The number of open elements. -/
  depth : σ → Nat

namespace Receiver

variable {σ ρ : Type}

/-- Goes on after a call, unless it has failed. -/
@[inline]
def after {α : Type} (called : Except Failure Unit × σ) (next : σ → Except Failure α × σ) :
    Except Failure α × σ :=
  match called with
  | (.ok (), s) => next s
  | (.error f, s) => (.error f, s)

/-- Visits the nodes of a stack, the top one first. -/
def walk (r : Receiver σ ρ) (s : σ) : List Visit → Except Failure Unit × σ
  | [] => (.ok (), s)
  | (.element name attributes children, isClosing) :: stack =>
    if isClosing then after (r.step s (.stop name)) fun s => r.walk s stack
    else after (r.step s (.start name attributes)) fun s =>
      r.walk s (withNodes children ((.element name attributes children, true) :: stack))
  | (.text text, _) :: stack =>
    if r.depth s > 0 then after (r.step s (.characters text)) fun s => r.walk s stack
    else r.walk s stack
  | (.aside, _) :: stack => r.walk s stack
termination_by stack => visitsLeft stack
decreasing_by
  · exact visitsLeft_lt_cons _ _
  · rename_i hopen
    rw [Bool.eq_false_iff.mpr hopen]
    exact visitsLeft_opened_lt _ _ _ _
  all_goals exact visitsLeft_lt_cons _ _

/-- Walks over the nodes of a document, from its beginning to its end. -/
def validateTree (r : Receiver σ ρ) (s : σ) (ns : List Node) : Except Failure ρ × σ :=
  after (r.walk (r.start s) (withNodes ns [])) r.finish

end Receiver

/-- A validation as a receiver. -/
def Validation.receiver (g : Grammar) (o : ValidationOptions) : Receiver Validation Report where
  start v := v.restart
  step v e := v.step g o e
  finish v := v.finish g o
  depth v := v.depth

end MarkupGrammar
