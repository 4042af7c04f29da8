import MarkupGrammar.Failure

/-! # Content expressions

Content models are compiled from binary expressions: choices and sequences of two parts,
repetitions, leaves and the empty expression. The nodes of all expressions of a grammar are in one
table, and a node refers to its parts by their numbers. Lowering a particle makes trees; a table
filled by hand may also share nodes or refer to nodes that do not exist.

A node is written with `|` between the members of a choice and `,` between those of a sequence,
where nested nodes of one kind become one list, and with the operator of a repetition behind its
part. -/

namespace MarkupGrammar

/-- A node of an expression. -/
inductive Expression where
  /-- A leaf, with the number of the particle that it comes from. -/
  | leaf (leaf : Leaf) (particle : Nat)
  | choice (a b : Nat)
  | sequence (a b : Nat)
  | optional (a : Nat)
  | zeroOrMore (a : Nat)
  | oneOrMore (a : Nat)
  | empty
  deriving DecidableEq, Repr, Inhabited

namespace Expression

/-- The parts of a node, in order. -/
def parts : Expression → List Nat
  | leaf _ _ | empty => []
  | choice a b | sequence a b => [a, b]
  | optional a | zeroOrMore a | oneOrMore a => [a]

/-- Whether the node repeats its part. -/
def isRepetition : Expression → Bool
  | optional _ | zeroOrMore _ | oneOrMore _ => true
  | leaf _ _ | choice _ _ | sequence _ _ | empty => false

end Expression

/-- A table of nodes. -/
structure ExpressionTable where
  /-- The nodes, by number. -/
  nodes : Array Expression := #[]
  deriving Repr, Inhabited

namespace ExpressionTable

/-- The number of nodes. -/
def size (t : ExpressionTable) : Nat := t.nodes.size

/-- The node of a number. -/
def get (t : ExpressionTable) (i : Nat) : Except Defect Expression :=
  match t.nodes[i]? with
  | some e => .ok e
  | none => .error (.dangling .expressions i)

/-- The table with one more node; its number is the size of the table before. -/
def push (t : ExpressionTable) (e : Expression) : ExpressionTable := ⟨t.nodes.push e⟩

/-! ## Writing -/

/-- The members of nested choices, or else of nested sequences, in order. Every level uses up one
unit of fuel. -/
def membersWithin (t : ExpressionTable) (isChoice : Bool) :
    (fuel : Nat) → (i : Nat) → Except Defect (List Nat)
  | 0, _ => .error .cyclic
  | fuel + 1, i => do
    match ← t.get i with
    | .choice a b =>
      if isChoice then
        return (← t.membersWithin isChoice fuel a) ++ (← t.membersWithin isChoice fuel b)
      else return [i]
    | .sequence a b =>
      if isChoice then return [i]
      else return (← t.membersWithin isChoice fuel a) ++ (← t.membersWithin isChoice fuel b)
    | _ => return [i]

/-- The members of a choice or sequence with a separator between them, each written by `write`. -/
def listText (t : ExpressionTable) (write : Nat → Except Defect String) (isChoice : Bool)
    (separator : String) (i : Nat) : Except Defect String := do
  let members ← t.membersWithin isChoice (t.size + 1) i
  let texts ← members.mapM write
  return s!"({Text.joined separator texts})"

/-- A part, written by `write`, with an operator behind it; a repetition gets parentheses. -/
def repetitionText (t : ExpressionTable) (write : Nat → Except Defect String) (operator : String)
    (a : Nat) : Except Defect String := do
  let part ← t.get a
  let s ← write a
  return (if part.isRepetition then s!"({s})" else s) ++ operator

/-- The written form of a node. Every level uses up one unit of fuel. -/
def textWithin (t : ExpressionTable) : (fuel : Nat) → (i : Nat) → Except Defect String
  | 0, _ => .error .cyclic
  | fuel + 1, i => do
    match ← t.get i with
    | .leaf l _ => return l.text
    | .empty => return "EMPTY"
    | .choice _ _ => t.listText (t.textWithin fuel) true "|" i
    | .sequence _ _ => t.listText (t.textWithin fuel) false "," i
    | .optional a => t.repetitionText (t.textWithin fuel) "?" a
    | .zeroOrMore a => t.repetitionText (t.textWithin fuel) "*" a
    | .oneOrMore a => t.repetitionText (t.textWithin fuel) "+" a

/-- The written form of an expression, in parentheses unless it begins with one. -/
def text (t : ExpressionTable) (root : Nat) : Except Defect String := do
  let s ← t.textWithin (t.size + 1) root
  return if s.toList.head? == some '(' then s else s!"({s})"

end ExpressionTable

end MarkupGrammar
