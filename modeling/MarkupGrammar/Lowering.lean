import MarkupGrammar.Expression

/-! # Lowering particles

A particle is lowered to an expression by appending nodes to a table, so that the parts of a node
precede it. Occurrence ranges without an operator of their own are expanded: the required
repetitions in sequence, and after them either a part that may be repeated further or optional parts
nested into each other, so that the optional repetitions are taken from the front. Every repetition
after the first is a copy of the nodes. Copies keep the numbers of their particles; leaves that come
from different particles get different numbers, in document order.

A lowering that fails leaves the nodes that it has appended in the table. -/

namespace MarkupGrammar

/-- The state of lowering: a table and the number for the next leaf. -/
structure Lowering where
  table : ExpressionTable := {}
  nextParticle : Nat := 0
  deriving Repr, Inhabited

/-- Lowering, with the state kept when it fails. -/
abbrev LoweringM := ExceptT Failure (StateM Lowering)

namespace Lowering

/-- Appends a node. -/
def add (e : Expression) : LoweringM Nat :=
  modifyGet fun s => (s.table.size, { s with table := s.table.push e })

/-- Takes the number for a leaf. -/
def freshParticle : LoweringM Nat :=
  modifyGet fun s => (s.nextParticle, { s with nextParticle := s.nextParticle + 1 })

/-- The outcome of a check. -/
def require {ε : Type} (cause : ε → Fault.Cause) (r : Except ε Unit) : LoweringM Unit :=
  match r with
  | .ok () => pure ()
  | .error e => throw (.ofCause (cause e))

/-- The node of a number. -/
def node (i : Nat) : LoweringM Expression := do
  match (← get).table.get i with
  | .ok e => pure e
  | .error d => throw (.defect d)

/-! ## Copies -/

/-- Copies an expression, parts before wholes. Parts precede wholes, so the number of an expression
bounds its depth. -/
def copyWithin : (fuel : Nat) → (i : Nat) → LoweringM Nat
  | 0, _ => throw (.defect .cyclic)
  | fuel + 1, i => do
    match ← node i with
    | .choice a b => do
      let a ← copyWithin fuel a
      let b ← copyWithin fuel b
      add (.choice a b)
    | .sequence a b => do
      let a ← copyWithin fuel a
      let b ← copyWithin fuel b
      add (.sequence a b)
    | .optional a => do add (.optional (← copyWithin fuel a))
    | .zeroOrMore a => do add (.zeroOrMore (← copyWithin fuel a))
    | .oneOrMore a => do add (.oneOrMore (← copyWithin fuel a))
    | e => add e

/-- Copies an expression. -/
def copy (i : Nat) : LoweringM Nat := copyWithin (i + 1) i

/-- Makes `n` copies. -/
def copies (i : Nat) : (n : Nat) → LoweringM (List Nat)
  | 0 => pure []
  | n + 1 => do
    let c ← copy i
    return c :: (← copies i n)

/-! ## Occurrence ranges -/

/-- Puts an expression and further ones in sequence. -/
def sequenceFrom (first : Nat) : List Nat → LoweringM Nat
  | [] => pure first
  | next :: rest => do sequenceFrom (← add (.sequence first next)) rest

/-- Wraps `n` more optional repetitions of an expression around `inner`. -/
def optionalAround (i inner : Nat) : (n : Nat) → LoweringM Nat
  | 0 => pure inner
  | n + 1 => do
    let head ← copy i
    let pair ← add (.sequence head inner)
    optionalAround i (← add (.optional pair)) n

/-- Expands a range that has no operator. The expression itself is the first repetition. -/
def expand (i min : Nat) (max : Option Nat) : LoweringM Nat := do
  let required := match max with
    | none => min - 1
    | some _ => min
  let firsts ← if required = 0 then pure [] else (i :: ·) <$> copies i (required - 1)
  let last : LoweringM Nat := if required = 0 then pure i else copy i
  let rest ← match max with
    | none => do pure [← add (.oneOrMore (← last))]
    | some max =>
      if min < max then do
        let inner ← add (.optional (← last))
        pure [← optionalAround i inner (max - min - 1)]
      else pure []
  match firsts ++ rest with
  | [] => add .empty
  | first :: rest => sequenceFrom first rest

/-- Applies an occurrence range to an expression. -/
def repeated (limits : Limits) (i : Nat) (o : Occurs) : LoweringM Nat :=
  match o.min, o.max with
  | 1, some 1 => pure i
  | 0, some 1 => add (.optional i)
  | 0, none => add (.zeroOrMore i)
  | 1, none => add (.oneOrMore i)
  | min, max => do
    require .limit (limits.check .occurs (max.getD min))
    expand i min max

/-! ## Particles -/

/-- Puts the members of a group together from the left; a group without members is empty. -/
def combine (c : Compositor) : List Nat → LoweringM Nat
  | [] => add .empty
  | first :: rest => rest.foldlM (fun a b => add (node a b)) first
where
  /-- The node of two members. -/
  node (a b : Nat) : Expression := if c = .choice then .choice a b else .sequence a b

mutual
/-- Lowers a particle; a prohibited one is empty. -/
def particle (limits : Limits) : Particle → LoweringM Nat
  | .leaf l o => do
    require .occurs o.check
    if o.isEmpty then add .empty
    else do
      let i ← add (.leaf l (← freshParticle))
      repeated limits i o
  | .group c ms o => do
    require .occurs o.check
    if o.isEmpty then add .empty
    else if c = .all then throw (.ofCause .nestedAll)
    else do
      let members ← particles limits ms
      repeated limits (← combine c members) o

/-- Lowers particles in order. -/
def particles (limits : Limits) : List Particle → LoweringM (List Nat)
  | [] => pure []
  | p :: ps => do
    let i ← particle limits p
    return i :: (← particles limits ps)
end

/-- Lowers the particle of a content model; the table is held to its maximum afterwards. -/
def root (limits : Limits) (p : Particle) : LoweringM Nat := do
  let i ← particle limits p
  require .limit (limits.check .nodes (← get).table.size)
  return i

end Lowering

end MarkupGrammar
