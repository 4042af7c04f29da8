import MarkupGrammar.Lowering

/-! # Lowering with stacks

Particles are lowered, and expressions copied, on a walk with two stacks: one of what is still to be
visited, and one of *operands*, the nodes that have been made and wait for a node to be a part of. A
group is visited twice. Its first visit puts the members on the stack, above its second visit, which
finds the nodes of the members on top of the operands. -/

namespace MarkupGrammar

namespace Particle

mutual
/-- How often the particle and those in it are visited at most. -/
def visits : Particle → Nat
  | leaf _ _ => 1
  | group _ ms _ => memberVisits ms + 2

/-- How often particles and those in them are visited at most. -/
def memberVisits : List Particle → Nat
  | [] => 0
  | p :: ps => p.visits + memberVisits ps
end

/-- How many visits a stack stands for. -/
def visitsLeft : List (Particle × Bool) → Nat
  | [] => 0
  | (p, again) :: stack => (if again then 1 else p.visits) + visitsLeft stack

/-- The stack with members to be visited first, in order. -/
def withMembers (ms : List Particle) (stack : List (Particle × Bool)) : List (Particle × Bool) :=
  ms.map (·, false) ++ stack

theorem visitsLeft_withMembers (ms : List Particle) (stack : List (Particle × Bool)) :
    visitsLeft (withMembers ms stack) = memberVisits ms + visitsLeft stack := by
  unfold withMembers
  induction ms with
  | nil => simp [memberVisits]
  | cons m ms ih => simp [visitsLeft, memberVisits, ih, Nat.add_assoc]

theorem visitsLeft_lt_cons (x : Particle × Bool) (stack : List (Particle × Bool)) :
    visitsLeft stack < visitsLeft (x :: stack) := by
  obtain ⟨p, again⟩ := x
  have hpos : 0 < p.visits := by cases p <;> simp [visits]
  rw [visitsLeft]
  split <;> omega

/-- A group has one more visit than those of its members and its second one. -/
theorem visitsLeft_opened_lt (c : Compositor) (ms : List Particle) (o : Occurs)
    (stack : List (Particle × Bool)) :
    visitsLeft (withMembers ms ((group c ms o, true) :: stack)) <
      visitsLeft ((group c ms o, false) :: stack) := by
  simp only [visitsLeft_withMembers, visitsLeft, visits, if_true, Bool.false_eq_true, if_false]
  omega

end Particle

/-- Why a walk has no result. -/
inductive WalkFailure where
  /-- A step has failed. -/
  | step (f : Failure)
  /-- A leaf is visited for the second time. -/
  | leafRevisited
  /-- There are fewer operands than members of a group. -/
  | membersMissing
  /-- There is no operand. -/
  | operandMissing
  /-- There are more visits than allowed. -/
  | endless
  deriving DecidableEq, Repr, Inhabited

/-- The report of a failure. -/
def WalkFailure.message : WalkFailure → String
  | step f => f.message
  | leafRevisited => "internal error: only groups are revisited"
  | membersMissing => "internal error: group children were not lowered"
  | operandMissing => "internal error: content spec operand stack is empty"
  | endless => "internal error: content spec nodes form a cycle"

/-- Steps of a walk, with the state kept when one fails. -/
abbrev WalkM := ExceptT WalkFailure (StateM Lowering)

namespace Lowering

/-- A step of lowering as a step of a walk. -/
def step {α : Type} (x : LoweringM α) : WalkM α :=
  ExceptT.mk (Except.mapError WalkFailure.step <$> x.run)

/-- What a walk has made in the end. -/
def result : List Nat → WalkM Nat
  | [] => throw .operandMissing
  | i :: _ => pure i

/-! ## Particles -/

/-- Visits the particles of a stack, the top one first. -/
def walk (limits : Limits) : List (Particle × Bool) → (operands : List Nat) → WalkM Nat
  | [], operands => result operands
  | (.leaf l o, false) :: stack, operands => do
    step (require .occurs o.check)
    if o.isEmpty then walk limits stack ((← step (add .empty)) :: operands)
    else do
      let k ← step freshParticle
      let i ← step (add (.leaf l k))
      walk limits stack ((← step (repeated limits i o)) :: operands)
  | (.group c ms o, false) :: stack, operands => do
    step (require .occurs o.check)
    if o.isEmpty then walk limits stack ((← step (add .empty)) :: operands)
    else if c = .all then throw (.step (.ofCause .nestedAll))
    else walk limits (Particle.withMembers ms ((.group c ms o, true) :: stack)) operands
  | (.leaf _ _, true) :: _, _ => throw .leafRevisited
  | (.group c ms o, true) :: stack, operands =>
    if operands.length < ms.length then throw .membersMissing
    else do
      let i ← step (combine c (operands.take ms.length).reverse)
      walk limits stack ((← step (repeated limits i o)) :: operands.drop ms.length)
termination_by stack => Particle.visitsLeft stack
decreasing_by
  all_goals first
    | exact Particle.visitsLeft_lt_cons _ _
    | exact Particle.visitsLeft_opened_lt _ _ _ _

/-! ## Copies -/

end Lowering

/-- The node with other parts. -/
def Expression.withParts : Expression → List Nat → Expression
  | .choice _ _, [a, b] => .choice a b
  | .sequence _ _, [a, b] => .sequence a b
  | .optional _, [a] => .optional a
  | .zeroOrMore _, [a] => .zeroOrMore a
  | .oneOrMore _, [a] => .oneOrMore a
  | e, _ => e

namespace Lowering

/-- Visits the expressions of a stack, and makes copies of them. Every visit uses up one unit of
fuel. -/
def copyWalk : (fuel : Nat) → List (Nat × Bool) → (operands : List Nat) → WalkM Nat
  | 0, _, _ => throw .endless
  | _ + 1, [], operands => result operands
  | fuel + 1, (i, again) :: stack, operands => do
    let e ← step (node i)
    let count := e.parts.length
    if again then
      if operands.length < count then throw .operandMissing
      else do
        let copy ← step (add (e.withParts (operands.take count).reverse))
        copyWalk fuel stack (copy :: operands.drop count)
    else if count = 0 then copyWalk fuel stack ((← step (add e)) :: operands)
    else copyWalk fuel (e.parts.map (·, false) ++ (i, true) :: stack) operands

end Lowering

end MarkupGrammar
