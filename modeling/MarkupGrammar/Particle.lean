import MarkupGrammar.Occurs
import MarkupGrammar.Wildcard

/-! # Particles

The declared content of an element is a tree of *particles*. A particle is a leaf, which stands for
single child elements, or a group of particles put together in sequence, by choice or in any order;
either way it carries an occurrence range. -/

namespace MarkupGrammar

/-- What stands for a single child element. -/
inductive Leaf where
  /-- Elements of one name. -/
  | element (name : Name)
  /-- Elements of the namespaces of a wildcard. -/
  | wildcard (wildcard : Wildcard)
  deriving DecidableEq, Repr, Inhabited

namespace Leaf

/-- Whether the leaf stands for elements of a name. -/
def accepts : Leaf → Name → Bool
  | .element n, name => n == name
  | .wildcard w, name => w.allows name

/-- The written form. -/
def text : Leaf → String
  | .element n => n.text
  | .wildcard w => w.text

end Leaf

/-- How the members of a group are put together. -/
inductive Compositor where
  /-- One after the other. -/
  | sequence
  /-- One of them. -/
  | choice
  /-- All of them, in any order. -/
  | all
  deriving DecidableEq, Repr, Inhabited

/-- The name of a compositor. -/
def Compositor.text : Compositor → String
  | .sequence => "sequence"
  | .choice => "choice"
  | .all => "all"

/-- A particle. -/
inductive Particle where
  /-- A repeated leaf. -/
  | leaf (leaf : Leaf) (occurs : Occurs)
  /-- A repeated group. -/
  | group (compositor : Compositor) (members : List Particle) (occurs : Occurs)
  deriving Repr, Inhabited

namespace Particle

/-- The occurrence range. -/
def occurs : Particle → Occurs
  | .leaf _ o => o
  | .group _ _ o => o

/-- The compositor of a group. -/
def compositor? : Particle → Option Compositor
  | .leaf _ _ => none
  | .group c _ _ => some c

/-- Whether the particle is a group in any order. -/
def isAll (p : Particle) : Bool := p.compositor? == some .all

mutual
/-- Whether the empty word satisfies the particle. -/
def isEmptiable : Particle → Bool
  | .leaf _ o => o.isEmptiable || o.isEmpty
  | .group c ms o =>
    o.isEmptiable || o.isEmpty ||
      (match c with
      | .choice => anyEmptiable ms
      | .sequence | .all => allEmptiable ms)

/-- Whether the empty word satisfies one of the particles. -/
def anyEmptiable : List Particle → Bool
  | [] => false
  | p :: ps => p.isEmptiable || anyEmptiable ps

/-- Whether the empty word satisfies all of the particles. -/
def allEmptiable : List Particle → Bool
  | [] => true
  | p :: ps => p.isEmptiable && allEmptiable ps
end

mutual
/-- The leaves in document order. -/
def leaves : Particle → List Leaf
  | .leaf l _ => [l]
  | .group _ ms _ => leavesOf ms

/-- The leaves of several particles, in order. -/
def leavesOf : List Particle → List Leaf
  | [] => []
  | p :: ps => p.leaves ++ leavesOf ps
end

end Particle

end MarkupGrammar
