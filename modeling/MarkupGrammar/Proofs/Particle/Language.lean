import MarkupGrammar.Particle
import Mathlib.Computability.Language

/-! # The language of a particle

A particle denotes a language: a leaf the words of one letter that it matches, a sequence the
concatenation of its members, a choice their union, an all-group the concatenations of its members
in any order; a group without members denotes the empty word alone. An occurrence range denotes the
concatenations of as many words as it allows.

The letters are left open, as is the relation of leaves and letters, which also sees the *place* of
the leaf: the numbers of the members that lead to it. With names for letters this gives the words
that satisfy the particle. With pairs of a place and a name it gives the *attributions*: words that
say of each name which leaf it is attributed to. A particle is *ambiguous* if after some word two of
its leaves can take the same name. -/

namespace MarkupGrammar

/-- The concatenations of as many words as the range allows. -/
def Occurs.language {α : Type} (o : Occurs) (L : Language α) : Language α :=
  {w | ∃ k, o.min ≤ k ∧ (∀ max ∈ o.max, k ≤ max) ∧ w ∈ L ^ k}

/-- What a group denotes, from what its members denote. -/
def Compositor.language {α : Type} : Compositor → List (Language α) → Language α
  | .sequence, Ls => Ls.prod
  | .choice, [] => 1
  | .choice, Ls => Ls.sum
  | .all, Ls => {w | ∃ order : List (Language α), order.Perm Ls ∧ w ∈ order.prod}

/-- The words of one letter that satisfies a predicate. -/
def letters {α : Type} (P : α → Prop) : Language α := {w | ∃ a, P a ∧ w = [a]}

namespace Particle

/-- Where a leaf stands in a particle: the numbers of the members on the way to it. -/
abbrev Place := List Nat

mutual
/-- The language of a particle over letters that `m` relates to leaves at their places. -/
def language {α : Type} (m : Place → Leaf → α → Prop) : Particle → Language α
  | .leaf l o => o.language (letters (m [] l))
  | .group c ms o => o.language (c.language (languages m 0 ms))

/-- The languages of the members of a group from number `k` on. -/
def languages {α : Type} (m : Place → Leaf → α → Prop) (k : Nat) : List Particle → List (Language α)
  | [] => []
  | p :: ps => language (fun place => m (k :: place)) p :: languages m (k + 1) ps
end

variable (fits : Leaf → Name → Prop)

/-- The words of names that satisfy the particle, where `fits` says which names a leaf matches. -/
def words (p : Particle) : Language Name := p.language fun _ l n => fits l n

/-- The words of names with the places of the leaves that match them. -/
def attributions (p : Particle) : Language (Place × Name) :=
  p.language fun place l a => a.1 = place ∧ fits l a.2

/-- After the names `u` the leaf at `place` can be the one that matches the next name `n`. -/
def MayTake (p : Particle) (u : List Name) (place : Place) (n : Name) : Prop :=
  ∃ v w, v.map Prod.snd = u ∧ v ++ (place, n) :: w ∈ p.attributions fits

/-- After some names two leaves can match the same next name. -/
def IsAmbiguous (p : Particle) : Prop :=
  ∃ u n i j, i ≠ j ∧ p.MayTake fits u i n ∧ p.MayTake fits u j n

end Particle

end MarkupGrammar
