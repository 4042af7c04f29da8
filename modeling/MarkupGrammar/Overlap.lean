import MarkupGrammar.Particle
import MarkupGrammar.Substitution

/-! # Overlapping leaves

Two leaves overlap if some child element could be attributed to either of them. Two elements overlap
if they have one name or are related by substitution; an element overlaps a wildcard that allows it,
or that allows a name that may stand for it; two wildcards overlap if they share a namespace. -/

namespace MarkupGrammar

/-- Two ranges share a namespace; two ranges that leave out one namespace each always do. -/
def Wildcard.Range.overlaps : Wildcard.Range → Wildcard.Range → Bool
  | .any, _ | _, .any => true
  | .only a, .only b => a == b
  | .other _, .other _ => true
  | .only a, .other b | .other b, .only a => a != b

/-- An element, or one that may stand for it, is allowed by a wildcard. For a range that leaves out
one namespace the element alone decides. -/
def Wildcard.overlapsElement (c : Option Comparator) (w : Wildcard) (n : Name) : Bool :=
  match w.range with
  | .any => true
  | .only space => n.isIn space || Comparator.reachesSpace c n space
  | .other space => !n.isIn space

/-- Some child element could be attributed to either leaf. -/
def Leaf.overlaps (c : Option Comparator) : Leaf → Leaf → Bool
  | .element x, .element y =>
    x == y || Comparator.isRelated c x y || Comparator.isRelated c y x
  | .element n, .wildcard w | .wildcard w, .element n => w.overlapsElement c n
  | .wildcard x, .wildcard y => x.range.overlaps y.range

end MarkupGrammar
