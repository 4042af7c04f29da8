import MarkupGrammar.Fault

/-! # Writing particles

A particle is written with its occurrence ranges behind leaves and groups; the members of a sequence
are separated by commas, those of a choice by bars. An all-group is written as the choice of all
orderings of its members, so it is held to a maximum of members. -/

namespace MarkupGrammar

/-! ## Orderings -/

/-- Each element of a list with the others. -/
def selections {α : Type} : List α → List (α × List α)
  | [] => []
  | x :: xs => (x, xs) :: (selections xs).map fun (y, ys) => (y, x :: ys)

/-- The orderings of `n` elements of a list of that length. -/
def orderingsOf {α : Type} : (n : Nat) → List α → List (List α)
  | 0, _ => [[]]
  | n + 1, xs => (selections xs).flatMap fun (x, rest) => (orderingsOf n rest).map (x :: ·)

/-- The orderings of a list, those with earlier elements in front first. -/
def orderings {α : Type} (xs : List α) : List (List α) := orderingsOf xs.length xs

namespace Particle

/-- A text in parentheses. -/
def parenthesized (s : String) : String := s!"({s})"

/-- The written form of a group with the given written forms of its members. -/
def groupText (limits : Limits) (c : Compositor) (members : List String) :
    Except Fault.Cause String :=
  match c with
  | .sequence => .ok (parenthesized (Text.joined "," members))
  | .choice => .ok (parenthesized (Text.joined "|" members))
  | .all => do
    (limits.check .allMembers members.length).mapError .limit
    let alternatives := (orderings members).map fun o => parenthesized (Text.joined "," o)
    return parenthesized (Text.joined "|" alternatives)

mutual
/-- The written form of a particle, without parentheses around a leaf. -/
def innerText (limits : Limits) : Particle → Except Fault.Cause String
  | leaf l o => .ok (l.text ++ o.text)
  | group c ms o => do
    let members ← memberTexts limits (c == .all) ms
    return (← groupText limits c members) ++ o.text

/-- The written forms of the members of a group. -/
def memberTexts (limits : Limits) (isAll : Bool) : List Particle → Except Fault.Cause (List String)
  | [] => .ok []
  | p :: ps => do
    if isAll && !p.occurs.isBasic then throw (.allMemberShown p.occurs)
    let s ← innerText limits p
    return s :: (← memberTexts limits isAll ps)
end

/-- The written form, in parentheses unless it begins with one. -/
def text (limits : Limits) (p : Particle) : Except Fault.Cause String := do
  let s ← innerText limits p
  return if s.toList.head? == some '(' then s else parenthesized s

end Particle

end MarkupGrammar
