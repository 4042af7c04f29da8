import MarkupGrammar.Pattern

/-! # Building simple patterns

The patterns that the reader makes are built by the functions of this module, which simplify as they
build: sequences and choices are not nested on the left and have no empty parts, characters in a row
are one text, a choice between characters or sets is a set, and a choice begins with what all its
branches begin with. None of this changes what matches, but the size of a pattern is that of its
simple form. -/

namespace MarkupGrammar.Pattern

/-! ## Lengths -/

/-- The least length of a matching text that the form of a pattern allows. Only the question whether
it is zero is of interest; a pattern with an empty set has none. -/
def leastLength? : Pattern → Option Nat
  | empty | place _ => some 0
  | text s => some s.length
  | chars s => if s.isEmpty then none else some 1
  | cat p q => do return (← p.leastLength?) + (← q.leastLength?)
  | alt p q => do return Nat.min (← p.leastLength?) (← q.leastLength?)
  | repeated p min _ => p.leastLength?.map (· * min)
  | group _ p => p.leastLength?

/-- The greatest length of a matching text, if there is one. -/
def greatestLength? : Pattern → Option Nat
  | empty | place _ => some 0
  | text s => some s.length
  | chars s => if s.isEmpty then none else some 1
  | cat p q => do return (← p.greatestLength?) + (← q.greatestLength?)
  | alt p q => do return Nat.max (← p.greatestLength?) (← q.greatestLength?)
  | repeated p _ max => do return (← p.greatestLength?) * (← max)
  | group _ p => p.greatestLength?

/-! ## Sets and sequences -/

/-- A character of a set; a set of one character is a text. -/
def ofSet (s : CharSet) : Pattern :=
  match s.single? with
  | some c => text [c]
  | none => chars s

/-- The parts of a sequence. -/
def parts : Pattern → List Pattern
  | empty => []
  | cat p q => p :: q.parts
  | p => [p]

/-- The sequence of the given parts. -/
def ofParts : List Pattern → Pattern
  | [] => empty
  | [p] => p
  | p :: ps => cat p (ofParts ps)

/-- Joins texts that follow each other. -/
def joinTexts : List Pattern → List Pattern
  | [] => []
  | p :: ps =>
    match p, joinTexts ps with
    | text s, text t :: qs => text (s ++ t) :: qs
    | p, qs => p :: qs

/-- The given patterns, one after the other. -/
def sequence (ps : List Pattern) : Pattern := ofParts (joinTexts (ps.flatMap parts))

/-! ## Choices -/

/-- The branches of a choice. -/
def branches : Pattern → List Pattern
  | alt p q => p :: q.branches
  | p => [p]

/-- The choice between the given branches. -/
def ofBranches : List Pattern → Pattern
  | [] => chars .empty
  | [p] => p
  | p :: ps => alt p (ofBranches ps)

/-- The only character of a text of length one. -/
def char? : Pattern → Option Char
  | text [c] => some c
  | _ => none

/-- The set of a pattern that is one. -/
def set? : Pattern → Option CharSet
  | chars s => some s
  | _ => none

/-- A choice between characters or between sets as one set. -/
def choiceSet? (branches : List Pattern) : Option CharSet :=
  (branches.mapM char?).map CharSet.ofChars |>.or ((branches.mapM set?).map CharSet.unions)

/-- A choice between branches that begin with nothing in common. -/
def plainChoice (ps : List Pattern) : Pattern :=
  match ps.flatMap branches with
  | [p] => p
  | qs =>
    match choiceSet? qs with
    | some s => ofSet s
    | none => ofBranches qs

/-- What both lists begin with. -/
def commonStart : List Pattern → List Pattern → List Pattern
  | p :: ps, q :: qs => if p = q then p :: commonStart ps qs else []
  | _, _ => []

/-- What sequences of two and more parts begin with; nothing if there are other patterns among
them. -/
def commonParts (ps : List Pattern) : List Pattern :=
  let sequences := ps.map parts
  if sequences.all fun parts => 2 ≤ parts.length then
    match sequences with
    | [] => []
    | first :: others => others.foldl commonStart first
  else []

/-- One of the given patterns. -/
def choice (ps : List Pattern) : Pattern :=
  let qs := ps.flatMap branches
  match qs, choiceSet? qs, commonParts qs with
  | _ :: _ :: _, none, p :: start =>
    let rests := qs.map fun q => sequence (q.parts.drop (start.length + 1))
    sequence (p :: start ++ [plainChoice rests])
  | _, _, _ => plainChoice qs

/-! ## Repetitions -/

/-- A repetition; what matches the empty text only is not repeated more than once. -/
def times (p : Pattern) (min : Nat) (max : Option Nat) : Pattern :=
  let (min, max) :=
    if p.greatestLength? = some 0 then (Nat.min min 1, some (Nat.min (max.getD 1) 1))
    else (min, max)
  if max = some 0 then empty
  else if min = 1 ∧ max = some 1 then p
  else repeated p min max

end MarkupGrammar.Pattern
