import MarkupGrammar.Automaton
import MarkupGrammar.Expression.Positions

/-! # The automaton of an expression

A state of the automaton is a set of positions: those that can come next. One more position, the end
mark, follows the last ones; a state that holds it is accepting. Positions with equal leaves share a
symbol, and the transition on a symbol leads to all that can follow its positions in the state.
States are numbered as they are found, from the first positions on.

Content is to be attributed to particles uniquely: no two positions of a state that come from
different particles may overlap. -/

namespace MarkupGrammar

namespace Construction

/-- What the construction works on. -/
structure Setup where
  positions : Array Position
  /-- The positions that can follow each position, the end mark included. -/
  follow : Array NumberSet
  /-- The number of the end mark. -/
  endMark : Nat
  /-- The distinct leaves. -/
  symbols : Array Leaf
  /-- The symbol of each position. -/
  symbolOf : Array Nat
  deriving Repr, Inhabited

/-- The distinct leaves of positions, in order, and the number of the leaf of each position. -/
def numberLeaves (positions : Array Position) : Array Leaf × Array Nat :=
  positions.foldl (fun (symbols, numbers) p =>
    match symbols.idxOf? p.leaf with
    | some i => (symbols, numbers.push i)
    | none => (symbols.push p.leaf, numbers.push symbols.size)) (#[], #[])

/-- The setup for a surveyed expression, and the first state. -/
def setup (f : Facts) (s : Survey) : Setup × NumberSet :=
  let endMark := s.positions.size
  let follow := f.last.toList.foldl
    (fun follow p => follow.modify p (·.union (.single endMark))) s.follow
  let (symbols, symbolOf) := numberLeaves s.positions
  let start := if f.nullable then f.first.union (.single endMark) else f.first
  (⟨s.positions, follow, endMark, symbols, symbolOf⟩, start)

/-- The first pair of overlapping leaves of different particles, the first one being `p`. -/
def overlapWith? (c : Option Comparator) (p : Position) (others : List Position) :
    Option (Leaf × Leaf) :=
  (others.find? fun q => p.particle != q.particle && p.leaf.overlaps c q.leaf).map fun q =>
    (p.leaf, q.leaf)

/-- The first pair of overlapping leaves of different particles. Where only one particle is left,
there is none. -/
def overlap? (c : Option Comparator) : List Position → Option (Leaf × Leaf)
  | [] => none
  | p :: ps =>
    if ps.all (·.particle == p.particle) then none
    else (overlapWith? c p ps).orElse fun _ => overlap? c ps

/-- The positions of a state without the end mark. -/
def members (k : Setup) (set : NumberSet) : List Nat := set.toList.filter (· != k.endMark)

/-- The symbols of a state, ascending, each with the state that it leads to. -/
def moves (k : Setup) (set : NumberSet) : List (Nat × NumberSet) :=
  let ps := members k set
  let symbol (p : Nat) : Nat := k.symbolOf[p]?.getD 0
  let symbols := ps.foldl (fun found p => found.union (.single (symbol p))) NumberSet.empty
  symbols.toList.map fun s =>
    (s, (ps.filter (symbol · == s)).foldl (fun t p => t.union (k.follow[p]?.getD .empty)) .empty)

/-- Numbers the targets of the moves of a state; new ones are appended to the states found. -/
def numberTargets (limits : Limits) (found : Array NumberSet) :
    List (Nat × NumberSet) → Except Limits.Excess (List (Nat × Nat) × Array NumberSet)
  | [] => .ok ([], found)
  | (symbol, target) :: rest => do
    let (id, found) ← match found.idxOf? target with
      | some id => pure (id, found)
      | none => do
        limits.check .states (found.size + 1)
        pure (found.size, found.push target)
    let (transitions, found) ← numberTargets limits found rest
    return ((symbol, id) :: transitions, found)

/-- Works off the states found, from the first without transitions on. Each uses up one unit of
fuel. -/
def explore (c : Option Comparator) (limits : Limits) (k : Setup) :
    (fuel : Nat) → (found : Array NumberSet) → (done : Array AutomatonState) →
      Except Fault.Cause (Array AutomatonState)
  | 0, _, done => .ok done
  | fuel + 1, found, done =>
    match found[done.size]? with
    | none => .ok done
    | some set =>
      match overlap? c ((members k set).filterMap (k.positions[·]?)) with
      | some (a, b) => .error (.ambiguousModel a b)
      | none =>
        match numberTargets limits found (moves k set) with
        | .error excess => .error (.limit excess)
        | .ok (transitions, found) =>
          explore c limits k fuel found (done.push ⟨transitions, set.contains k.endMark⟩)

end Construction

/-- The automaton of an expression. There are no more states than the limit allows, and the
first. -/
def ExpressionTable.automaton (t : ExpressionTable) (c : Option Comparator) (limits : Limits)
    (root : Nat) : Except Failure Automaton := do
  let (facts, survey) ← (Survey.run t root).mapError .defect
  let (k, start) := Construction.setup facts survey
  let states ← (Construction.explore c limits k (limits.maxStates + 1) #[start] #[]).mapError
    .ofCause
  return ⟨k.symbols.map fun l => ⟨l, none⟩, states⟩

end MarkupGrammar
