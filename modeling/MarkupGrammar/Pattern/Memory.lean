import MarkupGrammar.Pattern.Simple
import Std.Data.HashMap

/-! # Memory of automata

A pattern is run by automata that read the bytes of a text, one from the beginning and one from the
end. How much memory the states of such an automaton take is known before it is built: every state
takes the same room, and a state with several successors takes room for each of them. A pattern
whose automata would take too much memory is refused (`isTooLarge`). -/

namespace MarkupGrammar.Pattern

/-- The end from which an automaton reads. -/
inductive Reading where
  | forward
  | backward
  deriving DecidableEq, Repr, Inhabited

/-- The room of a state. -/
def stateRoom : Nat := 32

/-- The room of a transition of a state whose transitions depend on the next byte. -/
def transitionRoom : Nat := 8

/-- The room of a successor of a state that branches without reading. -/
def branchRoom : Nat := 4

/-- The bytes that a character is written in. -/
def bytesOf (c : Char) : List Nat := (String.utf8EncodeChar c).map UInt8.toNat

/-! ## Sets of characters

A set of ASCII characters is one state. Any other set is cut into pieces of which each is a sequence
of ranges of bytes. Forwards, the sequences make a tree in which equal parts are shared; backwards,
sequences share what they begin with, and a state branches to all of them. -/

/-- A range of bytes. -/
abbrev ByteRange := Nat × Nat

/-- Cuts a range at the first and at the last multiple of `size` in it, if the whole blocks between
them are not all of it. -/
def cutAtBlocks (size : Nat) (r : Nat × Nat) : List (Nat × Nat) :=
  if r.1 / size = r.2 / size then [r]
  else
    let first := (r.1 + size - 1) / size * size
    let last := (r.2 + 1) / size * size
    [(r.1, first - 1), (first, last - 1), (last, r.2)].filter fun (low, high) =>
      low ≤ high && r.1 ≤ low && high ≤ r.2

/-- The part of a range between two bounds. -/
def clip (low high : Nat) (r : Nat × Nat) : List (Nat × Nat) :=
  if Nat.max low r.1 ≤ Nat.min high r.2 then [(Nat.max low r.1, Nat.min high r.2)] else []

/-- The sequences of ranges of bytes that stand for a range of code points. -/
def byteRanges (r : Nat × Nat) : List (List ByteRange) :=
  let encoded (r : Nat × Nat) : List ByteRange :=
    (bytesOf (Char.ofNat r.1)).zip (bytesOf (Char.ofNat r.2))
  let long := clip 0x80 0x7FF r ++ clip 0x800 0xD7FF r ++ clip 0xE000 0xFFFF r ++
    clip 0x10000 0x10FFFF r
  let sizes := [64, Nat.pow 64 2, Nat.pow 64 3]
  let pieces := sizes.foldl (fun rs size => rs.flatMap (cutAtBlocks size)) long
  (clip 0 0x7F r ++ pieces).map encoded

/-- How many parts both sequences begin with in common. -/
def commonLength : List ByteRange → List ByteRange → Nat
  | a :: s, b :: t => if a = b then commonLength s t + 1 else 0
  | _, _ => 0

/-- The room of the ranges of sequences that share what they begin with; `previous` is the sequence
before them. -/
def sharedRoom (previous : List ByteRange) : List (List ByteRange) → Nat
  | [] => 0
  | s :: rest => (s.length - commonLength previous s) * stateRoom + branchRoom + sharedRoom s rest

/-- The states of a tree of sequences: the transitions of each one, and its number. -/
abbrev TreeStates := Std.HashMap (List (ByteRange × Nat)) Nat

/-- Divides sequences by their first ranges; sequences with the same first range follow each
other. -/
def byFirst : List (List ByteRange) → List (ByteRange × List (List ByteRange))
  | [] => []
  | [] :: rest => byFirst rest
  | (a :: s) :: rest =>
    match byFirst rest with
    | (b, tails) :: groups =>
      if a = b then (a, s :: tails) :: groups else (a, [s]) :: (b, tails) :: groups
    | [] => [(a, [s])]

/-- The number of the state that reads one of the sequences, which are at most `depth` long, with
the states so far. The state behind all sequences has the number zero. -/
def treeState : (depth : Nat) → List (List ByteRange) → TreeStates → Nat × TreeStates
  | 0, _, states => (0, states)
  | depth + 1, sequences, states =>
    match byFirst sequences with
    | [] => (0, states)
    | groups =>
      let start : List (ByteRange × Nat) × TreeStates := ([], states)
      let (transitions, states) := groups.foldl (fun (transitions, states) (range, tails) =>
        let (target, states) := treeState depth tails states
        ((range, target) :: transitions, states)) start
      match states[transitions]? with
      | some number => (number, states)
      | none => (states.size + 1, states.insert transitions (states.size + 1))

/-- The room of a set of characters. -/
def setRoom (d : Reading) (s : CharSet) : Nat :=
  if s.ranges.all fun r => r.2 < 0x80 then 2 * stateRoom + s.ranges.length * transitionRoom
  else
    let sequences := s.ranges.flatMap byteRanges
    match d with
    | .forward =>
      let (_, states) := treeState 4 sequences ∅
      states.fold (fun room transitions _ => room + stateRoom + transitions.length * transitionRoom)
        stateRoom
    | .backward => 2 * stateRoom + sharedRoom [] sequences

/-! ## Choices between texts

Such a choice is a tree in which texts share what they begin with. A state of the tree has its
transitions in *chunks*: a text that ends at the state comes before later texts that go on. -/

/-- Cuts a list of texts where one of them ends. A text that ends repeatedly before any other goes
on counts once. -/
def chunks (texts : List (List Nat)) : List (List (List Nat)) :=
  let rec cut (chunk : List (List Nat)) : List (List Nat) → List (List (List Nat))
    | [] => [chunk.reverse]
    | [] :: rest => chunk.reverse :: cut [] rest
    | t :: rest => cut (t :: chunk) rest
  match texts with
  | [] :: rest => cut [] ([] :: rest.dropWhile List.isEmpty)
  | texts => cut [] texts

/-- The room of the state at which the given texts, at most `depth` long, remain to be read, and of
all states behind it. -/
def textsRoom : (depth : Nat) → List (List Nat) → Nat
  | 0, _ => 0
  | depth + 1, texts =>
    if texts.all List.isEmpty then 0
    else
      let parts := chunks texts
      let chunkRoom (chunk : List (List Nat)) : Nat :=
        let firsts := (chunk.filterMap List.head?).eraseDups
        let own := match firsts with
          | [] => 0
          | [_] => stateRoom
          | _ => stateRoom + firsts.length * transitionRoom
        firsts.foldl (fun room b =>
          room + textsRoom depth (chunk.filterMap fun t =>
            if t.head? = some b then some t.tail else none)) own
      let successors := (parts.filter fun chunk => !chunk.isEmpty).length + (parts.length - 1)
      parts.foldl (fun room chunk => room + chunkRoom chunk) (stateRoom + successors * branchRoom)

/-- The room of a choice between texts. -/
def literalsRoom (d : Reading) (texts : List (List Char)) : Nat :=
  let texts := texts.map fun t =>
    let bytes := t.flatMap bytesOf
    match d with
    | .forward => bytes
    | .backward => bytes.reverse
  let depth := texts.foldl (fun n t => Nat.max n t.length) 0
  stateRoom + textsRoom (depth + 1) texts

/-! ## Patterns -/

/-- The room of a pattern. -/
inductive Room where
  /-- The bytes, and whether the last state branches. Then every state behind the pattern is one
  more successor of it. -/
  | plain (bytes : Nat) (branching : Bool)
  /-- A choice: the bytes of its branches with the ways to them and from them, and all branches if
  they are texts. -/
  | choice (bytes : Nat) (texts? : Option (List (List Char)))
  deriving Repr, Inhabited

namespace Room

/-- The bytes. -/
def total (d : Reading) : Room → Nat
  | plain bytes _ => bytes
  | choice _ (some texts) => literalsRoom d texts
  | choice bytes none => 2 * stateRoom + bytes

/-- The bytes that a state behind the pattern adds to the last state. -/
def link : Room → Nat
  | plain _ true => branchRoom
  | _ => 0

/-- The bytes with the ways to and from a branch of a choice. -/
def asBranch (d : Reading) (r : Room) : Nat := r.total d + branchRoom + r.link

/-- The same without its branches. -/
def closed (d : Reading) (r : Room) : Room := plain (r.total d) (r.link != 0)

/-- One after the other. -/
def followedBy (d : Reading) (a b : Room) : Room :=
  plain (a.total d + a.link + b.total d) (b.link != 0)

/-- A fixed number of times. -/
def exactly (d : Reading) (r : Room) : Nat → Room
  | 0 => plain stateRoom false
  | n + 1 => plain ((n + 1) * r.total d + n * r.link) (r.link != 0)

/-- Between `min` and `max` times; `mayBeEmpty` says that the pattern can match the empty text. -/
def repeated (d : Reading) (r : Room) (mayBeEmpty : Bool) (min : Nat) : (max : Option Nat) → Room
  | some max =>
    if min = 0 ∧ max = 1 then
      plain (r.total d + 2 * stateRoom + 2 * branchRoom + r.link) false
    else if min = max then r.exactly d min
    else
      let start := r.exactly d min
      let copy := r.total d + stateRoom + 2 * branchRoom + r.link
      plain (start.total d + start.link + stateRoom + (max - min) * copy) false
  | none =>
    match min with
    | 0 =>
      if mayBeEmpty then plain (r.total d + r.link + 3 * stateRoom + 4 * branchRoom) false
      else plain (r.total d + r.link + stateRoom + branchRoom) true
    | n => plain (n * (r.total d + r.link) + stateRoom + branchRoom) true

end Room

/-- The text of a pattern that is one. -/
def text? : Pattern → Option (List Char)
  | text s => some s
  | _ => none

/-- The room of the automaton of a pattern. -/
def room (d : Reading) : Pattern → Room
  | empty | place _ => .plain stateRoom false
  | text s => .plain ((s.flatMap bytesOf).length * stateRoom) false
  | chars s => .plain (setRoom d s) false
  | cat p q =>
    match d with
    | .forward => (room d p).followedBy d (room d q)
    | .backward => (room d q).followedBy d (room d p)
  | alt p q =>
    match room d q with
    | .choice bytes texts? =>
      .choice ((room d p).asBranch d + bytes) (do return (← p.text?) :: (← texts?))
    | r => .choice ((room d p).asBranch d + r.asBranch d) (do return [← p.text?, ← q.text?])
  | repeated p min max =>
    (room d p).repeated d (!p.leastLength?.any (0 < ·)) min max
  | group _ p =>
    match d with
    | .forward => .plain ((room d p).total d + (room d p).link + 2 * stateRoom) false
    | .backward => (room d p).closed d

/-- The room of the whole automaton: a state at the beginning, the pattern, which is a group when
read forwards, and a state at the end. -/
def wholeRoom (d : Reading) (p : Pattern) : Nat :=
  let whole := room d (group 0 p)
  whole.total d + whole.link + 2 * stateRoom

/-- The greatest room of an automaton. -/
def roomLimit : Nat := 10485760

/-- Whether one of the automata of a pattern takes too much memory. -/
def isTooLarge (p : Pattern) : Bool :=
  roomLimit < wholeRoom .forward p || roomLimit < wholeRoom .backward p

end MarkupGrammar.Pattern
