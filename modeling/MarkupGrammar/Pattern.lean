import MarkupGrammar.Character.Property

/-! # Patterns

Regular expressions over characters, with assertions about the place in a text, and their meaning.

A place in a text is given by the number of characters before it. `run text p places` has the places
where a match of `p` can end that begins at one of the given places; places are listed in descending
order. Choice is union, and a repetition is run until no place is new. -/

namespace MarkupGrammar

/-! ## Places in a text -/

/-- Which characters make up words. -/
inductive Alphabet where
  | unicode
  | ascii
  deriving DecidableEq, Repr, Inhabited

/-- A character of a word. -/
def Alphabet.isWord (a : Alphabet) (c : Char) : Bool :=
  if c.toNat < 128 then c.isAlphanum || c == '_'
  else a == .unicode && Character.wordCharacter.contains c

/-- Where a place is, compared with the words around it. -/
inductive Edge where
  /-- At the beginning or at the end of a word. -/
  | either
  /-- Neither at the beginning nor at the end of a word. -/
  | none
  | start
  | finish
  /-- Not behind a character of a word. -/
  | startHalf
  /-- Not before a character of a word. -/
  | finishHalf
  deriving DecidableEq, Repr, Inhabited

/-- Whether the place is there, given whether characters of words are before and after it. -/
def Edge.holds (e : Edge) (before after : Bool) : Bool :=
  match e with
  | .either => before != after
  | .none => before == after
  | .start => !before && after
  | .finish => before && !after
  | .startHalf => !before
  | .finishHalf => !after

/-- What ends a line. -/
inductive LineEnd where
  /-- A line feed. -/
  | feed
  /-- A carriage return, a line feed, or both in this order. -/
  | either
  deriving DecidableEq, Repr, Inhabited

/-- A condition on a place in a text. -/
inductive Place where
  /-- The beginning of the text. -/
  | textStart
  /-- The end of the text. -/
  | textEnd
  /-- The beginning of a line. -/
  | lineStart (e : LineEnd)
  /-- The end of a line. -/
  | lineEnd (e : LineEnd)
  /-- A place inside, outside or at the edge of words. -/
  | word (e : Edge) (a : Alphabet)
  deriving DecidableEq, Repr, Inhabited

/-- Whether the condition holds between the given characters; at an end of the text there is
none. -/
def Place.holds (p : Place) (before after : Option Char) : Bool :=
  match p with
  | .textStart => before.isNone
  | .textEnd => after.isNone
  | .lineStart .feed => before.isNone || before == some '\n'
  | .lineEnd .feed => after.isNone || after == some '\n'
  | .lineStart .either =>
    before.isNone || before == some '\n' || (before == some '\r' && after != some '\n')
  | .lineEnd .either =>
    after.isNone || after == some '\r' || (after == some '\n' && before != some '\r')
  | .word e a => e.holds (before.any a.isWord) (after.any a.isWord)

/-! ## Patterns and their meaning -/

/-- A regular expression. -/
inductive Pattern where
  /-- The empty text. -/
  | empty
  /-- The given characters, one after the other. -/
  | text (s : List Char)
  /-- A character of a set. -/
  | chars (s : CharSet)
  /-- The empty text, at certain places. -/
  | place (p : Place)
  /-- One after the other. -/
  | cat (p q : Pattern)
  /-- One of the two. -/
  | alt (p q : Pattern)
  /-- At least `min` times and at most `max` times, or without an upper bound. -/
  | repeated (p : Pattern) (min : Nat) (max : Option Nat)
  /-- A group with a number, which matches like the pattern in it. -/
  | group (number : Nat) (p : Pattern)
  deriving DecidableEq, Repr, Inhabited

namespace Pattern

/-- The places of two lists in descending order. -/
def mergePlaces : List Nat → List Nat → List Nat
  | [], t => t
  | s, [] => s
  | a :: s, b :: t =>
    if b < a then a :: mergePlaces s (b :: t)
    else if a < b then b :: mergePlaces (a :: s) t
    else a :: mergePlaces s t
  termination_by s t => s.length + t.length

/-- The places of the first list in descending order that are not in the second. -/
def newPlaces : List Nat → List Nat → List Nat
  | [], _ => []
  | s, [] => s
  | a :: s, b :: t =>
    if b < a then a :: newPlaces s (b :: t)
    else if a < b then newPlaces (a :: s) t
    else newPlaces s t
  termination_by s t => s.length + t.length

/-- Applies a step a number of times, stopping when it changes nothing. -/
def iterate (step : List Nat → List Nat) : Nat → List Nat → List Nat
  | 0, places => places
  | n + 1, places =>
    let next := step places
    if next == places then places else iterate step n next

/-- Applies a step up to a number of times to the places that are new each time, and gives them all
together with those already seen. -/
def spread (step : List Nat → List Nat) : Nat → (seen new : List Nat) → List Nat
  | 0, seen, _ => seen
  | n + 1, seen, new =>
    match newPlaces (step new) seen with
    | [] => seen
    | more => spread step n (mergePlaces more seen) more

/-- The places behind a character that satisfies a condition. -/
def stepOver (text : Array Char) (holds : Char → Bool) (places : List Nat) : List Nat :=
  places.filterMap fun i => if text[i]?.any holds then some (i + 1) else none

/-- The places where a match can end that begins at one of the given places. Past as many
repetitions as the text has places, more of them reach nothing new. -/
def run (text : Array Char) : Pattern → List Nat → List Nat
  | .empty, places => places
  | .text s, places => s.foldl (fun places c => stepOver text (· == c) places) places
  | .chars s, places => stepOver text s.contains places
  | .place p, places =>
    places.filter fun i => p.holds (if i = 0 then none else text[i - 1]?) text[i]?
  | .cat p q, places => run text q (run text p places)
  | .alt p q, places => mergePlaces (run text p places) (run text q places)
  | .repeated p min max, places =>
    let more := match max with
      | some max => Nat.min (max - min) (text.size + 1)
      | none => text.size + 1
    let places := iterate (run text p) min places
    spread (run text p) more places places
  | .group _ p, places => run text p places

/-- Whether some part of the text matches. -/
def occursIn (p : Pattern) (text : List Char) : Bool :=
  !(run text.toArray p (List.range (text.length + 1)).reverse).isEmpty

end Pattern

end MarkupGrammar
