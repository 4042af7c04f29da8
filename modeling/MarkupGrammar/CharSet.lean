import MarkupGrammar.Text.Numeral

/-! # Sets of characters

A set of characters is a list of ranges of code points. The operations keep the ranges in ascending
order and apart from each other, so that a set has few ranges and one form. Large sets are written
as tables of code points in hexadecimal digits (`ofText`). -/

namespace MarkupGrammar

/-- A set of characters. -/
structure CharSet where
  /-- The ranges of code points, ends included. -/
  ranges : List (Nat × Nat)
  deriving DecidableEq, Repr, Inhabited

namespace CharSet

/-- Membership. -/
def contains (s : CharSet) (c : Char) : Bool :=
  s.ranges.any fun r => r.1 ≤ c.toNat && c.toNat ≤ r.2

/-- Whether the set has no member. -/
def isEmpty (s : CharSet) : Bool := s.ranges.isEmpty

/-- The only member of a set that has one member. -/
def single? (s : CharSet) : Option Char :=
  match s.ranges with
  | [(low, high)] => if low = high then some (Char.ofNat low) else none
  | _ => none

/-! ## Building sets -/

/-- Joins ranges that overlap or touch; they are in ascending order of their beginnings, and the
given one is before them. -/
def joinFrom : Nat × Nat → List (Nat × Nat) → List (Nat × Nat)
  | r, [] => [r]
  | (low, high), (low₂, high₂) :: rs =>
    if low₂ ≤ high + 1 then joinFrom (low, Nat.max high high₂) rs
    else (low, high) :: joinFrom (low₂, high₂) rs

/-- The set of the code points in the ranges. -/
def ofRanges (ranges : List (Nat × Nat)) : CharSet :=
  match (ranges.filter fun r => r.1 ≤ r.2).mergeSort fun r t => r.1 ≤ t.1 with
  | [] => ⟨[]⟩
  | r :: rs => ⟨joinFrom r rs⟩

/-- No character. -/
def empty : CharSet := ⟨[]⟩

/-- The characters from one code point to another, ends included. -/
def range (low high : Nat) : CharSet := ofRanges [(low, high)]

/-- One character. -/
def single (c : Char) : CharSet := ⟨[(c.toNat, c.toNat)]⟩

/-- The characters of a text. -/
def ofChars (s : List Char) : CharSet := ofRanges (s.map fun c => (c.toNat, c.toNat))

/-- The characters of either set. -/
def union (s t : CharSet) : CharSet := ofRanges (s.ranges ++ t.ranges)

/-- The characters of any of the sets. -/
def unions (sets : List CharSet) : CharSet := ofRanges (sets.flatMap ranges)

/-- The ranges between and around the given ones, from `low` on. -/
def gapsFrom (low : Nat) : List (Nat × Nat) → List (Nat × Nat)
  | [] => [(low, 0x10FFFF)]
  | r :: rs => (low, r.1 - 1) :: gapsFrom (r.2 + 1) rs

/-- The part of a range below and the part above the surrogates, which are no characters. -/
def withoutSurrogates (r : Nat × Nat) : List (Nat × Nat) :=
  [(r.1, Nat.min r.2 0xD7FF), (Nat.max r.1 0xE000, r.2)].filter fun r => r.1 ≤ r.2

/-- All other characters. -/
def complement (s : CharSet) : CharSet :=
  let gaps := match s.ranges with
    | (0, high) :: rs => gapsFrom (high + 1) rs
    | rs => gapsFrom 0 rs
  ofRanges (gaps.flatMap withoutSurrogates)

/-- The characters of both sets. -/
def inter (s t : CharSet) : CharSet := (s.complement.union t.complement).complement

/-- The characters of the first set that are not in the second. -/
def minus (s t : CharSet) : CharSet := s.inter t.complement

/-- The characters of one of the two sets and not of the other. -/
def difference (s t : CharSet) : CharSet := (s.minus t).union (t.minus s)

/-- All characters. -/
def all : CharSet := empty.complement

/-- The ASCII characters. -/
def ascii : CharSet := range 0 0x7F

/-! ## Tables -/

/-- The code points from `low` to `high` at equal distances. -/
def spaced (low high step : Nat) : List (Nat × Nat) :=
  (List.range ((high - low) / step + 1)).map fun i => (low + step * i, low + step * i)

/-- The ranges of an entry of a table: `41` is a code point, `41-5A` a range, and `41-4D/4` every
fourth code point of a range. -/
def entry (s : List Char) : List (Nat × Nat) :=
  let number (digits : List Char) : Nat := (Text.digits? 16 digits).getD 0
  match Text.cut '-' s with
  | none => [(number s, number s)]
  | some (low, rest) =>
    match Text.cut '/' rest with
    | none => [(number low, number rest)]
    | some (high, step) => spaced (number low) (number high) (number step)

/-- The set written as a table, entries with blanks between them. -/
def ofText (s : String) : CharSet := ofRanges ((Text.wordLists s.toList).flatMap entry)

end CharSet

end MarkupGrammar
