import MarkupGrammar.Text.Numeral

/-! # Occurrence ranges

How often a particle may be repeated: at least `min` times and at most `max` times, or without an
upper bound. The bounds are below 2 to the 32. The written form is the repetition operator where
there is one (`?`, `*`, `+`, nothing for exactly once) and the two bounds in curly brackets
otherwise.

What occurs is counted in 32 bits: a counter that has come to the last number starts again at
zero. -/

namespace MarkupGrammar

/-! ## Counters -/

namespace Counter

/-- How many numbers a counter has. -/
def bound : Nat := Nat.pow 2 32

/-- The counter after one more. -/
def next (count : Nat) : Nat := (count + 1) % bound

theorem bound_pos : 0 < bound := by decide

theorem next_zero : next 0 = 1 := rfl

theorem next_lt (count : Nat) : next count < bound := Nat.mod_lt _ bound_pos

/-- Counting on from a number that is too great is counting on from where the counter stands. -/
theorem next_mod (count : Nat) : next (count % bound) = next count := Nat.mod_add_mod count bound 1

/-- A counter gives different numbers until it has gone round. -/
theorem next_ne {m n : Nat} (h : m < n) (hround : n < m + bound) : next m ≠ next n := by
  have hbound : bound = 4294967296 := rfl
  rw [hbound] at hround
  rw [next, next, hbound]
  omega

end Counter

/-! ## Ranges -/

/-- An occurrence range. -/
structure Occurs where
  /-- The least number of repetitions. -/
  min : Nat
  /-- The greatest number of repetitions, absent when there is none. -/
  max : Option Nat
  deriving DecidableEq, Repr, Inhabited

namespace Occurs

/-- Exactly one. -/
def once : Occurs := ⟨1, some 1⟩

/-- At most one. -/
def optional : Occurs := ⟨0, some 1⟩

/-- Any number. -/
def zeroOrMore : Occurs := ⟨0, none⟩

/-- At least one. -/
def oneOrMore : Occurs := ⟨1, none⟩

/-- No repetition is required. -/
def isEmptiable (o : Occurs) : Bool := o.min == 0

/-- No repetition is allowed. -/
def isEmpty (o : Occurs) : Bool := o.max == some 0

/-- At most one repetition is allowed. -/
def isSingle (o : Occurs) : Bool := o.max == some 1

/-- One of the four ranges that have an operator of their own. -/
def isBasic (o : Occurs) : Bool := o.min ≤ 1 && (o.max == some 1 || o.max == none)

/-- After `count` repetitions more are required. -/
def isMissing (o : Occurs) (count : Nat) : Bool := count < o.min

/-- After `count` repetitions no more are allowed. -/
def isOver (o : Occurs) (count : Nat) : Bool :=
  match o.max with
  | some max => max ≤ count
  | none => false

/-- What is wrong with an occurrence range. -/
inductive Fault where
  /-- The lower bound is above the upper one. -/
  | reversed (min max : Nat)
  /-- The lower bound is no number. -/
  | badMin
  /-- The upper bound is neither a number nor the word for no bound. -/
  | badMax
  deriving DecidableEq, Repr, Inhabited

/-- The report of a fault. -/
def Fault.message : Fault → String
  | .reversed min max => s!"minOccurs {min} is greater than maxOccurs {max}"
  | .badMin => "minOccurs value is not a valid non-negative integer"
  | .badMax => "maxOccurs value must be a non-negative integer or 'unbounded'"

/-- Accepts the ranges whose bounds are in order. -/
def check (o : Occurs) : Except Fault Unit :=
  match o.max with
  | some max => if o.min > max then .error (.reversed o.min max) else .ok ()
  | none => .ok ()

/-- The written form. -/
def text (o : Occurs) : String :=
  match o.min, o.max with
  | 1, some 1 => ""
  | 0, some 1 => "?"
  | 0, none => "*"
  | 1, none => "+"
  | min, none => Text.braced s!"{min},"
  | min, some max => Text.braced s!"{min},{max}"

/-! ## Reading -/

/-- The value of one bound, between blanks. -/
def bound? (s : List Char) : Option Nat := (Text.unsigned? 10 s).filter (· < Nat.pow 2 32)

/-- The range with the two written bounds, each one when it is not given. -/
def parse (min? max? : Option String) : Except Fault Occurs := do
  let min ← match min? with
    | none => pure 1
    | some s => match bound? (Text.trimBlanks s.toList) with
      | some n => pure n
      | none => throw .badMin
  let max ← match max? with
    | none => pure (some 1)
    | some s =>
      let s := Text.trimBlanks s.toList
      if s = "unbounded".toList then pure none
      else match bound? s with
        | some n => pure (some n)
        | none => throw .badMax
  let o : Occurs := ⟨min, max⟩
  o.check
  return o

end Occurs

end MarkupGrammar
