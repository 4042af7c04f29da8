import MarkupGrammar.CharSet

/-! # Maps from characters to texts

A map that gives some characters a text of one or more characters. Neighbouring characters often go
to neighbouring characters, so a map is a list of entries for ranges of code points. Maps are
written as tables of code points in hexadecimal digits (`ofText`). -/

namespace MarkupGrammar

/-- The characters from one code point to another at equal distances, and what they go to. -/
structure CharMap.Entry where
  low : Nat
  high : Nat
  step : Nat
  /-- Where the first character goes. -/
  target : List Nat
  deriving DecidableEq, Repr, Inhabited

/-- A map from characters to texts. -/
structure CharMap where
  entries : List CharMap.Entry
  deriving DecidableEq, Repr, Inhabited

namespace CharMap

/-- Where a code point goes. If the text has one character, it is as far from the first target as
the code point is from the first one of the entry. -/
def Entry.get? (e : Entry) (n : Nat) : Option (List Nat) :=
  if e.low ≤ n ∧ n ≤ e.high ∧ (n - e.low) % e.step = 0 then
    match e.target with
    | [first] => some [first + (n - e.low)]
    | target => some target
  else none

/-- The text that a character goes to. -/
def get? (m : CharMap) (c : Char) : Option (List Char) :=
  (m.entries.findSome? fun e => e.get? c.toNat).map fun target => target.map Char.ofNat

/-- All characters that the map has a text for, each with its text. -/
def toList (m : CharMap) : List (Nat × List Nat) :=
  m.entries.flatMap fun e =>
    (CharSet.spaced e.low e.high e.step).filterMap fun (n, _) => (e.get? n).map fun t => (n, t)

/-- Reads one entry of a table: `DF>73,73` takes one character to two, `41-5A>61` a range to a
range, and `100-12E/2>101` every second character of a range to the one behind it. -/
def entry? (s : List Char) : Option Entry := do
  let (source, target) ← Text.cut '>' s
  let (source, step) ← match Text.cut '/' source with
    | some (source, step) => (Text.digits? 16 step).map fun step => (source, step)
    | none => some (source, 1)
  let (low, high) := (Text.cut '-' source).getD (source, source)
  return {
    low := ← Text.digits? 16 low
    high := ← Text.digits? 16 high
    step
    target := ← (Text.pieces (· == ',') target).mapM (Text.digits? 16)
  }

/-- The map written as a table, entries with blanks between them. -/
def ofText (s : String) : CharMap := ⟨(Text.wordLists s.toList).filterMap entry?⟩

end CharMap

end MarkupGrammar
