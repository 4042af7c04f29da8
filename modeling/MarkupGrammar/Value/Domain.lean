import MarkupGrammar.Character.Composition
import MarkupGrammar.Character.Direction
import MarkupGrammar.Value.Domain.Mapping

/-! # Domains

The names of hosts, in the characters of all scripts. A domain is brought into one form (`read?`):
characters that look alike are replaced, what can be left out is left out, composed characters are
used, and labels written in ASCII are decoded. Then every label is checked: it may not begin with a
mark, the joiner and the non-joiner need certain neighbours, and where some label is written from
right to left, every label must have one direction. -/

/-! ## Letters of other scripts in ASCII

A label of a domain can be written in ASCII: its ASCII characters come first, and behind a hyphen
follow numbers that say which other characters are to be inserted where. The characters are inserted
in the order of their code points, each number being the distance to the next insertion, and the
bases of the digits of a number follow the numbers before it. `decode?` reads this form; numbers are
kept below 2 to the 32. -/

namespace MarkupGrammar.Punycode

/-- The value of a digit: letters from zero to 25, then the decimal digits. -/
def digit? (c : Char) : Option Nat :=
  if c.isLower then some (c.toNat - 97)
  else if c.isUpper then some (c.toNat - 65)
  else if c.isDigit then some (c.toNat - 48 + 26)
  else none

/-- The least value of a digit at a place that has another digit behind it; `place` counts in steps
of 36. -/
def threshold (bias place : Nat) : Nat :=
  if place ≤ bias then 1 else if bias + 26 ≤ place then 26 else place - bias

/-- The bound of numbers. -/
def bound : Nat := Nat.pow 2 32

/-- Reads the digits of a number, the lowest one first, and adds it to `value`. -/
def number? (bias : Nat) : (place weight value : Nat) → List Char → Option (Nat × List Char)
  | _, _, _, [] => none
  | place, weight, value, c :: s =>
    match digit? c with
    | none => none
    | some d =>
      let value := value + d * weight
      let rest := weight * (36 - threshold bias place)
      if bound ≤ value then none
      else if d < threshold bias place then some (value, s)
      else if bound ≤ rest then none
      else number? bias (place + 36) rest value s

theorem number?_length {bias place weight value n : Nat} {s rest : List Char}
    (h : number? bias place weight value s = some (n, rest)) : rest.length < s.length := by
  induction s generalizing place weight value with
  | nil => simp [number?] at h
  | cons c s ih =>
    rw [number?] at h
    split at h
    · simp at h
    · dsimp only at h
      split at h
      · simp at h
      · split at h
        · simp only [Option.some.injEq, Prod.mk.injEq] at h
          rw [← h.2]
          exact Nat.lt_succ_self _
        · split at h
          · simp at h
          · exact Nat.lt_succ_of_lt (ih h)

/-- Divides a distance until it is small; `place` counts the divisions in steps of 36. -/
def settle (distance place : Nat) : Nat :=
  if 455 < distance then settle (distance / 35) (place + 36)
  else place + 36 * distance / (distance + 38)
  termination_by distance

/-- What the bases of the next number follow: the distance read last and the length of the text. -/
def adapt (distance length : Nat) (isFirst : Bool) : Nat :=
  let distance := if isFirst then distance / 700 else distance / 2
  settle (distance + distance / length) 0

/-- Reads numbers and inserts characters into `text`; the last one was inserted before `index` and
had the code point `code`. -/
def insertions? (bias code index : Nat) (text : List Char) (s : List Char) : Option (List Char) :=
  if s.isEmpty then some text
  else
    match _h : number? bias 36 1 index s with
    | none => none
    | some (value, rest) =>
      let length := text.length + 1
      let next := code + value / length
      if next < 0xD800 ∨ (0xDFFF < next ∧ next < 0x110000) then
        insertions? (adapt (value - index) length (index == 0)) next (value % length + 1)
          (text.insertIdx (value % length) (Char.ofNat next)) rest
      else none
  termination_by s.length
  decreasing_by exact number?_length _h

/-- The text that is written in ASCII. If there is nothing before the last hyphen, it is no mark but
a wrong digit. -/
def decode? (s : List Char) : Option (List Char) :=
  match Text.cut '-' s.reverse with
  | some (digits, start) =>
    if start.isEmpty then none else insertions? 72 128 0 start.reverse digits.reverse
  | none => insertions? 72 128 0 [] s

end MarkupGrammar.Punycode

namespace MarkupGrammar.Domain

open Character

/-! ## Characters -/

/-- The ASCII characters that no domain may contain. -/
def isForbidden (c : Char) : Bool :=
  c.toNat ≤ 0x20 || c.toNat == 0x7F || "%#/:<>?@[\\]^|".toList.contains c

/-- What a character is replaced by. -/
def mapped? (c : Char) : Option (List Char) :=
  if c.toNat < 0x80 then some [c.toLower]
  else if dropped.contains c then some []
  else (replacement.get? c).or (if kept.contains c then some [c] else none)

/-- A character that can stand in a domain and is not replaced. -/
def isSettled (c : Char) : Bool :=
  if c.toNat < 0x80 then !c.isUpper && c != '.' else kept.contains c

/-! ## Joiners -/

/-- Whether the first letter, what letters are joined across left out, is of the class. -/
def startsJoined (letters : CharSet) : List Char → Bool
  | [] => false
  | c :: s => letters.contains c || (transparent.contains c && startsJoined letters s)

/-- Whether every joiner and non-joiner stands behind a sign that joins consonants, or, if it is a
non-joiner, between letters that it keeps apart. `before` (reversed) has been checked. -/
def joinersFit (before : List Char) : List Char → Bool
  | [] => true
  | c :: s =>
    let fits :=
      if c.toNat = 0x200D ∨ c.toNat = 0x200C then
        before.head?.any graphemeLink.contains ||
          (c.toNat == 0x200C && startsJoined joinsNext before && startsJoined joinsPrevious s)
      else true
    fits && joinersFit (c :: before) s

/-! ## Directions -/

/-- Whether a label has one direction. It begins with a letter; marks at its end do not count. -/
def hasDirection (label : List Char) : Bool :=
  match label.map direction with
  | [] => true
  | .leftToRight :: rest =>
    let inner := (rest.reverse.dropWhile (· == .mark))
    inner.all (fun d => d != .rightToLeft && d != .foreignDigit) &&
      inner.head?.all (fun d => d == .leftToRight || d == .digit)
  | .rightToLeft :: rest =>
    let inner := (rest.reverse.dropWhile (· == .mark))
    inner.all (· != .leftToRight) &&
      inner.head?.all (fun d => d == .rightToLeft || d == .digit || d == .foreignDigit) &&
      !(inner.contains .digit && inner.contains .foreignDigit)
  | _ => false

/-- A character that is written from right to left, or a digit used with such characters. -/
def isRightToLeft (c : Char) : Bool :=
  0x80 ≤ c.toNat && (direction c == .rightToLeft || direction c == .foreignDigit)

/-! ## Labels and domains -/

/-- The greatest length of a label in ASCII, its mark left out. -/
def maxEncoded : Nat := 2000

/-- The greatest length of a label in other scripts. -/
def maxLabel : Nat := 1000

/-- Accepts the characters of a label. A label of ASCII characters is accepted as it is. -/
def isLabel (label : List Char) : Bool :=
  label.all (·.toNat < 0x80) ||
    (label.length ≤ maxLabel && !label.head?.any mark.contains && joinersFit [] label)

/-- The label in its own script. What is decoded must not have any further form. -/
def decoded? (label : List Char) : Option (List Char) :=
  match Text.after? "xn--".toList label with
  | none => some label
  | some code =>
    if code.isEmpty ∨ code.getLast? = some '-' ∨ maxEncoded < code.length ∨
        code.any (0x80 ≤ ·.toNat) then none
    else (Punycode.decode? code).filter fun s => s.all isSettled && compose s == s

/-- The form of a domain, if it is one; it can be empty. -/
def read? (s : List Char) : Option (List Char) := do
  let characters := (← s.mapM mapped?).flatten
  let characters := if characters.all (·.toNat < 0x80) then characters else compose characters
  let labels ← (Text.pieces (· == '.') characters).mapM decoded?
  let isSound := labels.all fun label => isLabel label && !label.any isForbidden
  let isOrdered := !(labels.any fun label => label.any isRightToLeft) || labels.all hasDirection
  if isSound ∧ isOrdered then return List.intercalate ['.'] labels else none

end MarkupGrammar.Domain
