import MarkupGrammar.Text.Letter

/-! # Decimal numbers

A decimal number is a whole number, the *mantissa*, divided by a power of ten, its *scale*. Numbers
are kept reduced: without a trailing zero after the decimal point, so that equal numbers are equal
values.

A literal is prepared for a *reader* of digits (`Decimal.read`): the sign is taken off, points at
the end are left out, and a zero is put before a point in front. What the reader gives gets the sign
and is reduced.

The bounded reader keeps a mantissa below 2 to the 96 and at most 28 places. Places are read as long
as both bounds allow it; the first place that does not fit rounds the number, half away from zero,
and the places after it do not count. Digits of other scripts look like digits to the test of the
form, but have no value here, wherever they stand. -/

namespace MarkupGrammar

/-- A decimal number, `mantissa / 10 ^ scale`. -/
structure Decimal where
  /-- The digits, with the sign of the number. -/
  mantissa : Int
  /-- The number of places after the point. -/
  scale : Nat
  /-- No trailing zero after the point. -/
  reduced : scale = 0 ∨ mantissa % 10 ≠ 0
  deriving DecidableEq, Repr

namespace Decimal

/-- Removes trailing places that are zero. -/
def strip (mantissa : Nat) : (scale : Nat) → Nat × Nat
  | 0 => (mantissa, 0)
  | scale + 1 => if mantissa % 10 = 0 then strip (mantissa / 10) scale else (mantissa, scale + 1)

theorem strip_reduced (mantissa scale : Nat) :
    (strip mantissa scale).2 = 0 ∨ (strip mantissa scale).1 % 10 ≠ 0 := by
  induction scale generalizing mantissa with
  | zero => exact Or.inl rfl
  | succ scale ih =>
    unfold strip
    split
    · exact ih _
    · next h => exact Or.inr h

/-- The number with the given sign, digits and scale. -/
def ofDigits (negative : Bool) (mantissa scale : Nat) : Decimal where
  mantissa :=
    if negative then -((strip mantissa scale).1 : Int) else ((strip mantissa scale).1 : Int)
  scale := (strip mantissa scale).2
  reduced := by
    rcases strip_reduced mantissa scale with h | h
    · exact Or.inl h
    · refine Or.inr ?_
      split <;> omega

/-- The whole number `n`. -/
def ofInt (n : Int) : Decimal := ⟨n, 0, Or.inl rfl⟩

instance : Inhabited Decimal := ⟨ofInt 0⟩

/-- The order of the numbers. -/
def compare (a b : Decimal) : Ordering :=
  Ord.compare (a.mantissa * Int.pow 10 b.scale) (b.mantissa * Int.pow 10 a.scale)

/-- The written form: all digits, with a point if there are places. -/
def text (d : Decimal) : String :=
  let sign := if d.mantissa < 0 then "-" else ""
  let digits := Text.padded (d.scale + 1) d.mantissa.natAbs
  if d.scale = 0 then sign ++ digits
  else
    let whole := digits.length - d.scale
    sign ++ (digits.take whole).toString ++ "." ++ (digits.drop whole).toString

/-! ## Reading digits -/

/-- Why digits of the right form are no number within the bounds. -/
inductive Fault where
  /-- The digits before the point do not fit. -/
  | tooManyDigits
  /-- The whole number does not fit after rounding. -/
  | roundedTooLarge
  /-- A digit of another script. -/
  | foreignDigit
  deriving DecidableEq, Repr, Inhabited

/-- The report of a fault. -/
def Fault.message : Fault → String
  | .tooManyDigits => "Invalid decimal: overflow from too many digits"
  | .roundedTooLarge => "Invalid decimal: overflow from mantissa after rounding"
  | .foreignDigit => "Invalid decimal: unknown character"

/-- A reader of digits, with a point among them or without: gives the number without the point, and
how many of its digits are places. -/
abbrev Reader := List Char → Except Fault (Nat × Nat)

/-- The bound of mantissas. -/
def mantissaBound : Nat := Nat.pow 2 96

/-- The greatest scale. -/
def maxScale : Nat := 28

/-- Rounds at the place `digit` that did not fit. If the rounded mantissa does not fit either, one
more place is given up. -/
def round (mantissa scale digit : Nat) : Except Fault (Nat × Nat) :=
  if digit < 5 then .ok (mantissa, scale)
  else if mantissa + 1 < mantissaBound then .ok (mantissa + 1, scale)
  else if scale = 0 then .error .roundedTooLarge
  else .ok ((mantissa + 1 + 4) / 10, scale - 1)

/-- Reads the places after the point. -/
def readPlaces (mantissa scale : Nat) : List Char → Except Fault (Nat × Nat)
  | [] => .ok (mantissa, scale)
  | c :: s =>
    match Text.digitValue? 10 c with
    | none => .error .foreignDigit
    | some d =>
      if maxScale ≤ scale ∨ mantissaBound ≤ mantissa * 10 + d then
        if s.all Char.isDigit then round mantissa scale d else .error .foreignDigit
      else readPlaces (mantissa * 10 + d) (scale + 1) s

/-- Reads digits with at most one point among them. -/
def readDigits (mantissa : Nat) : List Char → Except Fault (Nat × Nat)
  | [] => .ok (mantissa, 0)
  | c :: s =>
    if c = '.' then readPlaces mantissa 0 s
    else match Text.digitValue? 10 c with
      | none => .error .foreignDigit
      | some d =>
        if mantissaBound ≤ mantissa * 10 + d then .error .tooManyDigits
        else readDigits (mantissa * 10 + d) s

/-- The reader with the bounds. -/
def boundedReader : Reader := readDigits 0

/-! ## Reading literals -/

/-- The text after an optional sign. -/
def dropSign : List Char → List Char
  | '+' :: s | '-' :: s => s
  | s => s

/-- Digits, digits with a point, or a point with digits after it; digits of any script. -/
def isUnsignedForm (s : List Char) : Bool :=
  let whole := s.takeWhile Text.isDigit
  match s.dropWhile Text.isDigit with
  | [] => !whole.isEmpty
  | c :: places => c == '.' && places.all Text.isDigit && (!whole.isEmpty || !places.isEmpty)

/-- The form of a decimal number. -/
def isForm (s : List Char) : Bool := isUnsignedForm (dropSign s)

/-- The form of a whole number. -/
def isWholeForm (s : List Char) : Bool :=
  let digits := dropSign s
  !digits.isEmpty && digits.all Text.isDigit

/-- The text without a plus sign in front. -/
def dropPlus : List Char → List Char
  | '+' :: s => s
  | s => s

/-- Whether there is a minus sign in front, and the text behind it. -/
def splitMinus : List Char → Bool × List Char
  | '-' :: s => (true, s)
  | s => (false, s)

/-- The text without points at its end. -/
def dropPoints (s : List Char) : List Char := (s.reverse.dropWhile (· == '.')).reverse

/-- The text with a zero before a point in front. -/
def addZero : List Char → List Char
  | '.' :: s => '0' :: '.' :: s
  | s => s

/-- The number with the form of a decimal number. -/
def read (reader : Reader) (s : List Char) : Except Fault Decimal :=
  let (negative, digits) := splitMinus (dropPlus s)
  (reader (addZero (dropPoints digits))).map fun (mantissa, scale) =>
    ofDigits negative mantissa scale

end Decimal

end MarkupGrammar
