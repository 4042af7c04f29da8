import MarkupGrammar.Text.Blank

/-! # Numerals

Whole numbers written in ASCII digits and letters of a radix up to 36. An unsigned numeral may begin
with a plus sign, a signed one with either sign; at least one digit follows. -/

namespace MarkupGrammar.Text

/-- The value of a digit of the given radix; letters count from ten, in either case. -/
def digitValue? (radix : Nat) (c : Char) : Option Nat :=
  let n := c.toNat
  let v? :=
    if 48 ≤ n && n ≤ 57 then some (n - 48)
    else if 97 ≤ n && n ≤ 122 then some (n - 87)
    else if 65 ≤ n && n ≤ 90 then some (n - 55)
    else none
  v?.filter (· < radix)

/-- Continues the reading of digits from the value read so far. -/
def digitsFrom? (radix value : Nat) : List Char → Option Nat
  | [] => some value
  | c :: s =>
    match digitValue? radix c with
    | some d => digitsFrom? radix (value * radix + d) s
    | none => none

/-- The value of a nonempty run of digits. -/
def digits? (radix : Nat) (s : List Char) : Option Nat :=
  if s.isEmpty then none else digitsFrom? radix 0 s

/-- The value of an unsigned numeral. -/
def unsigned? (radix : Nat) (s : List Char) : Option Nat :=
  match s with
  | '+' :: r => digits? radix r
  | s => digits? radix s

/-- The value of a signed numeral. -/
def signed? (radix : Nat) (s : List Char) : Option Int :=
  match s with
  | '-' :: r => (digits? radix r).map fun n => -(n : Int)
  | s => (unsigned? radix s).map fun n => (n : Int)

/-- The decimal numeral of `n` with zeros before it up to `width` digits. -/
def padded (width n : Nat) : String :=
  let digits := toString n
  String.ofList (List.replicate (width - digits.length) '0') ++ digits

/-- The hexadecimal numeral of `n` in lower case, with zeros before it up to `width` digits. -/
def hexPadded (width n : Nat) : String :=
  let digits := Nat.toDigits 16 n
  String.ofList (List.replicate (width - digits.length) '0' ++ digits)

end MarkupGrammar.Text
