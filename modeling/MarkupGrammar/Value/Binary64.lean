import MarkupGrammar.Value.Decimal

/-! # Binary floating-point numbers

Numbers with a sign, 11 bits of exponent and 52 bits of fraction, kept as their 64 bits. Zero has
one representation, the positive one, and so has the value that is no number.

* Reading rounds the exact decimal value to the nearest number, a tie to the even neighbour; a value
  beyond the greatest number is infinite (`roundRatio`).
* Writing gives the fewest digits that read back as the number, of these the nearest, and of two
  equally near the greater; never an exponent (`shortest`). -/

namespace MarkupGrammar

/-- A binary floating-point number, by its bits. -/
structure Binary64 where
  /-- Sign, exponent and fraction. -/
  bits : UInt64
  deriving DecidableEq, Repr, Inhabited

namespace Binary64

/-- The bits of positive infinity. -/
def infinityBits : Nat := 0x7FF * Nat.pow 2 52

/-- The weight of the sign bit. -/
def signBit : Nat := Nat.pow 2 63

/-- Positive infinity. -/
def infinity : Binary64 := ⟨infinityBits.toUInt64⟩

/-- Negative infinity. -/
def negativeInfinity : Binary64 := ⟨(signBit + infinityBits).toUInt64⟩

/-- The value that is no number. -/
def nan : Binary64 := ⟨(infinityBits + Nat.pow 2 51).toUInt64⟩

/-- The bits without the sign. -/
def magnitude (x : Binary64) : Nat := x.bits.toNat % signBit

/-- The sign bit. -/
def isNegative (x : Binary64) : Bool := signBit ≤ x.bits.toNat

/-- Whether the value is no number. -/
def isNan (x : Binary64) : Bool := infinityBits < x.magnitude

/-- The place of a number in the order of the numbers. -/
def rank (x : Binary64) : Int := if x.isNegative then -(x.magnitude : Int) else x.magnitude

/-- The order of the numbers; no number is below, above or equal to the value that is none. -/
def compare? (x y : Binary64) : Option Ordering :=
  if x.isNan || y.isNan then none else some (Ord.compare x.rank y.rank)

/-- The number of decimal digits of `n`. -/
def digitCount (n : Nat) : Nat := (Nat.toDigits 10 n).length

/-- `num / 2 ^ q` as a ratio. -/
def scaleDown (num den : Nat) (q : Int) : Nat × Nat :=
  if 0 ≤ q then (num, den * Nat.pow 2 q.toNat) else (num * Nat.pow 2 (-q).toNat, den)

/-- The quotient rounded to the nearest whole number, a tie to the even one. -/
def roundHalfEven (num den : Nat) : Nat :=
  let quotient := num / den
  let rest := 2 * (num % den)
  if rest > den || (rest == den && quotient % 2 == 1) then quotient + 1 else quotient

/-- The bits of the number nearest to a positive ratio. -/
def roundRatio (num den : Nat) : Nat :=
  let low : Int := (Nat.log2 num : Int) - (Nat.log2 den : Int) - 53
  let (n, d) := scaleDown num den low
  let q : Int := max (if Nat.pow 2 53 ≤ n / d then low + 1 else low) (-1074)
  let (n, d) := scaleDown num den q
  let fraction := roundHalfEven n d
  if fraction < Nat.pow 2 52 then fraction
  else min ((q + 1075).toNat * Nat.pow 2 52 + (fraction - Nat.pow 2 52)) infinityBits

/-- The number nearest to `mantissa * 10 ^ exponent`. Far beyond the range of exponents the power of
ten is not computed. -/
def ofScientific (negative : Bool) (mantissa : Nat) (exponent : Int) : Binary64 :=
  let size := (digitCount mantissa : Int) + exponent
  let bits :=
    if mantissa = 0 || size < -330 then 0
    else if size > 310 then infinityBits
    else if 0 ≤ exponent then roundRatio (mantissa * Nat.pow 10 exponent.toNat) 1
    else roundRatio mantissa (Nat.pow 10 (-exponent).toNat)
  if negative && bits != 0 then ⟨(signBit + bits).toUInt64⟩ else ⟨bits.toUInt64⟩

/-! ## Writing -/

/-- `10 ^ k` as a ratio. -/
def powerOfTen (k : Int) : Nat × Nat :=
  if 0 ≤ k then (Nat.pow 10 k.toNat, 1) else (1, Nat.pow 10 (-k).toNat)

/-- Of the two neighbours of `value / den` on the grid of multiples of `10 ^ k`, as multiples, the
one to write: it lies between `low / den` and `high / den`, ends included if `closed`, and no other
one does or is nearer. -/
def onGrid? (low value high den : Nat) (closed : Bool) (k : Int) : Option Nat :=
  let (u, v) := powerOfTen k
  let below := value * v / (den * u)
  let inside (c : Nat) : Bool :=
    if closed then low * v ≤ c * u * den && c * u * den ≤ high * v
    else low * v < c * u * den && c * u * den < high * v
  let above := below + 1
  match inside below, inside above with
  | true, true =>
    if 2 * (value * v) < (below + above) * u * den then some below else some above
  | true, false => some below
  | false, true => some above
  | false, false => none

/-- The first grid with a neighbour to write, from `k` on to finer ones, and that neighbour. -/
def firstGrid (low value high den : Nat) (closed : Bool) : (fuel : Nat) → (k : Int) → Nat × Int
  | 0, k => (value, k)
  | fuel + 1, k =>
    match onGrid? low value high den closed k with
    | some c => (c, k)
    | none => firstGrid low value high den closed fuel (k - 1)

/-- Digits and an exponent of ten: the shortest decimal that reads back as the positive number with
the given bits. Seventeen digits always suffice. -/
def shortest (bits : Nat) : Nat × Int :=
  let exponent : Nat := bits / Nat.pow 2 52
  let fraction : Nat := bits % Nat.pow 2 52
  let m := if exponent = 0 then fraction else fraction + Nat.pow 2 52
  let q : Int := if exponent = 0 then -1074 else (exponent : Int) - 1075
  -- In quarters of the last place the interval ends at 2, or at 1 below a power of two.
  let margin := if fraction = 0 && exponent > 1 then 1 else 2
  let (up, den) := if 2 ≤ q then (Nat.pow 2 (q - 2).toNat, 1) else (1, Nat.pow 2 (2 - q).toNat)
  let value := 4 * m * up
  let a : Int := digitCount value
  let b : Int := digitCount den
  let (u, v) := powerOfTen (a - b)
  let leading : Int := if u * den ≤ value * v then a - b else a - b - 1
  firstGrid ((4 * m - margin) * up) value ((4 * m + 2) * up) den (m % 2 == 0) 18 leading

/-- Removes the trailing zeros of digits, each raising the exponent by one. -/
def dropZeros : (fuel : Nat) → Nat × Int → Nat × Int
  | 0, d => d
  | fuel + 1, (c, k) => if c % 10 = 0 ∧ c ≠ 0 then dropZeros fuel (c / 10, k + 1)
    else (c, k)

/-- `digits * 10 ^ k` in positional form. -/
def positional (digits : Nat) (k : Int) : String :=
  if 0 ≤ k then toString (digits * Nat.pow 10 k.toNat)
  else
    let places := (-k).toNat
    let s := Text.padded (places + 1) digits
    let whole := s.length - places
    (s.take whole).toString ++ "." ++ (s.drop whole).toString

/-- The written form. -/
def text (x : Binary64) : String :=
  if x.isNan then "NaN"
  else
    let sign := if x.isNegative then "-" else ""
    if x.magnitude = infinityBits then sign ++ "inf"
    else if x.magnitude = 0 then sign ++ "0"
    else
      let (digits, k) := dropZeros 20 (shortest x.magnitude)
      sign ++ positional digits k

/-! ## Reading -/

/-- The form of a number: a decimal number, with an exponent or without; digits of any script. -/
def isForm (s : List Char) : Bool :=
  let unsigned := Decimal.dropSign s
  let isMark (c : Char) : Bool := c == 'e' || c == 'E'
  Decimal.isUnsignedForm (unsigned.takeWhile (!isMark ·)) &&
    match unsigned.dropWhile (!isMark ·) with
    | [] => true
    | _ :: exponent => Decimal.isWholeForm exponent

/-- The digits around a point as one whole number, and the number of places. -/
def mantissa? (s : List Char) : Option (Nat × Nat) :=
  let whole := s.takeWhile (· != '.')
  let places := (s.dropWhile (· != '.')).drop 1
  (Text.digits? 10 (whole ++ places)).map fun m => (m, places.length)

/-- The number with the form of a number, unless a digit is of another script. -/
def read? (s : List Char) : Option Binary64 :=
  let unsigned := Decimal.dropSign s
  let isMark (c : Char) : Bool := c == 'e' || c == 'E'
  match mantissa? (unsigned.takeWhile (!isMark ·)) with
  | none => none
  | some (m, places) =>
    let exponent? := match unsigned.dropWhile (!isMark ·) with
      | [] => some 0
      | _ :: exponent => Text.signed? 10 exponent
    exponent?.map fun e => ofScientific (s.head? == some '-') m (e - places)

end Binary64

end MarkupGrammar
