import MarkupGrammar.Text.Numeral

/-! # Binary values

Bytes are written in base 16 or in base 64.

In base 16, every two digits stand for a byte. The length of the text is measured in bytes, and so
are the pairs, so a character of two bytes fills a pair of its own. A pair is read as an unsigned
numeral.

In base 64, every four symbols of the alphabet stand for three bytes. The last group may end in one
or two padding signs, and then stands for two bytes or one; the bits that it does not use are zero.
Blanks do not count. Positions are those of the bytes of the text without blanks. -/

/-! ## Base 16 -/

namespace MarkupGrammar.Hex

/-- Why a text is not in base 16. -/
inductive Fault where
  /-- A digit is left over. -/
  | oddLength
  /-- A pair ends within a character. -/
  | brokenPair
  /-- A pair is no number. -/
  | badPair (pair : String)
  deriving DecidableEq, Repr, Inhabited

/-- The report of a fault. -/
def Fault.message : Fault → String
  | .oddLength => "hexBinary value must have an even number of digits"
  | .brokenPair => "invalid hexBinary value"
  | .badPair pair => s!"invalid hexBinary digits '{pair}'"

/-- The byte that a pair stands for. -/
def readPair (pair : List Char) : Except Fault UInt8 :=
  match Text.unsigned? 16 pair with
  | some n => .ok n.toUInt8
  | none => .error (.badPair (String.ofList pair))

/-- The bytes that the pairs of a text stand for. -/
def readPairs : List Char → Except Fault (List UInt8)
  | [] => .ok []
  | [c] => if c.utf8Size = 2 then (readPair [c]).map ([·]) else .error .brokenPair
  | c :: d :: s =>
    if c.utf8Size = 2 then do
      let byte ← readPair [c]
      return byte :: (← readPairs (d :: s))
    else if c.utf8Size = 1 ∧ d.utf8Size = 1 then do
      let byte ← readPair [c, d]
      return byte :: (← readPairs s)
    else .error .brokenPair

/-- The bytes that a text stands for. -/
def read (s : String) : Except Fault (List UInt8) :=
  if s.utf8ByteSize % 2 = 1 then .error .oddLength else readPairs s.toList

end MarkupGrammar.Hex

/-! ## Base 64 -/

namespace MarkupGrammar.Base64

/-- Why a text is not in base 64. -/
inductive Fault where
  /-- A byte that does not belong where it is. -/
  | invalidByte (byte offset : Nat)
  /-- One symbol is left over. -/
  | lostSymbol
  /-- The last group is not filled up by padding. -/
  | unpadded
  /-- The last symbol has bits that stand for nothing. -/
  | lostBits (byte offset : Nat)
  deriving DecidableEq, Repr, Inhabited

/-- The report of a fault. -/
def Fault.message : Fault → String
  | .invalidByte byte offset => s!"Invalid byte {byte}, offset {offset}."
  | .lostSymbol => "Encoded text cannot have a 6-bit remainder."
  | .unpadded => "Invalid padding"
  | .lostBits byte offset => s!"Invalid last symbol {byte}, offset {offset}."

/-- The padding sign. -/
def padding : UInt8 := 61

/-- The six bits that a symbol stands for. -/
def symbolValue? (b : UInt8) : Option Nat :=
  let n := b.toNat
  if 65 ≤ n && n ≤ 90 then some (n - 65)
  else if 97 ≤ n && n ≤ 122 then some (n - 71)
  else if 48 ≤ n && n ≤ 57 then some (n + 4)
  else if n = 43 then some 62
  else if n = 47 then some 63
  else none

/-- The values of the symbols from position `offset` on. Once `padAt?` holds the position of a
padding sign, nothing but padding may follow; in a group it may begin at the third place. -/
def readSymbols (offset : Nat) (padAt? : Option Nat) : List UInt8 → Except Fault (List Nat)
  | [] => .ok []
  | b :: s =>
    if b = padding then
      let first := padAt?.getD offset
      if offset % 4 < 2 then .error (.invalidByte padding.toNat first)
      else readSymbols (offset + 1) (some first) s
    else match padAt? with
      | some first => .error (.invalidByte padding.toNat first)
      | none =>
        match symbolValue? b with
        | none => .error (.invalidByte b.toNat offset)
        | some v => (readSymbols (offset + 1) none s).map (v :: ·)

/-- The bytes that symbols stand for, and the bits left over. -/
def bytesOf : List Nat → List UInt8 × Nat
  | a :: b :: c :: d :: rest =>
    let n := ((a * 64 + b) * 64 + c) * 64 + d
    let (bytes, lost) := bytesOf rest
    ((n / 65536).toUInt8 :: (n / 256 % 256).toUInt8 :: (n % 256).toUInt8 :: bytes, lost)
  | [a, b, c] =>
    let n := (a * 64 + b) * 64 + c
    ([(n / 1024).toUInt8, (n / 4 % 256).toUInt8], n % 4)
  | [a, b] => ([((a * 64 + b) / 16).toUInt8], b % 16)
  | [a] => ([], a)
  | [] => ([], 0)

/-- The bytes that a text without blanks stands for. -/
def decode (s : List UInt8) : Except Fault (List UInt8) := do
  let size := s.length
  if size % 4 = 1 then
    let last := s.getLast?.getD padding
    if last ≠ padding ∧ symbolValue? last = none then throw (.invalidByte last.toNat (size - 1))
    else throw .lostSymbol
  let symbols ← readSymbols 0 none s
  if size % 4 ≠ 0 then throw .unpadded
  let (bytes, lost) := bytesOf symbols
  if lost ≠ 0 then
    throw (.lostBits ((s[symbols.length - 1]?).getD padding).toNat (symbols.length - 1))
  return bytes

/-- The bytes that a text stands for. -/
def read (s : List Char) : Except Fault (List UInt8) :=
  decode (String.ofList (s.filter (!Text.isBlank ·))).toUTF8.toList

end MarkupGrammar.Base64
