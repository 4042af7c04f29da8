import MarkupGrammar.Character.Folding
import MarkupGrammar.Character.Named
import MarkupGrammar.Pattern.Options
import MarkupGrammar.Pattern.Simple

/-! # Escapes in pattern notation

A backslash gives the character behind it a meaning of its own, or takes one from it: escapes stand
for characters, for sets of characters, or for places in a text. Where classes are those of ASCII,
an escape for a set with other characters is wrong, and so is a byte that is no ASCII character. -/

namespace MarkupGrammar.Pattern

/-- What an escape stands for. -/
inductive Escape where
  | char (c : Char)
  | set (s : CharSet)
  | place (p : Place)
  deriving Repr, Inhabited

/-! ## Sets under options -/

/-- The set with the other case of its letters, where case is not told apart; within ASCII, only
ASCII letters have another case. -/
def Options.fold (o : Options) (s : CharSet) : CharSet :=
  if o.ignoreCase then
    if o.unicode then s.foldCase else s.union ((s.inter .ascii).foldCase.inter .ascii)
  else s

/-- The set or, if `negated`, all other characters; there is no such set within ASCII. -/
def Options.negate? (o : Options) (negated : Bool) (s : CharSet) : Option CharSet :=
  if negated then (if o.unicode then some s.complement else none) else some s

/-- The alphabet of words. -/
def Options.alphabet (o : Options) : Alphabet := if o.unicode then .unicode else .ascii

/-! ## Escapes for classes -/

/-- The class with a letter: digits, blanks or characters of words. -/
def classSet? (o : Options) (letter : Char) : Option CharSet :=
  match letter with
  | 'd' => some (if o.unicode then Character.decimalNumber else .ofText "30-39")
  | 's' => some (if o.unicode then Character.whiteSpace else .ofText "9-D 20")
  | 'w' => some (if o.unicode then Character.wordCharacter else .ofText "30-39 41-5A 5F 61-7A")
  | _ => none

/-- The set named in curly brackets: a name, or the name of a property and its value with a colon,
an equals sign or an unequals sign between them; all three have the same meaning. -/
def namedSet? (name : List Char) : Option CharSet :=
  match (Text.cutAt "!=".toList name).or ((Text.cut ':' name).or (Text.cut '=' name)) with
  | some (property, value) => Character.valued? property value
  | none => Character.named? name

/-- Reads a set named by one character or in curly brackets. -/
def property? (o : Options) (s : List Char) : Option (CharSet × List Char) := do
  let (name, rest) ← match o.skip s with
    | '\x7b' :: s => o.braced? false s
    | '\\' :: _ | [] => none
    | c :: s => some ([c], s)
  if o.unicode then return (o.fold (← namedSet? name), rest) else none

/-! ## Escapes for characters -/

/-- The character with the code point written in the digits, if it exists. -/
def charOfHex? (digits : List Char) : Option Char := do
  let n ← Text.digits? 16 digits
  if n < 0xD800 ∨ (0xDFFF < n ∧ n < 0x110000) then some (Char.ofNat n) else none

/-- The next characters, with what is passed over left out. -/
def takeNext (o : Options) : Nat → List Char → Option (List Char × List Char)
  | 0, s => some ([], s)
  | n + 1, s =>
    match o.skip s with
    | [] => none
    | c :: s => (takeNext o n s).map fun (cs, rest) => (c :: cs, rest)

/-- Reads a code point in curly brackets, or in `size` digits. Two digits stand for a byte, if
classes are those of ASCII. -/
def hexEscape? (o : Options) (size : Nat) (s : List Char) : Option (Char × List Char) := do
  match o.skip s with
  | '\x7b' :: s =>
    let (digits, rest) ← o.braced? false s
    return (← charOfHex? digits, rest)
  | s =>
    let (digits, rest) ← takeNext o size s
    let c ← charOfHex? digits
    if size = 2 ∧ !o.unicode ∧ 0x7F < c.toNat then none else some (c, rest)

/-! ## Escapes for places -/

/-- Reads the name of an edge of words in curly brackets. Anything but letters and hyphens in the
brackets may be the bounds of a repetition and is left alone. -/
def edge? (o : Options) (s : List Char) : Option (Edge × List Char) :=
  let isLetter (c : Char) : Bool := c.isAlpha || c == '-'
  match s with
  | '\x7b' :: inside =>
    match o.skip inside with
    | c :: _ =>
      if isLetter c then
        match o.braced? false inside with
        | some (name, rest) =>
          match String.ofList name with
          | "start" => some (.start, rest)
          | "end" => some (.finish, rest)
          | "start-half" => some (.startHalf, rest)
          | "end-half" => some (.finishHalf, rest)
          | _ => none
        | none => none
      else some (.either, s)
    | [] => none
  | s => some (.either, s)

/-! ## All escapes -/

/-- Reads what follows a backslash. Letters and digits have a meaning of their own or none; every
other ASCII character stands for itself, but angle brackets for the edges of words. -/
def escape? (o : Options) (s : List Char) : Option (Escape × List Char) :=
  match s with
  | [] => none
  | c :: s =>
    let word (e : Edge) : Escape := .place (.word e o.alphabet)
    let char (rest? : Option (Char × List Char)) : Option (Escape × List Char) :=
      rest?.map fun (c, rest) => (.char c, rest)
    match c with
    | 'd' | 's' | 'w' => (classSet? o c).map fun t => (.set t, s)
    | 'D' | 'S' | 'W' =>
      ((classSet? o c.toLower).bind (o.negate? true)).map fun t => (.set t, s)
    | 'p' => (property? o s).map fun (t, rest) => (.set t, rest)
    | 'P' => (property? o s).map fun (t, rest) => (.set t.complement, rest)
    | 'x' => char (hexEscape? o 2 s)
    | 'u' => char (hexEscape? o 4 s)
    | 'U' => char (hexEscape? o 8 s)
    | 'A' => some (.place .textStart, s)
    | 'z' => some (.place .textEnd, s)
    | 'b' => (edge? o s).map fun (e, rest) => (word e, rest)
    | 'B' => some (word .none, s)
    | '<' => some (word .start, s)
    | '>' => some (word .finish, s)
    | 'a' => some (.char (Char.ofNat 7), s)
    | 'f' => some (.char (Char.ofNat 12), s)
    | 't' => some (.char '\t', s)
    | 'n' => some (.char '\n', s)
    | 'r' => some (.char '\r', s)
    | 'v' => some (.char (Char.ofNat 11), s)
    | c => if c.toNat < 128 ∧ !c.isAlphanum then some (.char c, s) else none

end MarkupGrammar.Pattern
