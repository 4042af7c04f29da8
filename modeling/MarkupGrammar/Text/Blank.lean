/-! # Blanks and pieces of text

A *blank* is a character of the Unicode property White_Space; trimming and splitting into words use
it. Markup knows four blanks only, the *markup blanks*: space, tab, line feed and carriage return.
Text is cut on lists of characters: `pieces` at the characters of a class, `cut` at the first
character of a kind. Before a literal is read as a value, its blanks are treated in one of three
ways (`Spacing`). -/

namespace MarkupGrammar.Text

/-- Whether `c` lies in one of the ranges of code points, ends included. -/
def inRanges (ranges : List (Nat × Nat)) (c : Char) : Bool :=
  ranges.any fun r => r.1 ≤ c.toNat && c.toNat ≤ r.2

/-- The characters of the property White_Space. -/
def blankRanges : List (Nat × Nat) :=
  [(0x9, 0xD), (0x20, 0x20), (0x85, 0x85), (0xA0, 0xA0), (0x1680, 0x1680), (0x2000, 0x200A),
   (0x2028, 0x2029), (0x202F, 0x202F), (0x205F, 0x205F), (0x3000, 0x3000)]

/-- White space in the sense of Unicode. -/
def isBlank (c : Char) : Bool := inRanges blankRanges c

/-- White space in the sense of markup. -/
def isMarkupBlank (c : Char) : Bool := c == ' ' || c == '\t' || c == '\n' || c == '\r'

/-! ## Trimming -/

/-- The text after its leading blanks. -/
def dropBlanks (s : List Char) : List Char := s.dropWhile isBlank

/-- The text before its trailing blanks. -/
def dropBlanksEnd (s : List Char) : List Char := (s.reverse.dropWhile isBlank).reverse

/-- The text between its leading and its trailing blanks. -/
def trimBlanks (s : List Char) : List Char := dropBlanksEnd (dropBlanks s)

/-- `trimBlanks` on strings. -/
def trim (s : String) : String := String.ofList (trimBlanks s.toList)

/-! ## Cutting -/

/-- The pieces of a text between the characters of a class, the piece begun in `piece` (reversed)
included. -/
def piecesFrom (isCut : Char → Bool) (piece : List Char) : List Char → List (List Char)
  | [] => [piece.reverse]
  | c :: s =>
    if isCut c then piece.reverse :: piecesFrom isCut [] s else piecesFrom isCut (c :: piece) s

/-- The pieces between the characters of a class; there is one more piece than such characters. -/
def pieces (isCut : Char → Bool) (s : List Char) : List (List Char) := piecesFrom isCut [] s

/-- The words of a text: its nonempty pieces between blanks. -/
def wordLists (s : List Char) : List (List Char) := (pieces isBlank s).filter (!·.isEmpty)

/-- The words of a string. -/
def words (s : String) : List String := (wordLists s.toList).map String.ofList

/-- The text before and the text after the first `c`. -/
def cut (c : Char) : List Char → Option (List Char × List Char)
  | [] => none
  | d :: s => if d = c then some ([], s) else (cut c s).map fun (a, b) => (d :: a, b)

/-- `cut` on strings. -/
def cutString (c : Char) (s : String) : Option (String × String) :=
  (cut c s.toList).map fun (a, b) => (String.ofList a, String.ofList b)

/-- The text after `start`, if it begins with it. -/
def after? : (start s : List Char) → Option (List Char)
  | [], s => some s
  | _ :: _, [] => none
  | a :: start, b :: s => if a = b then after? start s else none

/-- The text before and the text after the first occurrence of `mark`. -/
def cutAt (mark : List Char) : List Char → Option (List Char × List Char)
  | [] => (after? mark []).map fun rest => ([], rest)
  | c :: s =>
    match after? mark (c :: s) with
    | some rest => some ([], rest)
    | none => (cutAt mark s).map fun (a, b) => (c :: a, b)

/-! ## Writing -/

/-- The text in curly brackets. -/
def braced (s : String) : String := "\x7b" ++ s ++ "\x7d"

/-- The texts in order, with `separator` between any two. -/
def joined (separator : String) (parts : List String) : String := String.intercalate separator parts

end MarkupGrammar.Text

/-! ## White space in values

How blanks in a literal are treated before it is read as a value. Replacing turns each tab, line
feed and carriage return into a space; collapsing leaves single spaces between words. -/

namespace MarkupGrammar

/-- A treatment of blanks. -/
inductive Spacing where
  | preserve
  | replace
  | collapse
  deriving DecidableEq, Repr, Inhabited

namespace Spacing

/-- The written form. -/
def text : Spacing → String
  | preserve => "preserve"
  | replace => "replace"
  | collapse => "collapse"

/-- The treatment with the given written form. -/
def ofText? (s : String) : Option Spacing := [preserve, replace, collapse].find? (·.text == s)

/-- The literal after the treatment. -/
def normalize (w : Spacing) (s : String) : String :=
  match w with
  | preserve => s
  | replace => s.map fun c => if c == '\t' || c == '\n' || c == '\r' then ' ' else c
  | collapse => Text.joined " " (Text.words s)

end Spacing

end MarkupGrammar
