import MarkupGrammar.Character.Property
import MarkupGrammar.Text.Numeral

/-! # Quoted text

A text in double quotes, with escapes for the characters that would be misread. Some characters are
escaped by a letter behind a backslash, others by their code point. A `Quoting` says which. -/

namespace MarkupGrammar.Text

/-! ## Hidden characters

The characters that do not show by themselves: code points without a character, controls, formats,
characters for private use, separators other than the space, characters that extend the one before
them, and characters that may be ignored. -/

/-- The hidden characters. -/
def hidden : CharSet :=
  (CharSet.unions [Character.other, Character.separator, Character.graphemeExtend,
    Character.defaultIgnorable]).minus (.single ' ')

/-- A hidden character. -/
def isHidden (c : Char) : Bool :=
  if c.toNat < 128 then c.toNat < 32 || c.toNat == 127 else hidden.contains c

/-! ## Quotings -/

/-- How characters are escaped. -/
structure Quoting where
  /-- The characters that are escaped by a letter, with the letter. -/
  letters : List (Char × Char)
  /-- The characters that are escaped by their code point. -/
  isCoded : Char → Bool
  /-- The code point of such a character, as it stands behind the backslash. -/
  code : Char → String

namespace Quoting

/-- One character. -/
def escape (q : Quoting) (c : Char) : String :=
  match q.letters.lookup c with
  | some letter => String.ofList ['\\', letter]
  | none => if q.isCoded c then "\\" ++ q.code c else c.toString

/-- A text in quotes. -/
def quote (q : Quoting) (s : String) : String :=
  "\"" ++ String.join (s.toList.map q.escape) ++ "\""

/-- For reading by people: hidden characters are escaped, by the code point in curly brackets. -/
def display : Quoting where
  letters := [('\x00', '0'), ('\t', 't'), ('\n', 'n'), ('\r', 'r'), ('"', '"'), ('\\', '\\')]
  isCoded := isHidden
  code c := "u" ++ braced (hexPadded 1 c.toNat)

/-- For interchange: the controls below the space are escaped, by the code point in four digits. -/
def interchange : Quoting where
  letters :=
    [('"', '"'), ('\\', '\\'), ('\x08', 'b'), ('\t', 't'), ('\n', 'n'), ('\x0c', 'f'), ('\r', 'r')]
  isCoded c := c.toNat < 32
  code c := "u" ++ hexPadded 4 c.toNat

end Quoting

end MarkupGrammar.Text
