import MarkupGrammar.Character.Category

/-! # Letters, digits and joiners

Three classes of characters by general category: the *letters* (categories L and Nl), the *decimal
digits* (Nd) and the *joiners*, the characters that attach to or connect the characters before them
(Mn, Mc and Pc). Names and numbers are described with them. For ASCII characters they are decided
without the tables. -/

namespace MarkupGrammar.Text

/-- The letters. -/
def letters : CharSet := Character.letter.union Character.letterNumber

/-- The joiners. -/
def joiners : CharSet :=
  .unions [Character.nonspacingMark, Character.spacingMark, Character.connectorPunctuation]

/-- Categories L and Nl. -/
def isLetter (c : Char) : Bool := if c.toNat < 128 then c.isAlpha else letters.contains c

/-- Category Nd. -/
def isDigit (c : Char) : Bool :=
  if c.toNat < 128 then c.isDigit else Character.decimalNumber.contains c

/-- Categories Mn, Mc and Pc. -/
def isJoiner (c : Char) : Bool := if c.toNat < 128 then c == '_' else joiners.contains c

end MarkupGrammar.Text
