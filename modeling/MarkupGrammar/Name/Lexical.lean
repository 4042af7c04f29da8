import MarkupGrammar.Text.Blank
import MarkupGrammar.Text.Letter

/-! # Lexical classes of names

A *name* begins with a letter, an underscore or a colon and continues with name characters; an
*uncolonized name* is one without colons; a *name token* is a nonempty run of name characters; a
*qualified name* is an uncolonized name, or two of them around a colon. -/

namespace MarkupGrammar.Lexical

open Text

/-- The characters that a name begins with, colon aside. -/
def isNameStart (c : Char) : Bool := isLetter c || c == '_'

/-- The characters of a name, colon aside: letters, digits, joiners, hyphen, full stop and the
middle dot. The underscore is a joiner. -/
def isNameChar (c : Char) : Bool :=
  isLetter c || isDigit c || isJoiner c || c == '-' || c == '.' || c.toNat == 0xB7

/-- Names; colons count as letters. -/
def isName (s : List Char) : Bool :=
  match s with
  | [] => false
  | c :: r => (isNameStart c || c == ':') && r.all fun d => isNameChar d || d == ':'

/-- Names without colons. -/
def isUncolonized (s : List Char) : Bool :=
  match s with
  | [] => false
  | c :: r => isNameStart c && r.all isNameChar

/-- Name tokens. -/
def isNameToken (s : List Char) : Bool :=
  !s.isEmpty && s.all fun d => isNameChar d || d == ':'

/-- Qualified names. -/
def isQualified (s : List Char) : Bool :=
  match cut ':' s with
  | some (label, localPart) => isUncolonized label && isUncolonized localPart
  | none => isUncolonized s

/-- The prefix of a qualified name, if it has a colon, and its local part. -/
def splitQualified (s : String) : Option String × String :=
  match cutString ':' s with
  | some (label, localPart) => (some label, localPart)
  | none => (none, s)

end MarkupGrammar.Lexical
