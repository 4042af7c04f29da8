import MarkupGrammar.Name
import MarkupGrammar.Text.Blank

/-! # Scanning well-formed markup

The small parts that well-formed markup is read by. Each reads from the front of a text and gives
what is left; there is no result where the text does not begin with such a part. -/

namespace MarkupGrammar.Markup

/-! ## Characters of markup

Which characters a document may hold, and which ones names are made of, by the grammar of markup.
Name characters are given by ranges of code points, and do not follow general categories. -/

/-- A character that may occur in a document. -/
def isCharacter (c : Char) : Bool :=
  if c.toNat < 0x20 then c == '\t' || c == '\n' || c == '\r'
  else c.toNat != 0xFFFE && c.toNat != 0xFFFF

/-- The characters that a name can begin with. -/
def nameStartRanges : List (Nat × Nat) :=
  [(0x41, 0x5A), (0x61, 0x7A), (0x3A, 0x3A), (0x5F, 0x5F), (0xC0, 0xD6), (0xD8, 0xF6),
  (0xF8, 0x2FF), (0x370, 0x37D), (0x37F, 0x1FFF), (0x200C, 0x200D), (0x2070, 0x218F),
  (0x2C00, 0x2FEF), (0x3001, 0xD7FF), (0xF900, 0xFDCF), (0xFDF0, 0xFFFD), (0x10000, 0xEFFFF)]

/-- The further characters of names. -/
def nameFurtherRanges : List (Nat × Nat) :=
  [(0x30, 0x39), (0x2D, 0x2E), (0xB7, 0xB7), (0x300, 0x36F), (0x203F, 0x2040)]

/-- A character that a name can begin with. -/
def isNameStart (c : Char) : Bool := Text.inRanges nameStartRanges c

/-- A character of a name. -/
def isNameCharacter (c : Char) : Bool := isNameStart c || Text.inRanges nameFurtherRanges c

/-! ## Names as written

A written name has a label, the part before its colon, if there is a colon. What the label stands
for is declared by attributes of the element and of those around it; the declarations in force are a
list, the innermost first, and one without a label is for names without a label. -/

/-- A name as written. -/
structure WrittenName where
  /-- The part before the colon. -/
  label? : Option String
  /-- The part behind it. -/
  localPart : String
  deriving DecidableEq, Repr, Inhabited

/-- The written name, cut at its first colon. -/
def WrittenName.ofString (s : String) : WrittenName :=
  match Text.cutString ':' s with
  | some (label, localPart) => ⟨some label, localPart⟩
  | none => ⟨none, s⟩

/-- The declarations in force: labels, and the namespaces that they stand for. -/
abbrev Declared := List (Option String × String)

/-! ## Parts of markup -/

namespace Scan

/-- The text after its blanks. -/
def skipBlanks (s : List Char) : List Char := s.dropWhile Text.isMarkupBlank

/-- The text after at least one blank. -/
def blanks? : List Char → Option (List Char)
  | [] => none
  | c :: s => if Text.isMarkupBlank c then some (skipBlanks s) else none

/-- The text after a character. -/
def character? (c : Char) : List Char → Option (List Char)
  | [] => none
  | d :: s => if d = c then some s else none

/-- The text after a mark, with the text before it, which holds characters of markup only. -/
def until? (mark : String) (s : List Char) : Option (List Char × List Char) := do
  let (inside, rest) ← Text.cutAt mark.toList s
  if inside.all isCharacter then some (inside, rest) else none

/-- The text begins with a mark. -/
def startsWith (mark : String) (s : List Char) : Bool := (Text.after? mark.toList s).isSome

/-- A name. -/
def name? (s : List Char) : Option (String × List Char) :=
  match s with
  | [] => none
  | c :: rest =>
    if isNameStart c then
      some (String.ofList (c :: rest.takeWhile isNameCharacter), rest.dropWhile isNameCharacter)
    else none

/-- Whether a part of a name between colons can begin a name. -/
def isPart (s : List Char) : Bool := (s.head?).any isNameStart

/-- A name with at most one colon; the part before it may be missing. -/
def writtenName? (s : List Char) : Option (WrittenName × List Char) :=
  let written := s.takeWhile isNameCharacter
  let rest := s.dropWhile isNameCharacter
  match Text.pieces (· == ':') written with
  | [part] => if isPart part then some (⟨none, String.ofList part⟩, rest) else none
  | [[], part] => if isPart part then some (⟨none, String.ofList part⟩, rest) else none
  | [label, part] =>
    if isPart label && isPart part then
      some (⟨some (String.ofList label), String.ofList part⟩, rest)
    else none
  | _ => none

/-- An equals sign, between blanks. -/
def equals? (s : List Char) : Option (List Char) :=
  (character? '=' (skipBlanks s)).map skipBlanks

/-- A text in single or double quotes. -/
def quoted? : List Char → Option (List Char × List Char)
  | '"' :: s => Text.cut '"' s
  | '\'' :: s => Text.cut '\'' s
  | _ => none

/-- An attribute: its name and the text between its quotes, in which there is no opening bracket. -/
def attribute? (s : List Char) : Option (WrittenName × List Char × List Char) := do
  let (name, s) ← writtenName? s
  let s ← equals? s
  let (value, s) ← quoted? s
  if value.all fun c => isCharacter c && c != '<' then some (name, value, s) else none

/-! ## Comments and instructions -/

/-- A comment, behind its opening mark. There are no two hyphens in a row in it, nor one at its
end. -/
def comment? (s : List Char) : Option (List Char) := do
  let (inside, rest) ← until? "-->" s
  if (Text.cutAt ['-', '-'] inside).isSome || inside.getLast? = some '-' then none else some rest

/-- An instruction, with its opening mark. A declaration is none. -/
def instruction? (s : List Char) : Option (List Char) := do
  if startsWith "<?xml " s then none
  let (_, s) ← name? (s.drop 2)
  let (_, rest) ← until? "?>" (skipBlanks s)
  return rest

/-- The text after blanks, comments and instructions. Each of the latter uses up one unit of
fuel. -/
def asidesWithin : (fuel : Nat) → List Char → Option (List Char)
  | 0, _ => none
  | fuel + 1, s =>
    let s := skipBlanks s
    if startsWith "<!--" s then (comment? (s.drop 4)).bind (asidesWithin fuel)
    else if startsWith "<?" s then (instruction? s).bind (asidesWithin fuel)
    else some s

/-- The text after blanks, comments and instructions. -/
def asides? (s : List Char) : Option (List Char) := asidesWithin (s.length + 1) s

end Scan

end MarkupGrammar.Markup
