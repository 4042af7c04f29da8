import MarkupGrammar.Document.Event
import MarkupGrammar.Failure
import MarkupGrammar.Markup.Scan
import MarkupGrammar.Markup.Piece
import MarkupGrammar.Text.Numeral

/-! # Reading markup as a stream

The events of markup that is read piece by piece. End tags have to match, prefixes have to be
declared, attributes have to be quoted and different, and references in attributes and in elements
have to be known; nothing else is required, so there may be several roots or none, and elements may
be left open. Values of attributes are taken as they are, with references replaced. -/

namespace MarkupGrammar.Markup

/-! ## References -/

/-- The characters that have a name. -/
def namedCharacters : List (String × Char) :=
  [("lt", '<'), ("gt", '>'), ("amp", '&'), ("apos", '\''), ("quot", '"')]

/-- The character of a number in at most `width` digits. -/
def numberedCharacter? (radix width : Nat) (s : List Char) : Option Char :=
  if s.length > width then none
  else match Text.digits? radix s with
    | some n => if n ≠ 0 ∧ n.isValidChar then some (Char.ofNat n) else none
    | none => none

/-- The character that a reference stands for. -/
def referent? : List Char → Option Char
  | '#' :: 'x' :: s => numberedCharacter? 16 6 s
  | '#' :: s => numberedCharacter? 10 7 s
  | s => namedCharacters.lookup (String.ofList s)

/-- The text with references replaced. A reference begins with an ampersand and ends at the first
semicolon; there is no further ampersand in it. Each character or reference uses up one unit of
fuel. -/
def unescapeWithin : (fuel : Nat) → List Char → Option (List Char)
  | 0, _ => none
  | _ + 1, [] => some []
  | fuel + 1, c :: s =>
    if c ≠ '&' then (unescapeWithin fuel s).map (c :: ·)
    else do
      let (reference, rest) ← Text.cut ';' s
      let replaced ← referent? reference
      return replaced :: (← unescapeWithin fuel rest)

/-- The text with references replaced. -/
def unescape? (s : List Char) : Option String :=
  (unescapeWithin (s.length + 1) s).map String.ofList

/-! ## Attributes -/

/-- An attribute as written. -/
structure WrittenAttribute where
  name : String
  /-- The text between the quotes. -/
  value : List Char
  deriving DecidableEq, Repr, Inhabited

/-- Reads an attribute: a name, an equals sign and a quoted value. -/
def readAttribute (s : List Char) : Option (WrittenAttribute × List Char) :=
  match s with
  | [] => none
  | first :: s =>
    let isInName (c : Char) : Bool := c != '=' && !Text.isMarkupBlank c
    match (s.dropWhile isInName).dropWhile Text.isMarkupBlank with
    | '=' :: rest =>
      match rest.dropWhile Text.isMarkupBlank with
      | quote :: rest =>
        if quote = '"' ∨ quote = '\'' then
          (Text.cut quote rest).map fun (value, rest) =>
            (⟨String.ofList (first :: s.takeWhile isInName), value⟩, rest)
        else none
      | [] => none
    | _ => none

/-- The attributes of a tag, up to one that cannot be read, and whether there is none such. Each
attribute uses up one unit of fuel. -/
def readAttributesWithin : (fuel : Nat) → List Char → List WrittenAttribute × Bool
  | 0, _ => ([], false)
  | fuel + 1, s =>
    match s.dropWhile Text.isMarkupBlank with
    | [] => ([], true)
    | s =>
      match readAttribute s with
      | none => ([], false)
      | some (a, rest) =>
        let (as, isComplete) := readAttributesWithin fuel rest
        (a :: as, isComplete)

/-! ## Names -/

/-- The label that an attribute declares; the inner value is missing where it declares the
default. -/
def declaredLabel? (attributeName : String) : Option (Option String) :=
  if attributeName = "xmlns" then some none
  else
    (Text.after? "xmlns:".toList attributeName.toList).map fun label => some (String.ofList label)

/-- The declarations that are in force everywhere. -/
def Declared.initial : Declared := [(some "xml", xmlSpace), (some "xmlns", declarationSpace)]

/-- Adds what an attribute declares. The reserved labels and their namespaces belong together; an
empty label is that of the default. -/
def Declared.add (declared : Declared) (a : WrittenAttribute) : Except MarkupFault Declared :=
  let space := String.ofList a.value
  match declaredLabel? a.name with
  | none => .ok declared
  | some none => .ok ((none, space) :: declared)
  | some (some label) =>
    if label = "xml" then if space = xmlSpace then .ok declared else .error .malformed
    else if label = "xmlns" ∨ space = xmlSpace ∨ space = declarationSpace then .error .malformed
    else .ok ((if label.isEmpty then none else some label, space) :: declared)

/-- The expanded name of a written name. A label has to stand for a namespace that is not empty;
names without a label are in the default namespace where `usesDefault` is set. -/
def Declared.expand (declared : Declared) (usesDefault : Bool) (written : String) :
    Except MarkupFault Name :=
  let name := WrittenName.ofString written
  let space? := (declared.lookup name.label?).filter (· != "")
  match name.label?, space? with
  | none, space? => .ok ⟨if usesDefault then space? else none, name.localPart⟩
  | some _, some space => .ok (.qualified space name.localPart)
  | some label, none => .error (.unbound ⟨label⟩)

/-! ## Events -/

/-- An open element: its name as written and the declarations in force in it. -/
structure OpenTag where
  written : String
  declared : Declared
  deriving Repr, Inhabited

/-- The attributes with expanded names; those in `seen` stand before. -/
def expandAttributes (declared : Declared) (seen : List String) :
    List WrittenAttribute → Except MarkupFault (List Attribute)
  | [] => .ok []
  | a :: as => do
    if seen.contains a.name then throw .malformed
    if (declaredLabel? a.name).isSome then expandAttributes declared (a.name :: seen) as
    else do
      let name ← declared.expand false a.name
      match unescape? a.value with
      | none => throw .malformed
      | some value => return ⟨name, value⟩ :: (← expandAttributes declared (a.name :: seen) as)

/-- The declarations in force where a piece stands. -/
def inForce (opened : List OpenTag) : Declared :=
  match opened with
  | [] => .initial
  | tag :: _ => tag.declared

/-- Opens an element, given the inside of its tag: its name with its events at the start. -/
def openTag (opened : List OpenTag) (inside : List Char) :
    Except MarkupFault (OpenTag × Event) := do
  let written := String.ofList (inside.takeWhile (!Text.isMarkupBlank ·))
  let (as, isComplete) :=
    readAttributesWithin (inside.length + 1) (inside.dropWhile (!Text.isMarkupBlank ·))
  let declared ← as.foldlM Declared.add (inForce opened)
  let name ← declared.expand true written
  let attributes ← expandAttributes declared [] as
  if !isComplete then throw .malformed
  return (⟨written, declared⟩, .start name attributes)

/-- The events of a piece, and the open elements after it. -/
def pieceEvents (opened : List OpenTag) : Piece → Except MarkupFault (List Event × List OpenTag)
  | .aside => .ok ([], opened)
  | .quoted s => .ok ([.characters (String.ofList s)], opened)
  | .text s =>
    if opened.isEmpty then .ok ([], opened)
    else match unescape? s with
      | some s => .ok ([.characters s], opened)
      | none => .error .malformed
  | .tag inside => do
    if inside.getLast? = some '/' then
      let (tag, start) ← openTag opened inside.dropLast
      return ([start, .stop (← tag.declared.expand true tag.written)], opened)
    else
      let (tag, start) ← openTag opened inside
      return ([start], tag :: opened)
  | .stop name =>
    match opened with
    | [] => .error .malformed
    | tag :: rest => do
      if tag.written.toList ≠ name then throw .malformed
      return ([.stop (← tag.declared.expand true tag.written)], rest)

/-- The events of pieces, up to one that has a fault. -/
def streamEvents (opened : List OpenTag) : List Piece → List Event × Option MarkupFault
  | [] => ([], none)
  | p :: ps =>
    match pieceEvents opened p with
    | .error fault => ([], some fault)
    | .ok (events, opened) =>
      let (rest, fault?) := streamEvents opened ps
      (events ++ rest, fault?)

/-- The events of markup up to its first fault, and that fault. -/
def readStream (markup : String) : List Event × Option MarkupFault :=
  let (pieces, isComplete) := Piece.read markup.toList
  match streamEvents [] pieces with
  | (events, none) => (events, if isComplete then none else some .malformed)
  | found => found

end MarkupGrammar.Markup
