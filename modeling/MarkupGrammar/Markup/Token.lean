import MarkupGrammar.Markup.Doctype
import MarkupGrammar.Text.Numeral

/-! # Tokens of well-formed markup

The tags and texts of a well-formed document, with references replaced: those to characters, and
those to entities, whose texts are read as markup in turn. The text of an entity may leave elements
open, and may go on to an end tag of an element that it did not open, but not begin with one; there
it ends. Entities may refer to each other up to ten levels deep, and one reference
in the document leads to a bounded number of further ones, so replacing comes to an end.

Line ends are line feeds, however they are written, and blanks in attributes are spaces, unless they
are written as references. -/

namespace MarkupGrammar.Markup

/-- A token. -/
inductive Token where
  | start (name : WrittenName) (attributes : List (WrittenName × String))
  | stop (name : WrittenName)
  | text (s : String)
  /-- A comment or an instruction. -/
  | aside
  deriving DecidableEq, Repr, Inhabited

/-! ## References -/

/-- What a reference stands for. -/
inductive Reference where
  | character (c : Char)
  | entity (name : String)
  deriving DecidableEq, Repr, Inhabited

namespace Reference

/-- The character of a number; one that is no character stands for the replacement character. -/
def numbered? (radix : Nat) (s : List Char) : Option (Reference × List Char) := do
  let digits := s.takeWhile fun c => (Text.digitValue? radix c).isSome
  let n ← Text.digits? radix digits
  let c := if n.isValidChar then Char.ofNat n else '\uFFFD'
  if n < Nat.pow 2 32 && isCharacter c then some (.character c, s.drop digits.length) else none

/-- The characters that have a name. -/
def named : List (String × Char) :=
  [("quot", '"'), ("amp", '&'), ("apos", '\''), ("lt", '<'), ("gt", '>')]

/-- Reads a reference behind its ampersand. -/
def read? (s : List Char) : Option (Reference × List Char) := do
  let (reference, s) ← match s with
    | '#' :: 'x' :: s => numbered? 16 s
    | '#' :: s => numbered? 10 s
    | s => (Scan.name? s).map fun (name, s) =>
      (((named.lookup name).map character).getD (entity name), s)
  return (reference, ← Scan.character? ';' s)

end Reference

/-! ## Replacing entities -/

/-- The number of references found below one reference in the document. -/
abbrev Used := Nat

/-- How the text of an entity is read, with the number of references before and after it. -/
abbrev Reader (α : Type) := List Char → Used → Option (List α × Used)

/-- Replaces a reference to an entity. Below the document references are counted. -/
def replace {α : Type} (entities : Entities) (isInner : Bool) (read : Reader α) (name : String)
    (used : Used) : Option (List α × Used) := do
  let value ← entities.lookup name
  if !isInner then
    let (xs, _) ← read value 0
    return (xs, used)
  else if used ≥ 255 then none
  else read value (used + 1)

/-- How many levels deep entities may refer to each other. -/
def maxLevels : Nat := 10

/-! ## Values of attributes -/

/-- A blank as it counts in an attribute. -/
def attributeBlank (c : Char) : Char := if Text.isMarkupBlank c then ' ' else c

/-- A value with references replaced. Each character or reference uses up one unit of fuel. -/
def valueWithin (entities : Entities) (isInner : Bool) (read : Reader Char) :
    (fuel : Nat) → Reader Char
  | 0, _, _ => none
  | _ + 1, [], used => some ([], used)
  | fuel + 1, '&' :: s, used => do
    let (reference, s) ← Reference.read? s
    let (replaced, used) ← match reference with
      | .character c =>
        if !isInner then some ([c], used)
        else if c = '<' then none
        else some ([attributeBlank c], used)
      | .entity name => replace entities isInner read name used
    let (rest, used) ← valueWithin entities isInner read fuel s used
    return (replaced ++ rest, used)
  | fuel + 1, '\r' :: '\n' :: s, used => valueWithin entities isInner read fuel ('\n' :: s) used
  | fuel + 1, c :: s, used => do
    let (rest, used) ← valueWithin entities isInner read fuel s used
    return (attributeBlank c :: rest, used)

/-- Reads the text of an entity in a value, when so many levels are left. -/
def innerValue (entities : Entities) : (levels : Nat) → Reader Char
  | 0, _, _ => none
  | levels + 1, s, used =>
    valueWithin entities true (innerValue entities levels) (s.length + 1) s used

/-! ## Text -/

/-- A text under way, in reversed order. -/
structure Characters where
  reversed : List Char := []
  /-- Whether the last character came from a reference, so that what follows is not part of its line
  end. -/
  isFixed : Bool := false
  deriving DecidableEq, Repr, Inhabited

namespace Characters

/-- Adds a character of the text; `isLast` tells that it is the last one. A carriage return becomes
a line feed, and swallows the line feed behind it. -/
def add (cs : Characters) (c : Char) (isLast : Bool) : Characters :=
  let final (c : Char) : Char := if isLast && c == '\r' then '\n' else c
  if cs.isFixed then { reversed := c :: cs.reversed }
  else match cs.reversed with
    | '\r' :: before =>
      if c = '\n' then { reversed := '\n' :: before }
      else { reversed := final c :: '\n' :: before }
    | before => { reversed := final c :: before }

/-- Adds the character that a reference in the document stands for. -/
def addFixed (cs : Characters) (c : Char) : Characters := ⟨c :: cs.reversed, true⟩

/-- The text as a token, if there is any. -/
def tokens (cs : Characters) : List Token :=
  if cs.reversed.isEmpty then [] else [.text (String.ofList cs.reversed.reverse)]

end Characters

/-- The tokens of text with references replaced. Each character or reference uses up one unit of
fuel. -/
def textWithin (entities : Entities) (isInner : Bool) (read : Reader Token) :
    (fuel : Nat) → Characters → Reader Token
  | 0, _, _, _ => none
  | _ + 1, cs, [], used => some (cs.tokens, used)
  | fuel + 1, cs, '&' :: s, used => do
    let (reference, s) ← Reference.read? s
    match reference with
    | .character c =>
      let cs := if isInner then cs.add c s.isEmpty else cs.addFixed c
      textWithin entities isInner read fuel cs s used
    | .entity name => do
      let (replaced, used) ← replace entities isInner read name used
      let (rest, used) ← textWithin entities isInner read fuel {} s used
      return (cs.tokens ++ replaced ++ rest, used)
  | fuel + 1, cs, c :: s, used =>
    textWithin entities isInner read fuel (cs.add c s.isEmpty) s used

/-- Quoted text as it counts. -/
def quotedTokens : Characters → List Char → List Token
  | cs, [] => cs.tokens
  | cs, c :: s => quotedTokens (cs.add c s.isEmpty) s

/-! ## Tags -/

/-- What is needed to read tags and text at some level. -/
structure Level where
  entities : Entities
  /-- Whether the text is that of an entity. -/
  isInner : Bool
  /-- How the texts of entities in values are read. -/
  value : Reader Char
  /-- How the texts of entities in content are read. -/
  content : Reader Token

/-- The attributes of a start tag, and whether the tag is that of an empty element. Each attribute
uses up one unit of fuel. -/
def attributesWithin (l : Level) : (fuel : Nat) → List Char → Used →
    Option (List (WrittenName × String) × Bool × List Char × Used)
  | 0, _, _ => none
  | fuel + 1, s, used =>
    match Scan.skipBlanks s with
    | '/' :: '>' :: rest => some ([], true, rest, used)
    | '>' :: rest => some ([], false, rest, used)
    | _ => do
      let (name, raw, s) ← Scan.attribute? (← Scan.blanks? s)
      let (value, used) ← valueWithin l.entities l.isInner l.value (raw.length + 1) raw used
      let (others, isEmpty, s, used) ← attributesWithin l fuel s used
      return ((name, String.ofList value) :: others, isEmpty, s, used)

/-- A start tag, behind its opening bracket: its tokens, and whether it leaves an element open. Each
attribute uses up one unit of fuel. -/
def startTagWithin (l : Level) (fuel : Nat) (s : List Char) (used : Used) :
    Option (List Token × Bool × List Char × Used) := do
  let (name, s) ← Scan.writtenName? s
  let (attributes, isEmpty, s, used) ← attributesWithin l fuel s used
  let tokens := Token.start name attributes :: if isEmpty then [.stop name] else []
  return (tokens, !isEmpty, s, used)

/-- An end tag, behind its opening mark. -/
def stopTag? (s : List Char) : Option (Token × List Char) := do
  let (name, s) ← Scan.writtenName? s
  return (.stop name, ← Scan.character? '>' (Scan.skipBlanks s))

/-! ## Content -/

/-- Text up to the next bracket. -/
def textUpTo (s : List Char) : List Char × List Char :=
  (s.takeWhile (· != '<'), s.dropWhile (· != '<'))

/-- The tokens of content with `depth` elements open, up to the end of the outermost of them, or
else to the end of the text; and what is left. In the text of an entity, the content goes on behind
the outermost element, up to the end tag of an element around it; `started` tells that there was a
start tag before. Each tag, attribute or text uses up one unit of fuel, so as much as the text is
long is enough. -/
def contentWithin (l : Level) : (fuel depth : Nat) → (started : Bool) → List Char → Used →
    Option (List Token × List Char × Used)
  | 0, _, _, _, _ => none
  | fuel + 1, depth, started, s, used =>
    match s with
    | [] => some ([], [], used)
    | '<' :: '/' :: s => do
      if !started then none
      let (token, s) ← stopTag? s
      if depth = 0 || (depth = 1 && !l.isInner) then return ([token], s, used)
      else do
        let (tokens, s, used) ← contentWithin l fuel (depth - 1) started s used
        return (token :: tokens, s, used)
    | '<' :: _ => do
      let (own, opens, s, used) ←
        if Scan.startsWith "<!--" s then (Scan.comment? (s.drop 4)).map ([.aside], false, ·, used)
        else if Scan.startsWith "<![CDATA[" s then
          (Scan.until? "]]>" (s.drop 9)).map fun (inside, s) =>
            (quotedTokens {} inside, false, s, used)
        else if Scan.startsWith "<?" s then (Scan.instruction? s).map ([.aside], false, ·, used)
        else startTagWithin l fuel (s.drop 1) used
      let started := started || own.any fun
        | .start .. => true
        | _ => false
      let (tokens, s, used) ←
        contentWithin l fuel (if opens then depth + 1 else depth) started s used
      return (own ++ tokens, s, used)
    | s => do
      let (inside, s) := textUpTo s
      if !inside.all isCharacter || (Text.cutAt "]]>".toList inside).isSome then none
      let (own, used) ← textWithin l.entities l.isInner l.content (inside.length + 1) {} inside used
      let (tokens, s, used) ← contentWithin l fuel depth started s used
      return (own ++ tokens, s, used)

/-- Reads the text of an entity in content, when so many levels are left. -/
def innerContent (entities : Entities) : (levels : Nat) → Reader Token
  | 0, _, _ => none
  | levels + 1, s, used =>
    let l : Level := ⟨entities, true, innerValue entities levels, innerContent entities levels⟩
    (contentWithin l (s.length + 1) 0 false s used).map fun (tokens, _, used) => (tokens, used)

/-! ## Documents -/

/-- The text after blanks; they may only be missing at the end of a declaration. -/
def separated? (s : List Char) : Option (List Char) :=
  if Scan.startsWith "?>" s || s.isEmpty then some s else Scan.blanks? s

/-- The text after an attribute whose name begins with `name`, if it is there. -/
def optional? (name : String) (s : List Char) : Option (List Char) :=
  if Scan.startsWith name s then (Scan.attribute? s).map (·.2.2) else some s

/-- The text after a declaration of the version, which has been found to begin here. -/
def declaration? (s : List Char) : Option (List Char) := do
  let s ← separated? (s.drop 5)
  if !Scan.startsWith "version" s then none
  let s ← separated? (← optional? "version" s)
  let s ← if Scan.startsWith "encoding" s then (optional? "encoding" s).bind separated? else some s
  let s ← optional? "standalone" s
  Text.after? "?>".toList (Scan.skipBlanks s)

/-- The text behind all that may precede the root, and the entities declared in it. -/
def prologue? (allowsDoctype : Bool) (s : List Char) : Option (Entities × List Char) := do
  let s := match s with
    | '\uFEFF' :: rest => rest
    | s => s
  let s ← if Scan.startsWith "<?xml " s then declaration? s else some s
  let s ← Scan.asides? s
  if Scan.startsWith "<!DOCTYPE" s then
    if !allowsDoctype then none
    let (entities, s) ← Doctype.read? (s.drop 9)
    return (entities, ← Scan.asides? s)
  else return ([], s)

/-- The tokens of a document: those of its root. -/
def documentTokens? (allowsDoctype : Bool) (markup : String) : Option (List Token) := do
  let (entities, s) ← prologue? allowsDoctype markup.toList
  let s ← Scan.character? '<' s
  let l : Level := ⟨entities, false, innerValue entities maxLevels, innerContent entities maxLevels⟩
  let fuel := s.length + 1
  let (start, opens, s, _) ← startTagWithin l fuel s 0
  let (tokens, s, _) ← if opens then contentWithin l fuel 1 true s 0 else some ([], s, 0)
  if (← Scan.asides? s).isEmpty then some (start ++ tokens) else none

end MarkupGrammar.Markup
