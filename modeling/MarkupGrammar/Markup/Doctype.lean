import MarkupGrammar.Markup.Scan

/-! # Document type declarations

The declaration of a document type may declare *entities*: names for texts that references are
replaced with. Entities that are kept elsewhere, and declarations of other sorts, are read and do
not count. -/

namespace MarkupGrammar.Markup

/-- The entities declared; the first declaration of a name counts. -/
abbrev Entities := List (String × List Char)

namespace Doctype

open Scan

/-- A reference to a text that is kept elsewhere. -/
def external? (s : List Char) : Option (List Char) := do
  let (isSystem, s) ←
    match Text.after? "SYSTEM".toList s with
    | some s => some (true, s)
    | none => (Text.after? "PUBLIC".toList s).map (false, ·)
  let (_, s) ← quoted? (← blanks? s)
  if isSystem then return s
  else do
    let (_, s) ← quoted? (← blanks? s)
    return s

/-- The name of the format that an entity kept elsewhere is in, if it is given. -/
def format? (s : List Char) : Option (List Char) :=
  match Text.after? "NDATA".toList (skipBlanks s) with
  | some s => do
    let (_, s) ← name? (← blanks? s)
    return s
  | none => some (skipBlanks s)

/-- What an entity stands for, if it is given here. -/
def definition? (isGeneral : Bool) (s : List Char) : Option (Option (List Char) × List Char) :=
  match quoted? s with
  | some (value, s) => some (some value, s)
  | none => do
    let s ← external? s
    return (none, ← if isGeneral then format? s else some s)

/-- The declaration of an entity, behind its opening mark. -/
def entity? (s : List Char) : Option (Entities × List Char) := do
  let s ← blanks? s
  let (isGeneral, s) ← match s with
    | '%' :: s => (blanks? s).map (false, ·)
    | s => some (true, s)
  let (name, s) ← name? s
  let (value?, s) ← definition? isGeneral (← blanks? s)
  let s ← character? '>' (skipBlanks s)
  return ((value?.map (name, ·)).toList, s)

/-- The declarations between square brackets, with the closing bracket of the whole. Each
declaration uses up one unit of fuel. -/
def declarationsWithin : (fuel : Nat) → List Char → Option (Entities × List Char)
  | 0, _ => none
  | fuel + 1, s =>
    let s := skipBlanks s
    if startsWith "<!ENTITY" s then do
      let (own, s) ← entity? (s.drop 8)
      let (others, s) ← declarationsWithin fuel s
      return (own ++ others, s)
    else if startsWith "<!--" s then (comment? (s.drop 4)).bind (declarationsWithin fuel)
    else if startsWith "<?" s then (instruction? s).bind (declarationsWithin fuel)
    else if startsWith "]" s then (character? '>' (skipBlanks (s.drop 1))).map ([], ·)
    else if ["<!ELEMENT", "<!ATTLIST", "<!NOTATION"].any (startsWith · s) then do
      let (_, s) ← Text.cut '>' s
      declarationsWithin fuel s
    else none

/-- A declaration of the document type, behind its opening mark. -/
def read? (s : List Char) : Option (Entities × List Char) := do
  let (_, s) ← name? (← blanks? s)
  let s := skipBlanks s
  let s ← if startsWith "SYSTEM" s || startsWith "PUBLIC" s then external? s else some s
  match skipBlanks s with
  | '>' :: s => return ([], s)
  | '[' :: s => declarationsWithin (s.length + 1) s
  | _ => none

end Doctype

end MarkupGrammar.Markup
