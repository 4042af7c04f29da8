import MarkupGrammar.Character.Age
import MarkupGrammar.Character.Property
import MarkupGrammar.Character.Script
import MarkupGrammar.Character.Segment

/-! # Sets of characters by name

A set can be named by a property, a general category or a script, or by one of the properties that
have values together with its value. Names are compared loosely: case, blanks, hyphens, underscores
and characters outside ASCII do not count, nor does `is` at the beginning. -/

namespace MarkupGrammar.Character

/-- The form in which names are compared. -/
def looseName (s : List Char) : String :=
  let startsWithIs := match s with
    | a :: b :: _ => a.toLower == 'i' && b.toLower == 's'
    | _ => false
  let kept := (if startsWithIs then s.drop 2 else s).filter fun c =>
    c.toNat < 128 && c != ' ' && c != '_' && c != '-'
  let name := String.ofList (kept.map Char.toLower)
  if startsWithIs && name == "c" then "isc" else name

/-- The set with a name in a list. -/
def lookup? (sets : List (List String × CharSet)) (name : String) : Option CharSet :=
  (sets.find? fun (names, _) => names.contains name).map Prod.snd

/-- The set of a property, a category or a script. Three short names of categories are those of
properties without a set here, too. -/
def named? (s : List Char) : Option CharSet :=
  let name := looseName s
  (lookup? properties name).or ((lookup? categories name).or (script? name))

/-- The set of the characters for which a property has a value. -/
def valued? (property value : List Char) : Option CharSet :=
  let property := looseName property
  let value := looseName value
  if ["gc", "generalcategory"].contains property then lookup? categories value
  else if ["sc", "script"].contains property then script? value
  else if ["scx", "scriptextensions"].contains property then scriptExtension? value
  else if property == "age" then age? value
  else if ["gcb", "graphemeclusterbreak"].contains property then lookup? graphemeBreaks value
  else if ["wb", "wordbreak"].contains property then lookup? wordBreaks value
  else if ["sb", "sentencebreak"].contains property then lookup? sentenceBreaks value
  else none

end MarkupGrammar.Character
