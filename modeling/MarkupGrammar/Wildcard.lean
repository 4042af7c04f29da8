import MarkupGrammar.Name

/-! # Wildcards

A wildcard stands for every name of a set of namespaces: all of them, one, or all but one. The
absent namespace counts as one of them. It also says how an element that it stands for is
processed. -/

namespace MarkupGrammar

/-- What is expected of an element that a wildcard stands for. -/
inductive Processing where
  /-- The element is declared. -/
  | strict
  /-- The element is validated if it is declared. -/
  | lax
  /-- The element is not looked into. -/
  | skip
  deriving DecidableEq, Repr, Inhabited

namespace Processing

/-- The written form. -/
def text : Processing → String
  | .strict => "strict"
  | .lax => "lax"
  | .skip => "skip"

/-- The mode with the given written form. -/
def ofText? (s : String) : Option Processing :=
  [strict, lax, skip].find? (·.text == s)

end Processing

/-- The namespaces that a wildcard ranges over. -/
inductive Wildcard.Range where
  /-- All namespaces. -/
  | any
  /-- One namespace. -/
  | only (space : Option String)
  /-- All namespaces but one. -/
  | other (space : Option String)
  deriving DecidableEq, Repr, Inhabited

/-- A set of namespaces and a mode of processing. -/
structure Wildcard where
  /-- The namespaces. -/
  range : Wildcard.Range
  /-- The mode of processing. -/
  processing : Processing := .strict
  deriving DecidableEq, Repr, Inhabited

namespace Wildcard

/-- Membership in a range. -/
def Range.contains : Range → Option String → Bool
  | .any, _ => true
  | .only s, space => s == space
  | .other s, space => s != space

/-- The written form of a range. -/
def Range.text : Range → String
  | .any => "##any"
  | .only (some s) => Text.braced s ++ "*"
  | .only none => "##local"
  | .other (some s) => s!"##other({s})"
  | .other none => "##other(##local)"

/-- The written form; the mode of processing is not part of it. -/
def text (w : Wildcard) : String := w.range.text

/-- Whether the wildcard stands for a name. -/
def allows (w : Wildcard) (n : Name) : Bool := w.range.contains n.space

/-! ## Reading a list of namespaces -/

/-- A word in a list of namespaces that looks like a keyword and is none. -/
structure Fault where
  /-- The word. -/
  word : String
  deriving DecidableEq, Repr, Inhabited

/-- The report of a fault. -/
def Fault.message (f : Fault) : String := s!"wrong value '{f.word}' in 'namespace' attribute"

/-- The namespace that a word of the list stands for. -/
def spaceOfWord (target : Option String) (word : String) : Except Fault (Option String) :=
  if word = "##local" then .ok none
  else if word = "##targetNamespace" then .ok target
  else if (Text.after? ['#', '#'] word.toList).isSome then .error ⟨word⟩
  else .ok (some word)

/-- The list without repetitions, the first of equals kept. -/
def distinct (ws : List Wildcard) : List Wildcard :=
  ws.foldl (fun seen w => if seen.contains w then seen else seen ++ [w]) []

/-- The wildcards that a namespace attribute denotes, in its order: one of the two keywords for a
whole range, or a list of namespaces. -/
def ofAttribute (value : String) (target : Option String) (processing : Processing) :
    Except Fault (List Wildcard) :=
  match Text.trim value with
  | "##any" => .ok [⟨.any, processing⟩]
  | "##other" => .ok [⟨.other target, processing⟩]
  | list => do
    let spaces ← (Text.words list).mapM (spaceOfWord target)
    return distinct (spaces.map fun s => ⟨.only s, processing⟩)

end Wildcard

end MarkupGrammar
