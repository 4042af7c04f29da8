import MarkupGrammar.Text.Quoted
import MarkupGrammar.Violation

/-! # Reports

What a validation found: the violations in order. A document is valid if there are none. A report is
written as text, one line for a violation, or for interchange as an object with one field a line. -/

namespace MarkupGrammar

/-- The outcome of a validation. -/
structure Report where
  violations : List Violation
  deriving DecidableEq, Repr, Inhabited

namespace Report

/-- Whether the document is valid. -/
def isValid (r : Report) : Bool := r.violations.isEmpty

/-- The number of violations of a kind. -/
def count (r : Report) (kind : Violation.Kind) : Nat := r.violations.countP (·.kind == kind)

/-! ## Text -/

/-- The line for a violation. -/
def lineText (v : Violation) : String :=
  match v.path? with
  | some path => s!"- {v.message} at {path}"
  | none => s!"- {v.message}"

/-- The written form. -/
def text (r : Report) : String :=
  if r.isValid then "document is valid"
  else
    let first := s!"document is not valid ({r.violations.length} errors)"
    Text.joined "\n" (first :: r.violations.map lineText)

/-! ## Interchange -/

/-- What a report is made of, for interchange. -/
inductive Part where
  | absent
  | boolean (b : Bool)
  | text (s : String)
  | record (fields : List (String × Part))
  | list (parts : List Part)
  deriving Repr, Inhabited

namespace Part

/-- A line break with the indentation of a level, two spaces each. -/
def lineBreak (level : Nat) : String := String.ofList ('\n' :: List.replicate (2 * level) ' ')

/-- Members between brackets, one a line and indented one level more than the brackets. -/
def bracketed (opening closing : String) (level : Nat) (members : List String) : String :=
  if members.isEmpty then opening ++ closing
  else
    opening ++ Text.joined "," (members.map (lineBreak (level + 1) ++ ·)) ++ lineBreak level ++
      closing

mutual
/-- The written form at a level of indentation. -/
def write (level : Nat) : Part → String
  | absent => "null"
  | boolean b => if b then "true" else "false"
  | text s => Text.Quoting.interchange.quote s
  | record fields => bracketed "\x7b" "\x7d" level (writeFields (level + 1) fields)
  | list parts => bracketed "[" "]" level (writeParts (level + 1) parts)

/-- The written forms of fields. -/
def writeFields (level : Nat) : List (String × Part) → List String
  | [] => []
  | (name, part) :: rest =>
    (Text.Quoting.interchange.quote name ++ ": " ++ part.write level) :: writeFields level rest

/-- The written forms of parts. -/
def writeParts (level : Nat) : List Part → List String
  | [] => []
  | part :: rest => part.write level :: writeParts level rest
end

/-- A text that may be absent. -/
def ofText? : Option String → Part
  | some s => text s
  | none => absent

/-- A name. -/
def ofName (n : Name) : Part :=
  record [("namespace", ofText? n.space), ("local_name", text n.localPart)]

/-- A violation. -/
def ofViolation (v : Violation) : Part :=
  let name := match v.name? with
    | some n => ofName n
    | none => absent
  record [("kind", text v.kind.text), ("message", text v.message), ("name", name),
    ("value", ofText? v.value?), ("path", ofText? v.path?)]

end Part

/-- The written form for interchange. -/
def interchangeText (r : Report) : String :=
  Part.write 0 (.record
    [("valid", .boolean r.isValid), ("errors", .list (r.violations.map Part.ofViolation))])

end Report

end MarkupGrammar
