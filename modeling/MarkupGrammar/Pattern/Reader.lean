import MarkupGrammar.Pattern.Memory
import MarkupGrammar.Pattern.SetReader

/-! # Reading patterns

The usual notation of regular expressions: alternatives, sequences, repetition operators after what
they repeat, groups, sets of characters in square brackets, and escapes with a backslash. Groups are
counted and may have names, and may set options. A repetition may be marked as reluctant, which does
not change which texts match. Reading gives the pattern, or nothing if the notation is wrong. -/

namespace MarkupGrammar.Pattern

/-! ## Repetitions -/

/-- A number below 2 to the 32, with blanks around it. -/
def count? (s : List Char) : Option Nat :=
  let digits := Text.trimBlanks s
  if digits.all Char.isDigit then (Text.digits? 10 digits).filter (· < Nat.pow 2 32) else none

/-- Reads the bounds of a repetition after an opening curly bracket: one number, or two numbers with
a comma between them, of which the second may be left out. -/
def bounds? (o : Options) (s : List Char) : Option ((Nat × Option Nat) × List Char) := do
  let (content, rest) ← o.braced? false s
  match Text.cut ',' content with
  | none =>
    let n ← count? content
    return ((n, some n), rest)
  | some (min, []) => return ((← count? min, none), rest)
  | some (min, max) =>
    let min ← count? min
    let max ← count? max
    if min ≤ max then return ((min, some max), rest) else none

/-- Reads a repetition operator. A question mark directly behind it marks it as reluctant; behind
bounds, there may be blanks and comments before the question mark. -/
def operator? (o : Options) (s : List Char) : Option ((Nat × Option Nat) × List Char) :=
  let reluctant : List Char → List Char
    | '?' :: s => s
    | s => s
  match s with
  | '*' :: s => some ((0, none), reluctant s)
  | '+' :: s => some ((1, none), reluctant s)
  | '?' :: s => some ((0, some 1), reluctant s)
  | '\x7b' :: s => (bounds? o s).map fun (bounds, rest) => (bounds, reluctant (o.skip rest))
  | _ => none

/-! ## Parts of a notation -/

/-- A pattern with what has to be known of its notation. -/
structure Part where
  pattern : Pattern
  /-- The depth to which the notation is nested. -/
  depth : Nat := 0
  /-- Whether it only sets options, and cannot be repeated. -/
  isDirective : Bool := false
  deriving Repr, Inhabited

/-- The depth of parts together: two and more are one level deeper. -/
def Part.level : List Part → Nat
  | [] => 0
  | [p] => p.depth
  | ps => ps.foldl (fun n p => Nat.max n p.depth) 0 + 1

/-- Parts one after the other, given last one first. -/
def Part.sequence (reversed : List Part) : Part where
  pattern := Pattern.sequence (reversed.reverse.map Part.pattern)
  depth := Part.level reversed

/-- One of the given parts, given last one first. -/
def Part.choice : (reversed : List Part) → Part
  | [p] => p
  | reversed =>
    { pattern := Pattern.choice (reversed.reverse.map Part.pattern), depth := Part.level reversed }

/-- Where reading has come to. -/
structure Position where
  rest : List Char
  options : Options := {}
  /-- The number of groups so far. -/
  groups : Nat := 0
  /-- The names of groups so far. -/
  names : List (List Char) := []
  deriving Repr, Inhabited

/-! ## Groups -/

/-- What a group begins with. -/
inductive Opening where
  /-- A group that is counted. -/
  | counted
  /-- A group that is not, with options for what is in it. -/
  | plain (o : Options)
  /-- No group at all: options for what follows. -/
  | directive (o : Options)
  deriving Repr, Inhabited

/-- Whether a group can have the name: a letter or an underscore, then also numbers, full stops and
square brackets. -/
def isGroupName (s : List Char) : Bool :=
  let isFirst (c : Char) : Bool := c == '_' || Character.alphabetic.contains c
  let isFurther (c : Char) : Bool :=
    isFirst c || c == '.' || c == '[' || c == ']' || Character.number.contains c
  match s with
  | [] => false
  | c :: s => isFirst c && s.all isFurther

/-- Reads what a group begins with after its parenthesis. -/
def opening? (p : Position) : Option (Opening × Position) :=
  let counted (p : Position) : Opening × Position :=
    (.counted, { p with groups := p.groups + 1 })
  let named (s : List Char) : Option (Opening × Position) := do
    let (name, rest) ← Text.cut '>' s
    if isGroupName name ∧ !p.names.contains name then
      return counted { p with rest, names := name :: p.names }
    else none
  match p.options.skip p.rest with
  | '?' :: 'P' :: '<' :: s => named s
  | '?' :: '<' :: s => named s
  | '?' :: s => do
    let (o, close, rest) ← p.options.read? [] s
    if close = ':' then return (.plain o, { p with rest })
    else return (.directive o, { p with rest })
  | rest => some (counted { p with rest })

/-! ## Single parts -/

/-- The full stop: any character but those that end lines. -/
def anyCharacter? (o : Options) : Option Pattern :=
  if o.unicode then
    let ends : List Char :=
      if o.dotAll then [] else if o.carriageReturn then ['\r', '\n'] else ['\n']
    some (.chars (CharSet.ofChars ends).complement)
  else none

/-- What ends lines. -/
def Options.lineEnd (o : Options) : LineEnd := if o.carriageReturn then .either else .feed

/-- Reads a part that is neither a group nor repeated. -/
def single? (o : Options) (s : List Char) : Option (Part × List Char) :=
  let char (c : Char) : Pattern := ofSet (o.fold (.single c))
  match s with
  | [] => none
  | '[' :: s => do
    let (t, depth, rest) ← bracketed? (2 * s.length + 2) o s
    return ({ pattern := ofSet t, depth }, rest)
  | '\\' :: s => do
    let (e, rest) ← escape? o s
    return match e with
      | .char c => ({ pattern := char c }, rest)
      | .set t => ({ pattern := ofSet t }, rest)
      | .place p => ({ pattern := .place p }, rest)
  | '.' :: s => (anyCharacter? o).map fun p => ({ pattern := p }, s)
  | '^' :: s =>
    some ({ pattern := .place (if o.lines then .lineStart o.lineEnd else .textStart) }, s)
  | '$' :: s =>
    some ({ pattern := .place (if o.lines then .lineEnd o.lineEnd else .textEnd) }, s)
  | c :: s => some ({ pattern := char c }, s)

/-! ## Whole notations -/

mutual
/-- Reads alternatives up to the end of the text or a closing parenthesis. `earlier` are those
already read, the last one first. -/
def alternatives? : (fuel : Nat) → (earlier : List Part) → Position →
    Option (Part × Position)
  | 0, _, _ => none
  | fuel + 1, earlier, p => do
    let (part, p) ← sequence? fuel [] p
    match p.rest with
    | '|' :: rest => alternatives? fuel (part :: earlier) { p with rest }
    | _ => return (Part.choice (part :: earlier), p)

/-- Reads a sequence up to the end of the text, a bar or a closing parenthesis. `earlier` are the
parts already read, the last one first. -/
def sequence? : (fuel : Nat) → (earlier : List Part) → Position → Option (Part × Position)
  | 0, _, _ => none
  | fuel + 1, earlier, p =>
    match p.options.skip p.rest with
    | [] => some (Part.sequence earlier, { p with rest := [] })
    | '|' :: s => some (Part.sequence earlier, { p with rest := '|' :: s })
    | ')' :: s => some (Part.sequence earlier, { p with rest := ')' :: s })
    | '(' :: s => do
      let (opening, inner) ← opening? { p with rest := s }
      match opening with
      | .directive o =>
        sequence? fuel ({ pattern := .empty, isDirective := true } :: earlier)
          { inner with options := o }
      | .plain o =>
        let (part, last) ← alternatives? fuel [] { inner with options := o }
        let ')' :: rest := last.rest | none
        sequence? fuel ({ part with depth := part.depth + 1 } :: earlier)
          { last with rest, options := p.options }
      | .counted =>
        let (part, last) ← alternatives? fuel [] inner
        let ')' :: rest := last.rest | none
        let grouped : Part :=
          { pattern := .group inner.groups part.pattern, depth := part.depth + 1 }
        sequence? fuel (grouped :: earlier) { last with rest, options := p.options }
    | c :: s =>
      if "*+?\x7b".toList.contains c then do
        let ((min, max), rest) ← operator? p.options (c :: s)
        let last :: earlier := earlier | none
        if last.isDirective then none
        else
          let part : Part := { pattern := times last.pattern min max, depth := last.depth + 1 }
          sequence? fuel (part :: earlier) { p with rest }
      else do
        let (part, rest) ← single? p.options (c :: s)
        sequence? fuel (part :: earlier) { p with rest }
end

/-- The depth to which a notation may be nested. -/
def depthLimit : Nat := 250

/-- The pattern with the given notation. Every level of reading uses up a character, so the fuel
suffices. -/
def read? (s : List Char) : Option Pattern := do
  let (part, p) ← alternatives? (2 * s.length + 2) [] { rest := s }
  if p.rest.isEmpty ∧ part.depth ≤ depthLimit then some part.pattern else none

/-! ## Patterns for whole values -/

/-- Why a notation gives no pattern that can be run. -/
inductive Fault where
  /-- The notation is wrong. -/
  | malformed
  /-- The automaton would take too much memory. -/
  | tooLarge
  deriving DecidableEq, Repr, Inhabited

/-- The report of a fault. -/
def Fault.message : Fault → String
  | .malformed => "regex parse error:"
  | .tooLarge => s!"Compiled regex exceeds size limit of {roomLimit} bytes."

/-- A pattern together with its notation. -/
structure Anchored where
  /-- The notation. -/
  source : String
  /-- The pattern with anchors around it. -/
  pattern : Pattern
  deriving Repr, Inhabited

/-- The notation with anchors around it. -/
def anchoredNotation (source : String) : List Char :=
  "^(?:".toList ++ source.toList ++ ")$".toList

/-- Reads a notation with anchors around it. The notation is read together with its anchors, so a
closing parenthesis in it can end the group that they make. -/
def anchored (source : String) : Except Fault Anchored :=
  match read? (anchoredNotation source) with
  | none => .error .malformed
  | some p => if p.isTooLarge then .error .tooLarge else .ok ⟨source, p⟩

/-- Whether a value matches. -/
def Anchored.accepts (a : Anchored) (value : String) : Bool := a.pattern.occursIn value.toList

end MarkupGrammar.Pattern
