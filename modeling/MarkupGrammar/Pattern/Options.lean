import MarkupGrammar.Text.Blank

/-! # Options of pattern notation

Letters at the beginning of a group change how the notation in it is read. The options are part of
the notation and leave no trace in the pattern. -/

namespace MarkupGrammar.Pattern

/-- How a notation is read. -/
structure Options where
  /-- Upper and lower case are not told apart. -/
  ignoreCase : Bool := false
  /-- Anchors stand for the ends of lines, not of the text. -/
  lines : Bool := false
  /-- The full stop stands for line ends, too. -/
  dotAll : Bool := false
  /-- A carriage return ends a line, too. -/
  carriageReturn : Bool := false
  /-- Classes of characters are those of Unicode, not of ASCII. -/
  unicode : Bool := true
  /-- Blanks and comments are passed over. -/
  spaced : Bool := false
  deriving DecidableEq, Repr, Inhabited

namespace Options

/-- Sets the option with the given letter. Whether repetitions are reluctant is of no interest. -/
def set? (o : Options) (letter : Char) (on : Bool) : Option Options :=
  match letter with
  | 'i' => some { o with ignoreCase := on }
  | 'm' => some { o with lines := on }
  | 's' => some { o with dotAll := on }
  | 'R' => some { o with carriageReturn := on }
  | 'u' => some { o with unicode := on }
  | 'x' => some { o with spaced := on }
  | 'U' => some o
  | _ => none

/-- Reads letters up to a colon or a closing parenthesis, which is given, too. Letters behind a
hyphen are switched off. `seen` are the letters and the hyphen before, the last one first; none of
them may be written twice, and the hyphen not at the end. -/
def read? (o : Options) (seen : List Char) : List Char → Option (Options × Char × List Char)
  | [] => none
  | c :: s =>
    if c = ':' ∨ (c = ')' ∧ !seen.isEmpty) then
      if seen.head? = some '-' then none else some (o, c, s)
    else if seen.contains c then none
    else if c = '-' then o.read? (c :: seen) s
    else match o.set? c (!seen.contains '-') with
      | some o => o.read? (c :: seen) s
      | none => none

end Options

/-! ## Blanks and comments -/

/-- The text after blanks and comments; a comment goes from a number sign to the end of the line. -/
def dropSpace : (inComment : Bool) → List Char → List Char
  | _, [] => []
  | true, c :: s => dropSpace (c != '\n') s
  | false, c :: s =>
    if Text.isBlank c then dropSpace false s
    else if c = '#' then dropSpace true s
    else c :: s

/-- The text after what is passed over. -/
def Options.skip (o : Options) (s : List Char) : List Char :=
  if o.spaced then dropSpace false s else s

/-- The text up to a closing curly bracket without what is passed over, and the rest. -/
def Options.braced? (o : Options) :
    (inComment : Bool) → List Char → Option (List Char × List Char)
  | _, [] => none
  | true, c :: s => o.braced? (c != '\n') s
  | false, c :: s =>
    if c = '\x7d' then some ([], s)
    else if o.spaced && Text.isBlank c then o.braced? false s
    else if o.spaced && c == '#' then o.braced? true s
    else (o.braced? false s).map fun (content, rest) => (c :: content, rest)

/-- The character that decides whether a hyphen in a set makes a range. It is looked for behind
blanks; in a comment, the first character that is no blank is taken. -/
def Options.behind? (o : Options) (s : List Char) : Option Char :=
  if o.spaced then
    match s.dropWhile Text.isBlank with
    | '#' :: comment => (comment.dropWhile Text.isBlank).head?.or s.head?
    | t => t.head?.or s.head?
  else s.head?

end MarkupGrammar.Pattern
