import MarkupGrammar.Text.Blank

/-! # Pieces of markup

Markup cut into tags and the text between them, with little regard to its grammar: what is between
angle brackets becomes a tag whatever it holds, and an end tag may lack its closing bracket at the
end of the input. Comments, instructions and declarations are passed over. -/

namespace MarkupGrammar.Markup

/-- A piece of markup. -/
inductive Piece where
  /-- Text, with its references. -/
  | text (s : List Char)
  /-- Text that is quoted as a whole. -/
  | quoted (s : List Char)
  /-- What is between the brackets of a start tag or, with a slash at the end, of an element. -/
  | tag (s : List Char)
  /-- The name in an end tag. -/
  | stop (name : List Char)
  /-- A comment, an instruction or a declaration. -/
  | aside
  deriving DecidableEq, Repr, Inhabited

namespace Piece

/-- The text up to the first closing bracket that `isEnd` accepts, by the text before it in reversed
order, and the text behind that bracket. `before` has been looked at. -/
def cutClosing (isEnd : List Char → Bool) (before : List Char) :
    List Char → Option (List Char × List Char)
  | [] => none
  | c :: s =>
    if c = '>' && isEnd before then some (before.reverse, s) else cutClosing isEnd (c :: before) s

/-- The text up to the first closing bracket, or all of it. -/
def cutClosingOrAll (s : List Char) : List Char × List Char := (Text.cut '>' s).getD (s, [])

/-- The text up to the first closing bracket that is not in quotes; `quote?` is the quote that is
open, and `before` has been looked at. -/
def cutTag (quote? : Option Char) (before : List Char) : List Char → Option (List Char × List Char)
  | [] => none
  | c :: s =>
    match quote? with
    | some q => cutTag (if c = q then none else some q) (c :: before) s
    | none =>
      if c = '>' then some (before.reverse, s)
      else cutTag (if c = '"' ∨ c = '\'' then some c else none) (c :: before) s

/-- The text after a start in ASCII letters of either case. -/
def afterLoosely? (start s : List Char) : Option (List Char) :=
  if (s.take start.length).map Char.toUpper = start then some (s.drop start.length) else none

/-- A comment: two hyphens at either end. -/
def readComment (s : List Char) : Option (Piece × List Char) := do
  let (inside, rest) ← cutClosing (fun b => b.length ≥ 4 && b.take 2 = ['-', '-']) [] s
  let _ ← Text.after? ['-', '-'] inside
  return (aside, rest)

/-- Quoted text: two square brackets at its end. -/
def readQuoted (s : List Char) : Option (Piece × List Char) := do
  let (inside, rest) ← cutClosing (fun b => b.take 2 = [']', ']']) [] s
  let content ← afterLoosely? "[CDATA[".toList inside
  return (quoted (content.take (content.length - 2)), rest)

/-- A declaration of the document type: as many opening as closing brackets in it. -/
def readDoctype (s : List Char) : Option (Piece × List Char) := do
  let (inside, rest) ← cutClosing (fun b => b.count '<' == b.count '>') [] s
  let content ← afterLoosely? "DOCTYPE".toList inside
  if content.all Text.isMarkupBlank then none else some (aside, rest)

/-- An instruction: a question mark at its end. -/
def readInstruction (s : List Char) : Option (Piece × List Char) :=
  let (inside, rest) := cutClosingOrAll s
  if inside.length > 2 && inside.getLast? = some '?' then some (aside, rest) else none

/-- An end tag; blanks behind the name do not count. -/
def readStop (s : List Char) : Piece × List Char :=
  let (inside, rest) := cutClosingOrAll s
  (stop (if inside.all Text.isMarkupBlank then inside
    else (inside.reverse.dropWhile Text.isMarkupBlank).reverse), rest)

/-- Reads a piece behind an opening bracket. -/
def readMarkup : List Char → Option (Piece × List Char)
  | '!' :: '-' :: s => readComment ('-' :: s)
  | '!' :: '[' :: s => readQuoted ('[' :: s)
  | '!' :: 'D' :: s => readDoctype ('D' :: s)
  | '!' :: 'd' :: s => readDoctype ('d' :: s)
  | '!' :: _ => none
  | '/' :: s => some (readStop s)
  | '?' :: s => readInstruction ('?' :: s)
  | s => (cutTag none [] s).map fun (inside, rest) => (tag inside, rest)

/-- The pieces of markup, and whether all of it could be read; a lone opening bracket at the end
does not count. Each piece uses up one unit of fuel. -/
def readWithin : (fuel : Nat) → List Char → List Piece × Bool
  | 0, _ => ([], false)
  | _ + 1, [] | _ + 1, ['<'] => ([], true)
  | fuel + 1, '<' :: s =>
    match readMarkup s with
    | none => ([], false)
    | some (piece, rest) =>
      let (pieces, isComplete) := readWithin fuel rest
      (piece :: pieces, isComplete)
  | fuel + 1, s =>
    let (pieces, isComplete) := readWithin fuel (s.dropWhile (· != '<'))
    (text (s.takeWhile (· != '<')) :: pieces, isComplete)

/-- The pieces of markup, without a byte order mark, and whether all of it could be read. Pieces are
not empty. -/
def read (s : List Char) : List Piece × Bool :=
  let s := match s with
    | '\uFEFF' :: rest => rest
    | s => s
  readWithin (s.length + 1) s

end Piece

end MarkupGrammar.Markup
