import MarkupGrammar.Pattern.Escape

/-! # Sets in square brackets

The notation of sets: characters, ranges, escapes, named sets of ASCII characters and nested sets
one after the other, with operators between such runs. Reading gives the set and the depth to which
the notation is nested. -/

namespace MarkupGrammar.Pattern

/-! ## Members -/

/-- Reads one character of a set, or a set given by an escape. -/
def setItem? (o : Options) (s : List Char) : Option ((Char ⊕ CharSet) × List Char) := do
  let (item, rest) ← match s with
    | [] => none
    | '\\' :: s => escape? o s
    | c :: s => some (.char c, s)
  match item with
  | .char c => if o.unicode ∨ c.toNat < 128 then some (.inl c, rest) else none
  | .set t => some (.inr t, rest)
  | .place _ => none

/-- Reads a character, a range of characters or a set given by an escape. A hyphen before the
closing bracket or before another hyphen makes no range. -/
def setRange? (o : Options) (s : List Char) : Option (CharSet × List Char) := do
  let (low, rest) ← setItem? o s
  let rest := o.skip rest
  let single : CharSet := match low with
    | .inl c => .single c
    | .inr t => t
  match rest with
  | [] => none
  | '-' :: more =>
    if o.behind? more = some ']' ∨ o.behind? more = some '-' then return (single, rest)
    else match low, ← setItem? o (o.skip more) with
      | .inl a, (.inl b, rest) =>
        if a.toNat ≤ b.toNat then some (.range a.toNat b.toNat, rest) else none
      | _, _ => none
  | _ => return (single, rest)

/-- The sets of ASCII characters that have names. -/
def namedSets : List (String × String) :=
  [("alnum", "30-39 41-5A 61-7A"), ("alpha", "41-5A 61-7A"), ("ascii", "0-7F"), ("blank", "9 20"),
   ("cntrl", "0-1F 7F"), ("digit", "30-39"), ("graph", "21-7E"), ("lower", "61-7A"),
   ("print", "20-7E"), ("punct", "21-2F 3A-40 5B-60 7B-7E"), ("space", "9-D 20"),
   ("upper", "41-5A"), ("word", "30-39 41-5A 5F 61-7A"), ("xdigit", "30-39 41-46 61-66")]

/-- Reads the name of a set after an opening bracket, with its colons and closing bracket; a
circumflex before the name takes all other characters. The notation may stand for other things, then
nothing is read. -/
def asciiSet? (s : List Char) : Option (CharSet × Bool × List Char) :=
  match s with
  | ':' :: s =>
    let (negated, s) := match s with
      | '^' :: s => (true, s)
      | s => (false, s)
    match Text.cut ':' s with
    | some (name, ']' :: rest) =>
      (namedSets.lookup (String.ofList name)).map fun t => (.ofText t, negated, rest)
    | _ => none
  | _ => none

/-! ## Operators -/

/-- The operators between runs of members. -/
inductive SetOperator where
  | inter
  | minus
  | difference
  deriving DecidableEq, Repr, Inhabited

/-- Applies an operator. -/
def SetOperator.apply (op : SetOperator) (s t : CharSet) : CharSet :=
  match op with
  | .inter => s.inter t
  | .minus => s.minus t
  | .difference => s.difference t

/-- A part of a set that has been read. -/
structure SetPart where
  set : CharSet := .empty
  /-- The number of members. -/
  size : Nat := 0
  /-- The greatest depth of a member. -/
  depth : Nat := 0
  deriving Repr, Inhabited

/-- Adds a member. -/
def SetPart.add (p : SetPart) (t : CharSet) (depth : Nat) : SetPart :=
  ⟨p.set.union t, p.size + 1, Nat.max p.depth depth⟩

/-- The depth of the notation of a part: two and more members are one level deeper. -/
def SetPart.level (p : SetPart) : Nat := if 2 ≤ p.size then p.depth + 1 else p.depth

/-- The set up to here: the operator, if there is one, is applied to what is on its left and the
members on its right. -/
def closeSet (o : Options) (left? : Option (SetPart × SetOperator)) (current : SetPart) :
    SetPart :=
  match left? with
  | some (left, op) =>
    ⟨op.apply (o.fold left.set) (o.fold current.set), 1, Nat.max left.level current.level + 1⟩
  | none => ⟨current.set, 1, current.level⟩

/-- The hyphens at the beginning of a set, which stand for themselves, and the rest. -/
def firstHyphens (o : Options) :
    (inComment : Bool) → SetPart → List Char → SetPart × List Char
  | _, p, [] => (p, [])
  | true, p, c :: s => firstHyphens o (c != '\n') p s
  | false, p, c :: s =>
    if c = '-' then firstHyphens o false (p.add (.single '-') 0) s
    else if o.spaced && Text.isBlank c then firstHyphens o false p s
    else if o.spaced && c == '#' then firstHyphens o true p s
    else (p, c :: s)

mutual
/-- Reads a set after its opening bracket. -/
def bracketed? : (fuel : Nat) → Options → List Char → Option (CharSet × Nat × List Char)
  | 0, _, _ => none
  | fuel + 1, o, s => do
    let (negated, s) := match o.skip s with
      | '^' :: s => (true, o.skip s)
      | s => (false, s)
    let (start, s) := match s with
      | ']' :: s => (({} : SetPart).add (.single ']') 0, s)
      | s => firstHyphens o false {} s
    let (part, rest) ← setMembers? fuel o none start s
    return (← o.negate? negated (o.fold part.set), part.level + 1, rest)

/-- Reads the members of a set up to its closing bracket. `left?` holds the set before the last
operator with that operator, `current` the members since. -/
def setMembers? : (fuel : Nat) → Options → (left? : Option (SetPart × SetOperator)) →
    (current : SetPart) → List Char → Option (SetPart × List Char)
  | 0, _, _, _, _ => none
  | fuel + 1, o, left?, current, s =>
    let operator (op : SetOperator) (rest : List Char) : Option (SetPart × List Char) :=
      setMembers? fuel o (some (closeSet o left? current, op)) {} rest
    match o.skip s with
    | [] => none
    | ']' :: rest => some (closeSet o left? current, rest)
    | '&' :: '&' :: rest => operator .inter rest
    | '-' :: '-' :: rest => operator .minus rest
    | '~' :: '~' :: rest => operator .difference rest
    | '[' :: rest =>
      match asciiSet? rest with
      | some (t, negated, rest) => do
        let t ← o.negate? negated (o.fold t)
        setMembers? fuel o left? (current.add t 0) rest
      | none => do
        let (t, depth, rest) ← bracketed? fuel o rest
        setMembers? fuel o left? (current.add t depth) rest
    | s => do
      let (t, rest) ← setRange? o s
      setMembers? fuel o left? (current.add t 0) rest
end

end MarkupGrammar.Pattern
