import MarkupGrammar.Name

/-! # Substitution groups

An element may stand where another one, the *head*, is declared: directly, or through other members
of the head's group. A *comparator* answers the two questions that content models ask about such
relations; it may be a table of groups, or come from elsewhere, and then it may fail to answer. A
question without an answer counts as answered with no. -/

namespace MarkupGrammar

/-- A source of answers about substitution. -/
structure Comparator where
  /-- Whether one of the two names may stand for the other. -/
  related : Name → Name → Except String Bool
  /-- Whether the name, or one that may stand for it, is in the namespace, or, with the flag set,
  outside of it. -/
  reaches : Name → Option String → Bool → Except String Bool

/-- The answer to a question, no where there is none. -/
def answer (r : Except String Bool) : Bool :=
  match r with
  | .ok b => b
  | .error _ => false

namespace Comparator

/-- `related`, decided; without a comparator no two names are related. -/
def isRelated (c : Option Comparator) (a b : Name) : Bool :=
  match c with
  | some c => answer (c.related a b)
  | none => false

/-- `reaches` for a namespace, decided. -/
def reachesSpace (c : Option Comparator) (n : Name) (space : Option String) : Bool :=
  match c with
  | some c => answer (c.reaches n space false)
  | none => false

/-- The answers of lists of related pairs and of reached namespaces, each answered only as
listed. -/
def ofLists (pairs : List (Name × Name)) (reached : List (Name × Option String × Bool)) :
    Comparator where
  related a b := .ok (pairs.contains (a, b))
  reaches n space outside := .ok (reached.contains (n, space, outside))

/-- No answers, for the given reason. -/
def failing (reason : String) : Comparator := ⟨fun _ _ => .error reason, fun _ _ _ => .error reason⟩

end Comparator

/-- Declared substitution groups: each head with its direct members, in order of declaration. -/
structure Substitutions where
  /-- The groups, in order of their first member. -/
  groups : List (Name × List Name) := []
  deriving Repr, Inhabited

namespace Substitutions

/-- Whether nothing is declared. -/
def isEmpty (s : Substitutions) : Bool := s.groups.isEmpty

/-- The direct members of a head. -/
def members (s : Substitutions) (head : Name) : List Name := (s.groups.lookup head).getD []

/-- Appends a member to the group of `head`, unless it is there. -/
def insertInto (head member : Name) : List (Name × List Name) → List (Name × List Name)
  | [] => [(head, [member])]
  | (h, ms) :: rest =>
    if h = head then (h, if ms.contains member then ms else ms ++ [member]) :: rest
    else (h, ms) :: insertInto head member rest

/-- Declares `member` as a direct member of the group of `head`. -/
def add (s : Substitutions) (head member : Name) : Substitutions :=
  ⟨insertInto head member s.groups⟩

/-- The groups declared by a list of head and member pairs. -/
def ofPairs (pairs : List (Name × Name)) : Substitutions :=
  pairs.foldl (fun s (head, member) => s.add head member) {}

/-- The members that are new: neither the head nor found before nor repeated. -/
def fresh (head : Name) (found : List Name) : List Name → List Name
  | [] => []
  | m :: ms =>
    if m = head || found.contains m then fresh head found ms
    else m :: fresh head (m :: found) ms

/-- Continues the search for the names that may stand for `head`: `pending` are the names whose
groups are still to be looked at, the last found first, and `found` is the result so far. Each round
uses up one unit of fuel. -/
def search (s : Substitutions) (head : Name) :
    (fuel : Nat) → (pending found : List Name) → List Name
  | 0, _, found => found
  | _ + 1, [], found => found
  | fuel + 1, current :: pending, found =>
    let new := fresh head found (s.members current)
    search s head fuel (new.reverse ++ pending) (found ++ new)

/-- The names other than `head` that may stand for it, in order of discovery. A name is looked at
once, so the rounds are no more than the declared members and the head. -/
def substitutes (s : Substitutions) (head : Name) : List Name :=
  s.search head ((s.groups.flatMap (·.2)).length + 2) [head] []

/-- Whether `name` may stand for `head`. -/
def canSubstitute (s : Substitutions) (head name : Name) : Bool :=
  head == name || (s.substitutes head).contains name

/-- The answers of a table of groups. -/
def comparator (s : Substitutions) : Comparator where
  related a b := .ok (s.canSubstitute a b || s.canSubstitute b a)
  reaches n space outside :=
    let fits (m : Name) : Bool := m.isIn space != outside
    .ok (fits n || (s.substitutes n).any fits)

end Substitutions

end MarkupGrammar
