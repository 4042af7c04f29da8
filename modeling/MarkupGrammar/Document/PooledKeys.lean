import MarkupGrammar.Document.Keys

/-! # Reusing matchers

Matchers are not thrown away when an activation or a selection ends, nor when a document is left
before its end: they go to a *pool*, in whatever state they are. A selector or field that begins
takes the matcher that was given last for the same use and clears it; only where there is none a new
matcher is made. The pool outlives documents. -/

namespace MarkupGrammar

/-- What a matcher is for: the selector of the constraint with a number, or a field of it. -/
structure MatcherUse where
  constraint : Nat
  /-- The place of the field, absent for the selector. -/
  field? : Option Nat := none
  deriving DecidableEq, Repr, Inhabited

/-- The matchers that are not in use, the last one given first. -/
structure MatcherPool where
  free : List (MatcherUse × Matcher) := []
  deriving Repr, Inhabited

namespace MatcherPool

/-- Puts in a matcher as it is. -/
def give (p : MatcherPool) (u : MatcherUse) (m : Matcher) : MatcherPool := ⟨(u, m) :: p.free⟩

/-- Takes out a matcher for a use and clears it; gives `new` if there is none. -/
def take (p : MatcherPool) (u : MatcherUse) (new : Matcher) : Matcher × MatcherPool :=
  match p.free.find? (·.1 == u) with
  | some (_, m) => (m.clear, ⟨p.free.eraseP (·.1 == u)⟩)
  | none => (new, p)

/-- Passes the pool along a list from left to right. -/
def along {α : Type} (f : MatcherPool → α → α × MatcherPool) :
    MatcherPool → List α → List α × MatcherPool
  | p, [] => ([], p)
  | p, x :: xs =>
    let (y, p) := f p x
    let (ys, p) := along f p xs
    (y :: ys, p)

/-! ## Activations and selections -/

/-- An activation that begins, with a matcher of the pool. -/
def takeActivation (p : MatcherPool) (a : Activation) : Activation × MatcherPool :=
  let (matcher, p) := p.take ⟨a.of.number, none⟩ a.matcher
  ({ a with matcher }, p)

/-- A field of a constraint that begins, with a matcher of the pool. -/
def takeField (number : Nat) (p : MatcherPool) (f : FieldWalk × Nat) :
    (FieldWalk × Nat) × MatcherPool :=
  let (matcher, p) := p.take ⟨number, some f.2⟩ f.1.matcher
  (({ f.1 with matcher }, f.2), p)

/-- A selection that begins, with matchers of the pool. -/
def takeSelection (p : MatcherPool) (s : Selection) : Selection × MatcherPool :=
  let (fields, p) := p.along (takeField s.of.number) s.fields.zipIdx
  ({ s with fields := fields.map (·.1) }, p)

/-- Puts in the matchers of activations. -/
def giveActivations (p : MatcherPool) (as : List Activation) : MatcherPool :=
  as.foldl (fun p a => p.give ⟨a.of.number, none⟩ a.matcher) p

/-- Puts in the matchers of a selection. -/
def giveSelection (p : MatcherPool) (s : Selection) : MatcherPool :=
  s.fields.zipIdx.foldl (fun p (f, i) => p.give ⟨s.of.number, some i⟩ f.matcher) p

/-- Puts in the matchers of selections. -/
def giveSelections (p : MatcherPool) (ss : List Selection) : MatcherPool :=
  ss.foldl giveSelection p

end MatcherPool

/-- What is known of the identity constraints at a point of a document, with the matchers that are
not in use. -/
structure PooledKeys where
  keys : Keys := {}
  pool : MatcherPool := {}
  deriving Repr, Inhabited

namespace PooledKeys

/-- The state before a document. The matchers in use go to the pool. -/
def clear (k : PooledKeys) : PooledKeys :=
  { pool := (k.pool.giveActivations k.keys.activations).giveSelections k.keys.selections }

/-- Follows the start tag of an element, as `Keys.start` does. -/
def start (g : Grammar) (k : PooledKeys) (element? : Option Nat) (e : TagEvent) (path : String) :
    PooledKeys × List Violation :=
  let depth := k.keys.depth + 1
  let followed := k.keys.selections.map (·.start g.types e)
  let (begun, pool) :=
    k.pool.along MatcherPool.takeActivation (Keys.activationsOf g element? depth)
  let activations := (k.keys.activations ++ begun).map (Keys.Activation.start · e)
  let selecting := (activations.zipIdx.filter fun ((isSelected, _), _) => isSelected).map
    fun ((_, a), place) => Keys.select a place depth path
  let (selections, pool) := pool.along MatcherPool.takeSelection selecting
  let selected := selections.map (·.start g.types e)
  ({ keys := { k.keys with
      depth
      activations := activations.map (·.2)
      selections := followed.map (·.1) ++ selected.map (·.1)
      ledgers := [] :: k.keys.ledgers }
     pool },
    followed.flatMap (·.2) ++ selected.flatMap (·.2))

/-- Follows a piece of text. -/
def characters (k : PooledKeys) (text : String) : PooledKeys :=
  { k with keys := k.keys.characters text }

/-- The selections that the end tag of the innermost element closes, in that order. -/
def closing (g : Grammar) (k : Keys) : List Selection :=
  ((k.selections.map fun s => (s.stop g.types).1).filter (·.depth == k.depth)).reverse

/-- The activations that end with the innermost element, in that order. -/
def ending (k : Keys) : List Activation :=
  ((k.activations.map fun a => { a with matcher := a.matcher.stop.2 }).filter
    (·.depth == k.depth)).reverse

/-- Follows an end tag. -/
def stop (g : Grammar) (k : PooledKeys) : PooledKeys × List Violation :=
  let (keys, violations) := k.keys.stop g
  let pool :=
    if k.keys.depth = 0 then k.pool
    else (k.pool.giveSelections (closing g k.keys)).giveActivations (ending k.keys)
  ({ keys, pool }, violations)

/-- Reports the references that were not found, once. -/
def finish (g : Grammar) (k : PooledKeys) : PooledKeys × List Violation :=
  let (keys, violations) := k.keys.finish g
  ({ k with keys }, violations)

end PooledKeys

end MarkupGrammar
