import MarkupGrammar.Grammar

/-! # Pools of grammars

A pool keeps grammars so that each is compiled once. A grammar is kept under a *key*, which is made
from its description: the kind of grammar, and what tells the grammars of that kind apart. It only
counts as the grammar of a description if it has that description. While a pool is locked, no
grammar is added; removing is still possible.

The operations on a pool are *requests*, each with an answer, and a caller makes them one after the
other. -/

namespace MarkupGrammar

/-- What has a description that it can be kept by. -/
class Described (α : Type) where
  description : α → Description

instance : Described Grammar := ⟨Grammar.description⟩

/-- What a grammar is kept under. -/
structure PoolKey where
  kind : Grammar.Kind
  key : Option String
  deriving DecidableEq, Repr, Inhabited

/-- The key of a description. -/
def PoolKey.of (d : Description) : PoolKey := ⟨d.kind, d.key⟩

/-- A pool. -/
structure Pool (α : Type) where
  /-- The grammars with their keys; a key is there at most once. -/
  entries : List (PoolKey × α) := []
  isLocked : Bool := false
  deriving Repr, Inhabited

namespace Pool

variable {α : Type}

/-- The number of grammars. -/
def size (p : Pool α) : Nat := p.entries.length

/-- Whether there is no grammar. -/
def isEmpty (p : Pool α) : Bool := p.entries.isEmpty

/-- The grammars of a kind. -/
def ofKind (p : Pool α) (kind : Grammar.Kind) : List α :=
  (p.entries.filter (·.1.kind == kind)).map (·.2)

/-- The pool without what is kept under the key of a description. -/
def erase (p : Pool α) (d : Description) : Pool α :=
  { p with entries := p.entries.filter (·.1 != .of d) }

/-- Adds a grammar if there is none under its key; the lock is not looked at. -/
def insertNew (p : Pool α) (k : PoolKey) (g : α) : Pool α :=
  if (p.entries.lookup k).isSome then p else { p with entries := (k, g) :: p.entries }

/-- The pool without any grammar. -/
def clear (p : Pool α) : Pool α := { p with entries := [] }

/-- The pool, locked. -/
def lock (p : Pool α) : Pool α := { p with isLocked := true }

/-- The pool, not locked. -/
def unlock (p : Pool α) : Pool α := { p with isLocked := false }

/-! ## Grammars by their descriptions -/

variable [Described α]

/-- The key of a grammar. -/
def keyOf (g : α) : PoolKey := .of (Described.description g)

/-- The grammar of a description. -/
def get? (p : Pool α) (d : Description) : Option α :=
  (p.entries.lookup (.of d)).filter fun g => Described.description g == d

/-- Whether there is a grammar of a description. -/
def contains (p : Pool α) (d : Description) : Bool := (p.get? d).isSome

/-- Takes out the grammar of a description. -/
def remove (p : Pool α) (d : Description) : Option α × Pool α :=
  match p.get? d with
  | some g => (some g, p.erase d)
  | none => (none, p)

/-- Adds a grammar, in place of the one with its key. -/
def put (p : Pool α) (g : α) : Pool α :=
  if p.isLocked then p
  else (p.erase (Described.description g)).insertNew (keyOf g) g

/-- Adds the grammars of a kind whose keys are not there; of those with one key the first is
added. -/
def cache (p : Pool α) (kind : Grammar.Kind) (gs : List α) : Pool α :=
  if p.isLocked then p
  else (gs.filter fun g => (Described.description g).kind == kind).foldl
    (fun p g => p.insertNew (keyOf g) g) p

/-- The grammar of a description; if it is not there it is compiled, and added unless the pool is
locked. What is compiled has to be of that description. Compiling may look at what is outside of the
pool and change it. -/
def resolveFrom {σ : Type} (p : Pool α) (d : Description) (compile : σ → Except Failure α × σ)
    (outside : σ) : (Except Failure α × Pool α) × σ :=
  match p.get? d with
  | some g => ((.ok g, p), outside)
  | none =>
    let (result, outside) := compile outside
    match result with
    | .error e => ((.error e, p), outside)
    | .ok g =>
      let own := Described.description g
      if own ≠ d then ((.error (.defect (.otherGrammar own.text d.text)), p), outside)
      else if p.isLocked then ((.ok g, p), outside)
      else
        let p := p.insertNew (.of d) g
        ((.ok ((p.entries.lookup (.of d)).getD g), p), outside)

/-- The grammar of a description, where compiling needs nothing from outside of the pool. -/
def resolve (p : Pool α) (d : Description) (compile : Unit → Except Failure α) :
    Except Failure α × Pool α :=
  (p.resolveFrom d (fun u => (compile u, u)) ()).1

/-! ## Requests -/

/-- A request to a pool. -/
inductive Request (σ α : Type) where
  | put (g : α)
  | get (d : Description)
  | remove (d : Description)
  | contains (d : Description)
  /-- To list the grammars of a kind. -/
  | ofKind (kind : Grammar.Kind)
  | cache (kind : Grammar.Kind) (gs : List α)
  | resolve (d : Description) (compile : σ → Except Failure α × σ)
  | size
  | isEmpty
  | isLocked
  | clear
  | lock
  | unlock

/-- The answer to a request, where `γ` is what several grammars are given in. -/
inductive Answer (γ α : Type) where
  | done
  | grammar (g? : Option α)
  | grammars (gs : γ)
  | resolved (result : Except Failure α)
  | number (n : Nat)
  | truth (b : Bool)
  deriving Repr, Inhabited

/-- The answer with several grammars given in another way. -/
def Answer.map {γ δ : Type} (f : γ → δ) : Answer γ α → Answer δ α
  | done => done
  | grammar g? => grammar g?
  | grammars gs => grammars (f gs)
  | resolved result => resolved result
  | number n => number n
  | truth b => truth b

/-- Serves a request. -/
def respond {σ : Type} (p : Pool α) (outside : σ) :
    Request σ α → (Answer (List α) α × Pool α) × σ
  | .put g => ((.done, p.put g), outside)
  | .get d => ((.grammar (p.get? d), p), outside)
  | .remove d =>
    let (g?, p) := p.remove d
    ((.grammar g?, p), outside)
  | .contains d => ((.truth (p.contains d), p), outside)
  | .ofKind kind => ((.grammars (p.ofKind kind), p), outside)
  | .cache kind gs => ((.done, p.cache kind gs), outside)
  | .resolve d compile =>
    let ((result, p), outside) := p.resolveFrom d compile outside
    ((.resolved result, p), outside)
  | .size => ((.number p.size, p), outside)
  | .isEmpty => ((.truth p.isEmpty, p), outside)
  | .isLocked => ((.truth p.isLocked, p), outside)
  | .clear => ((.done, p.clear), outside)
  | .lock => ((.done, p.lock), outside)
  | .unlock => ((.done, p.unlock), outside)

/-- Serves requests in order; gives the answers, the pool and what is outside of it. -/
def serve {σ : Type} (p : Pool α) (outside : σ) :
    List (Request σ α) → (List (Answer (List α) α) × Pool α) × σ
  | [] => (([], p), outside)
  | r :: rs =>
    let ((answer, p), outside) := p.respond outside r
    let ((answers, p), outside) := p.serve outside rs
    ((answer :: answers, p), outside)

end Pool

end MarkupGrammar
