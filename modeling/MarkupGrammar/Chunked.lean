import MarkupGrammar.Failure

/-! # Chunked stores

A store that only grows, made of chunks of one size, so that a value stays where it is when others
are added. The table of chunks has room for a few chunks at first and is doubled when it is full. A
value is referred to by its number.

A value is refused if there is no number for it, or if memory is asked for and not given: for a
larger table first, and then for a chunk. -/

namespace MarkupGrammar

/-- A chunked store. -/
structure Chunked (α : Type) where
  chunks : Array (Array α) := #[]
  /-- The number of values. -/
  size : Nat := 0
  /-- The number of chunks that the table has room for. -/
  room : Nat := 0
  deriving Repr, Inhabited

namespace Chunked

variable {α : Type}

/-- The number of values in a full chunk. -/
def chunkSize : Nat := 256

/-- The room of a table that has its first chunk. -/
def firstRoom : Nat := 4

/-- The numbers that values can be referred to by are below this one. -/
def maxSize : Nat := Nat.pow 2 32

/-- Whether there are no values. -/
def isEmpty (s : Chunked α) : Bool := s.size == 0

/-- The values in order. -/
def toList (s : Chunked α) : List α := s.chunks.toList.flatMap Array.toList

/-- The values in order, with their numbers. -/
def entries (s : Chunked α) : List (Nat × α) := s.toList.zipIdx.map Prod.swap

/-- The value of a number. -/
def get? (s : Chunked α) (i : Nat) : Option α := (s.chunks[i / chunkSize]?).bind (·[i % chunkSize]?)

/-- The value of a number, which has to be there. -/
def get (s : Chunked α) (table : TableKind) (i : Nat) : Except Failure α :=
  match s.get? i with
  | some x => .ok x
  | none => .error (.defect (.dangling table i))

/-- Changes the value of a number, if it is there. -/
def modify (s : Chunked α) (i : Nat) (f : α → α) : Chunked α :=
  { s with chunks := s.chunks.modify (i / chunkSize) (·.modify (i % chunkSize) f) }

/-! ## Adding values -/

/-- What memory is given when it is asked for, or why it is not. -/
structure Memory where
  /-- The answer for a larger table. -/
  table : Except String Unit := .ok ()
  /-- The answer for a chunk. -/
  chunk : Except String Unit := .ok ()

/-- Why a value is refused. -/
inductive Refusal where
  /-- All numbers have been given. -/
  | noNumber
  | noTable (reason : String)
  | noChunk (reason : String)
  deriving DecidableEq, Repr, Inhabited

/-- The report of a refusal. -/
def Refusal.message : Refusal → String
  | noNumber => Failure.noRoom.message
  | noTable reason => s!"capacity error: chunk table growth failed: {reason}"
  | noChunk reason => s!"capacity error: chunk allocation failed: {reason}"

/-- The store with room for another chunk. -/
def grow (s : Chunked α) : Chunked α :=
  if s.chunks.size = s.room then { s with room := s.room + max s.room firstRoom } else s

/-- Opens a chunk behind the others. A table that has grown stays so, also if the chunk is not
given. -/
def openChunk (m : Memory) (s : Chunked α) : Except Refusal Unit × Chunked α :=
  match (if s.chunks.size = s.room then m.table else .ok ()), m.chunk with
  | .error reason, _ => (.error (.noTable reason), s)
  | .ok (), .error reason => (.error (.noChunk reason), s.grow)
  | .ok (), .ok () => (.ok (), { s.grow with chunks := s.chunks.push #[] })

/-- The store with a chunk for the next value. -/
def reserve (m : Memory) (s : Chunked α) : Except Refusal Unit × Chunked α :=
  if s.size / chunkSize = s.chunks.size then s.openChunk m else (.ok (), s)

/-- The store with a value in the chunk that is meant for it. -/
def store (s : Chunked α) (x : α) : Chunked α :=
  { s with chunks := s.chunks.modify (s.size / chunkSize) (·.push x), size := s.size + 1 }

/-- Adds a value; tells its number, which is the size of the store before. -/
def add (m : Memory) (s : Chunked α) (x : α) : Except Refusal Nat × Chunked α :=
  if s.size ≥ maxSize then (.error .noNumber, s)
  else
    match s.reserve m with
    | (.error r, s) => (.error r, s)
    | (.ok (), s) => (.ok s.size, s.store x)

/-- Adds a value, where all memory is given. -/
def push (s : Chunked α) (x : α) : Except Failure (Chunked α) :=
  match s.add {} x with
  | (.ok _, s) => .ok s
  | (.error _, _) => .error .noRoom

end Chunked

end MarkupGrammar
