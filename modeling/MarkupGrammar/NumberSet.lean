/-! # Sets of numbers

Sets with many members that follow each other. A set is a list of *runs*, in ascending order and
apart from each other, so that equal sets have equal runs. The view of a set is `toList`, its
members in ascending order. -/

namespace MarkupGrammar

/-- Numbers in a row. -/
structure NumberSet.Run where
  start : Nat
  /-- How many numbers come after the first one. -/
  more : Nat
  deriving DecidableEq, Repr, Inhabited

/-- A set of numbers. -/
structure NumberSet where
  runs : List NumberSet.Run
  deriving DecidableEq, Repr, Inhabited

namespace NumberSet

/-- The numbers of a run. -/
def Run.toList (r : Run) : List Nat := List.range' r.start (r.more + 1)

/-- Two runs as one, unless there are numbers between them. -/
def Run.join? (r t : Run) : Option Run :=
  if r.start ≤ t.start + t.more + 1 ∧ t.start ≤ r.start + r.more + 1 then
    let start := min r.start t.start
    some ⟨start, max (r.start + r.more) (t.start + t.more) - start⟩
  else none

/-- Puts a run in front of runs that do not begin before it. -/
def addRun : Run → List Run → List Run
  | r, [] => [r]
  | r, t :: ts =>
    match r.join? t with
    | some joined => addRun joined ts
    | none => r :: t :: ts

/-- The runs of two sets. -/
def mergeRuns : List Run → List Run → List Run
  | [], ts => ts
  | rs, [] => rs
  | r :: rs, t :: ts =>
    if r.start ≤ t.start then addRun r (mergeRuns rs (t :: ts))
    else addRun t (mergeRuns (r :: rs) ts)
  termination_by rs ts => rs.length + ts.length

/-- No number. -/
def empty : NumberSet := ⟨[]⟩

/-- One number. -/
def single (p : Nat) : NumberSet := ⟨[⟨p, 0⟩]⟩

/-- The numbers in either set. -/
def union (s t : NumberSet) : NumberSet := ⟨mergeRuns s.runs t.runs⟩

/-- The members of a set. -/
def toList (s : NumberSet) : List Nat := s.runs.flatMap Run.toList

/-- Membership. -/
def contains (s : NumberSet) (p : Nat) : Bool :=
  s.runs.any fun r => r.start ≤ p && p ≤ r.start + r.more

/-! ## Members -/

theorem Run.mem_toList {r : Run} {p : Nat} :
    p ∈ r.toList ↔ r.start ≤ p ∧ p ≤ r.start + r.more := by
  rw [Run.toList, List.mem_range'_1]
  omega

theorem Run.mem_join? {r t u : Run} {p : Nat} (h : r.join? t = some u) :
    p ∈ u.toList ↔ p ∈ r.toList ∨ p ∈ t.toList := by
  unfold Run.join? at h
  split at h
  · obtain rfl := Option.some.inj h
    simp only [Run.mem_toList]
    omega
  · simp at h

theorem mem_addRun {r : Run} {ts : List Run} {p : Nat} :
    p ∈ (addRun r ts).flatMap Run.toList ↔ p ∈ r.toList ∨ p ∈ ts.flatMap Run.toList := by
  fun_induction addRun r ts with
  | case1 r => simp
  | case2 r t ts u h ih => rw [ih, Run.mem_join? h, List.flatMap_cons, List.mem_append, or_assoc]
  | case3 r t ts h => rw [List.flatMap_cons, List.mem_append]

theorem mem_mergeRuns {rs ts : List Run} {p : Nat} :
    p ∈ (mergeRuns rs ts).flatMap Run.toList ↔
      p ∈ rs.flatMap Run.toList ∨ p ∈ ts.flatMap Run.toList := by
  fun_induction mergeRuns rs ts with
  | case1 => simp
  | case2 => simp
  | case3 r rs t ts h ih => simp only [mem_addRun, ih, List.flatMap_cons, List.mem_append, or_assoc]
  | case4 r rs t ts h ih =>
    simp only [mem_addRun, ih, List.flatMap_cons, List.mem_append, or_left_comm]

@[simp]
theorem mem_union {s t : NumberSet} {p : Nat} :
    p ∈ (s.union t).toList ↔ p ∈ s.toList ∨ p ∈ t.toList := mem_mergeRuns

@[simp]
theorem toList_empty : empty.toList = [] := rfl

@[simp]
theorem toList_single (p : Nat) : (single p).toList = [p] := rfl

@[simp]
theorem contains_iff {s : NumberSet} {p : Nat} : s.contains p = true ↔ p ∈ s.toList := by
  simp [contains, toList, List.mem_flatMap, Run.mem_toList]

end NumberSet

end MarkupGrammar
