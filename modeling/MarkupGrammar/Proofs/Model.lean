import MarkupGrammar.Model
import MarkupGrammar.Proofs.Overlap

/-! # Runs of a content model

A model *admits* a word if it matches its names, offered one by one from the start, and the content
may end then. A symbol has a rank for the names that its leaf fits. -/

namespace MarkupGrammar

/-! ## Ranks -/

section Ranks

variable {c : Option Comparator} {s : Symbol} {n : Name}

/-- A symbol has a rank for the names that its leaf fits. -/
theorem Symbol.isSome_rank? : (s.rank? c n).isSome ↔ s.leaf.fits c n := by
  obtain ⟨l, d⟩ := s
  cases l with
  | element x =>
    by_cases h : x = n
    · simp [rank?, Leaf.fits, h]
    · by_cases h' : Comparator.isRelated c x n <;> simp [rank?, Leaf.fits, h, h']
  | wildcard w => by_cases h : w.allows n <;> simp [rank?, Leaf.fits, h]

theorem firstLeast?_eq_some {α : Type} {rank? : α → Option Nat} {xs : List α} {x : α}
    (h : firstLeast? rank? xs = some x) : x ∈ xs ∧ (rank? x).isSome := by
  induction xs generalizing x with
  | nil => simp [firstLeast?] at h
  | cons y ys ih =>
    have later {z : α} (hz : firstLeast? rank? ys = some z) :
        z ∈ y :: ys ∧ (rank? z).isSome :=
      ⟨List.mem_cons_of_mem _ (ih hz).1, (ih hz).2⟩
    unfold firstLeast? at h
    split at h
    · exact later h
    · rename_i r hr _
      obtain rfl := Option.some.inj h
      exact ⟨List.mem_cons_self, by simp [hr]⟩
    · rename_i r z hr hz
      split at h
      · obtain rfl := Option.some.inj h
        exact later hz
      · obtain rfl := Option.some.inj h
        exact ⟨List.mem_cons_self, by simp [hr]⟩

theorem firstLeast?_eq_none {α : Type} {rank? : α → Option Nat} {xs : List α}
    (h : firstLeast? rank? xs = none) : ∀ x ∈ xs, rank? x = none := by
  induction xs with
  | nil => simp
  | cons y ys ih =>
    unfold firstLeast? at h
    split at h
    · rename_i hy
      exact List.forall_mem_cons.mpr ⟨hy, ih h⟩
    · simp at h
    · split at h <;> simp at h

theorem isSome_firstLeast? {α : Type} {rank? : α → Option Nat} {xs : List α} :
    (firstLeast? rank? xs).isSome ↔ ∃ x ∈ xs, (rank? x).isSome := by
  constructor
  · intro h
    obtain ⟨x, hx⟩ := Option.isSome_iff_exists.mp h
    exact ⟨x, firstLeast?_eq_some hx⟩
  · rintro ⟨x, hx, hr⟩
    cases h : firstLeast? rank? xs with
    | some y => rfl
    | none =>
      rw [firstLeast?_eq_none h x hx] at hr
      exact Bool.noConfusion hr

/-- A symbol that is taken is a match. -/
theorem Symbol.exists_answer_eq (s : Symbol) : ∃ d p, s.answer = .matched d p := by
  unfold Symbol.answer
  split <;> exact ⟨_, _, rfl⟩

end Ranks

/-! ## Runs -/

/-- The symbols of the transitions from a state, with their numbers. -/
def Automaton.outgoing (a : Automaton) (i : Nat) : List (Symbol × Nat) :=
  match a.states[i]? with
  | some st => st.transitions.filterMap fun (s, _) => (a.symbols[s]?).map (·, s)
  | none => []

namespace Model

variable (m : Model) (c : Option Comparator)

/-- Offers a child; there is no state after one that is not matched. -/
def offer? (st : ModelState) (n : Name) : Option ModelState :=
  match m.accept c st n with
  | (.matched _ _, st') => some st'
  | _ => none

/-- Offers the children of a word from a state on. -/
def run? (st : ModelState) (w : List Name) : Option ModelState :=
  w.foldlM (m.offer? c) st

/-- All children of the word are matched, and the content may end after them. -/
def Admits (w : List Name) : Prop :=
  ∃ st, m.run? c m.start w = some st ∧ m.finish st = .ok ()

/-- What a state offers to the next child: the outgoing symbols of an automaton with their numbers,
or the open members of an all-group with their places. -/
def offers : Model → ModelState → List (Symbol × Nat)
  | children a, .children i => a.outgoing i
  | all g, .all counts => (g.openMembers counts).map fun (m, i) => (m.symbol, i)
  | _, _ => []

/-- In every state that matched children lead to, one offer at most has a rank for a name. -/
def AttributesUniquely : Prop :=
  ∀ u st, m.run? c m.start u = some st → ∀ n, ∀ x ∈ m.offers st, ∀ y ∈ m.offers st,
    (x.1.rank? c n).isSome → (y.1.rank? c n).isSome → x = y

variable {m c}

theorem run?_concat (st : ModelState) (u : List Name) (n : Name) :
    m.run? c st (u ++ [n]) = (m.run? c st u).bind (m.offer? c · n) := by
  unfold run?
  rw [List.foldlM_append]
  cases u.foldlM (m.offer? c) st <;> simp

/-- The next state of an automaton is that of the transition taken. -/
theorem offer?_children (a : Automaton) (i : Nat) (n : Name) :
    (children a).offer? c (.children i) n =
      (a.step? c i n).map fun y => .children y.2 := by
  unfold offer?
  simp only [accept]
  cases a.step? c i n with
  | none => rfl
  | some y =>
    obtain ⟨d, p, h⟩ := y.1.exists_answer_eq
    simp [h]

/-- Mixed content allows the names that one of its leaves fits. -/
theorem isSome_offer?_mixed {symbols : List Symbol} {st : ModelState} {n : Name} :
    ((mixed symbols).offer? c st n).isSome ↔ ∃ s ∈ symbols, s.leaf.fits c n := by
  simp only [← Symbol.isSome_rank?, ← isSome_firstLeast?]
  unfold offer?
  simp only [accept]
  cases firstLeast? (Symbol.rank? c n) symbols with
  | none => simp
  | some s =>
    obtain ⟨d, p, h⟩ := s.exists_answer_eq
    simp [h]

end Model

end MarkupGrammar
