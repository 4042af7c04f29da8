import MarkupGrammar.Proofs.Automaton.Exploration
import MarkupGrammar.Proofs.Automaton.Setup
import MarkupGrammar.Proofs.Model

/-! # Runs of an automaton

After a word that is matched, the automaton is in a state whose set is sound for the word
(`run_sound`). If in no state that is reached two symbols fit one name, the sets are exact, a word
is matched as long as some position can come next, and the automaton admits the language of the tree
(`admits_iff`). -/

namespace MarkupGrammar

open Construction

/-- The automaton is the one constructed for a tree, where `found` are the sets of its states. -/
structure Automaton.Realizes (a : Automaton) (c : Option Comparator) (e : ExpressionTree Position)
    (k : Setup) (start : NumberSet) (found : Array NumberSet) : Prop where
  models : Models k e
  exact_start (fits : Leaf → Name → Prop) : Exact fits e [] start
  explored : Explored c k start found a.states
  symbols : a.symbols = k.symbols.map fun l => ⟨l, none⟩

namespace Automaton

variable {a : Automaton} {c : Option Comparator} {e : ExpressionTree Position} {k : Setup}
  {start set : NumberSet} {found : Array NumberSet} {i j s : Nat} {l : Leaf} {u w : List Name}
  {n : Name} {x : Nat × NumberSet} {y : Symbol × Nat} {st : ModelState}

theorem Realizes.state (h : a.Realizes c e k start found) (hi : found[i]? = some set) :
    ∃ st, a.states[i]? = some st ∧ Worked c k found set st := by
  have hlt : i < a.states.size := by
    rw [h.explored.size]
    exact (Array.getElem?_eq_some_iff.mp hi).1
  have hst := Array.getElem?_eq_getElem hlt
  obtain ⟨set', hi', hw⟩ := h.explored.state i _ hst
  obtain rfl := Option.some.inj (hi.symm.trans hi')
  exact ⟨_, hst, hw⟩

theorem Realizes.symbol_iff (h : a.Realizes c e k start found) {y : Symbol} :
    a.symbols[s]? = some y ↔ k.symbols[s]? = some y.leaf ∧ y.decl? = none := by
  obtain ⟨l, d⟩ := y
  rw [h.symbols, Array.getElem?_map]
  cases k.symbols[s]? <;> simp [eq_comm]

/-! ## Transitions -/

theorem forall₂_mem_left {α β : Type} {R : α → β → Prop} {xs : List α} {ys : List β}
    (h : List.Forall₂ R xs ys) {x : α} (hx : x ∈ xs) : ∃ y ∈ ys, R x y := by
  induction h with
  | nil => simp at hx
  | cons hr _ ih =>
    rcases List.mem_cons.mp hx with rfl | hx
    · exact ⟨_, List.mem_cons_self, hr⟩
    · obtain ⟨y, hy, hr⟩ := ih hx
      exact ⟨y, List.mem_cons_of_mem _ hy, hr⟩

/-- A choice of a state comes from a move of its set. -/
theorem Realizes.of_mem_choices (h : a.Realizes c e k start found) (hi : found[i]? = some set)
    (hy : y ∈ a.choices i) : ∃ x ∈ moves k set, k.symbols[x.1]? = some y.1.leaf ∧
      found[y.2]? = some x.2 := by
  obtain ⟨st, hst, hw⟩ := h.state hi
  rw [choices, hst] at hy
  obtain ⟨t, ht, hy⟩ := List.mem_filterMap.mp hy
  obtain ⟨z, hz, rfl⟩ := Option.map_eq_some_iff.mp hy
  obtain ⟨x, hx, hs, hf⟩ := forall₂_mem_left hw.transitions.flip ht
  rw [hs] at hz
  exact ⟨x, hx, (h.symbol_iff.mp hz).1, hf⟩

/-- A move of a set is a choice of its state. -/
theorem Realizes.exists_choice (h : a.Realizes c e k start found) (hi : found[i]? = some set)
    (hx : x ∈ moves k set) (hl : k.symbols[x.1]? = some l) :
    ∃ j, (⟨l, none⟩, j) ∈ a.choices i := by
  obtain ⟨st, hst, hw⟩ := h.state hi
  obtain ⟨t, ht, hs, -⟩ := forall₂_mem_left hw.transitions hx
  refine ⟨t.2, ?_⟩
  rw [choices, hst]
  refine List.mem_filterMap.mpr ⟨t, ht, ?_⟩
  have hz : a.symbols[t.1]? = some ⟨l, none⟩ := by
    rw [hs]
    exact h.symbol_iff.mpr ⟨hl, rfl⟩
  simp [hz]

/-- The outgoing symbols of a state are those of the positions of its set. -/
theorem Realizes.mem_outgoing (h : a.Realizes c e k start found) (hi : found[i]? = some set) :
    y ∈ a.outgoing i ↔ (∃ p ∈ members k set, symbol k p = y.2) ∧
      k.symbols[y.2]? = some y.1.leaf ∧ y.1.decl? = none := by
  obtain ⟨st, hst, hw⟩ := h.state hi
  rw [outgoing, hst, ← mem_moves_fst, ← h.symbol_iff, List.mem_filterMap]
  constructor
  · rintro ⟨t, ht, hy⟩
    obtain ⟨z, hz, rfl⟩ := Option.map_eq_some_iff.mp hy
    obtain ⟨x, hx, hs, -⟩ := forall₂_mem_left hw.transitions.flip ht
    exact ⟨List.mem_map.mpr ⟨x, hx, hs.symm⟩, hz⟩
  · rintro ⟨hm, hz⟩
    obtain ⟨x, hx, hxs⟩ := List.mem_map.mp hm
    obtain ⟨t, ht, hs, -⟩ := forall₂_mem_left hw.transitions hx
    exact ⟨t, ht, by simp [hs, hxs, hz]⟩

/-! ## Steps -/

/-- In the set one symbol at most fits the name. -/
def Unique (c : Option Comparator) (e : ExpressionTree Position) (k : Setup) (set : NumberSet)
    (n : Name) : Prop :=
  ∀ p ∈ set.toList, ∀ q ∈ set.toList, e.Takes (Leaf.fits c) p n → e.Takes (Leaf.fits c) q n →
    symbol k p = symbol k q

theorem step_sound (h : a.Realizes c e k start found) (hi : found[i]? = some set)
    (hs : Sound (Leaf.fits c) e u set)
    (hstep : (Model.children a).offer? c (.children i) n = some st) :
    ∃ j set', st = .children j ∧ found[j]? = some set' ∧ Sound (Leaf.fits c) e (u ++ [n]) set' ∧
      (Exact (Leaf.fits c) e u set → Unique c e k set n →
        Exact (Leaf.fits c) e (u ++ [n]) set') := by
  rw [Model.offer?_children] at hstep
  obtain ⟨y, hy, rfl⟩ := Option.map_eq_some_iff.mp hstep
  obtain ⟨hmem, hrank⟩ := firstLeast?_eq_some hy
  obtain ⟨x, hx, hl, hf⟩ := h.of_mem_choices hi hmem
  have hfits := Symbol.isSome_rank?.mp hrank
  refine ⟨y.2, x.2, rfl, hf, sound_move h.models hs hx hl hfits, fun he hu => ?_⟩
  refine exact_move h.models he hx hl hfits fun p hp ht => ?_
  obtain ⟨p', hp', hsym⟩ := mem_moves_fst.mp (List.mem_map_of_mem hx)
  rw [← hsym]
  have ht' := takes_of_symbol h.models hs hp' (hsym ▸ hl) hfits
  exact hu p hp p' (mem_members.mp hp').1 ht ht'

/-- A name that is not matched is one that no position takes. -/
theorem step_none (h : a.Realizes c e k start found) (hi : found[i]? = some set)
    (hstep : (Model.children a).offer? c (.children i) n = none) :
    ∀ p ∈ set.toList, ¬ e.Takes (Leaf.fits c) p n := by
  rw [Model.offer?_children, Option.map_eq_none_iff] at hstep
  intro p hp ht
  have hm := (mem_members_of_takes h.models ht).mpr hp
  obtain ⟨z, hz, hf⟩ := ht
  obtain ⟨x, hx, hsym⟩ := List.mem_map.mp (mem_moves_fst.mpr ⟨p, hm, rfl⟩)
  have hl := symbols_symbol h.models hz
  rw [← hsym] at hl
  obtain ⟨j, hj⟩ := h.exists_choice hi hx hl
  have hnone := firstLeast?_eq_none hstep _ hj
  have := Symbol.isSome_rank? (c := c) (s := ⟨z.leaf, none⟩).mpr hf
  simp [hnone] at this

/-! ## Runs -/

/-- **The state after a matched word is sound for it.** -/
theorem run_sound (h : a.Realizes c e k start found)
    (hrun : (Model.children a).run? c (.children 0) u = some st) :
    ∃ i set, st = .children i ∧ found[i]? = some set ∧ Sound (Leaf.fits c) e u set := by
  induction u using List.reverseRecOn generalizing st with
  | nil =>
    obtain rfl := Option.some.inj hrun
    exact ⟨0, start, rfl, h.explored.first, (h.exact_start _).sound⟩
  | append_singleton u n ih =>
    rw [Model.run?_concat] at hrun
    obtain ⟨st', hu, hstep⟩ := Option.bind_eq_some_iff.mp hrun
    obtain ⟨i, set, rfl, hi, hs⟩ := ih hu
    obtain ⟨j, set', rfl, hj, hs', -⟩ := step_sound h hi hs hstep
    exact ⟨j, set', rfl, hj, hs'⟩

/-- One symbol at most fits a name in all states that are reached. -/
def UniqueRuns (a : Automaton) (c : Option Comparator) (e : ExpressionTree Position) (k : Setup)
    (found : Array NumberSet) : Prop :=
  ∀ u i set, (Model.children a).run? c (.children 0) u = some (.children i) →
    found[i]? = some set → ∀ n, Unique c e k set n

/-- The state after a word is exact for it; there is none if nothing can come next after the
word. -/
theorem run_exact (h : a.Realizes c e k start found) (hu : a.UniqueRuns c e k found)
    (u : List Name) :
    (∃ i set, (Model.children a).run? c (.children 0) u = some (.children i) ∧
      found[i]? = some set ∧ Exact (Leaf.fits c) e u set) ∨
    ((Model.children a).run? c (.children 0) u = none ∧ ∀ q, ¬ e.Next (Leaf.fits c) u q) := by
  induction u using List.reverseRecOn with
  | nil => exact .inl ⟨0, start, rfl, h.explored.first, h.exact_start _⟩
  | append_singleton u n ih =>
    rw [Model.run?_concat]
    rcases ih with ⟨i, set, hrun, hi, he⟩ | ⟨hrun, hno⟩
    · rw [hrun, Option.bind_some]
      cases hstep : (Model.children a).offer? c (.children i) n with
      | none => exact .inr ⟨rfl, fun q => not_next_of_no_symbol he (step_none h hi hstep)⟩
      | some st =>
        obtain ⟨j, set', rfl, hj, -, he'⟩ := step_sound h hi he.sound hstep
        exact .inl ⟨j, set', rfl, hj, he' he (hu u i set hrun hi n)⟩
    · rw [hrun]
      refine .inr ⟨rfl, fun q hq => ?_⟩
      obtain ⟨p, hp, -⟩ := ExpressionTree.next_concat.mp hq
      exact hno p hp

/-- The content may end in a state whose set has the end mark. -/
theorem finish_iff (h : a.Realizes c e k start found) (hi : found[i]? = some set) :
    (Model.children a).finish (.children i) = .ok () ↔ e.leaves.length ∈ set.toList := by
  obtain ⟨st, hst, hw⟩ := h.state hi
  have hacc : a.isAccepting i = set.contains k.endMark := by
    simp [isAccepting, hst, hw.accepting]
  rw [← h.models.endMark, ← NumberSet.contains_iff, ← hacc]
  simp [Model.finish]

/-- A word that is admitted belongs to the language of the tree. -/
theorem admits_sound (h : a.Realizes c e k start found)
    (hw : (Model.children a).Admits c w) : w ∈ e.language fun x n => x.leaf.fits c n := by
  obtain ⟨st, hrun, hfin⟩ := hw
  obtain ⟨i, set, rfl, hi, hs⟩ := run_sound h hrun
  exact ExpressionTree.next_length.mp (hs _ ((finish_iff h hi).mp hfin))

/-- **The words admitted are those of the language if runs are unique.** -/
theorem admits_iff (h : a.Realizes c e k start found) (hu : a.UniqueRuns c e k found) :
    (Model.children a).Admits c w ↔ w ∈ e.language fun x n => x.leaf.fits c n := by
  refine ⟨admits_sound h, fun hw => ?_⟩
  have hnext : e.Next (Leaf.fits c) w e.leaves.length := ExpressionTree.next_length.mpr hw
  rcases run_exact h hu w with ⟨i, set, hrun, hi, he⟩ | ⟨-, hno⟩
  · exact ⟨.children i, hrun, (finish_iff h hi).mpr ((he _).mpr hnext)⟩
  · exact absurd hnext (hno _)

end Automaton

end MarkupGrammar
