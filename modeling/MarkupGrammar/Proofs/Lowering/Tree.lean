import MarkupGrammar.Proofs.Expression.Tree
import Mathlib.Algebra.BigOperators.Group.List.Basic

/-! # The tree of a particle

Lowering a particle makes the nodes of a tree. Here the tree is described without a table, and its
language is found to be that of the particle (`language_tree`): an occurrence range becomes the
repetitions that it requires, in sequence, with the optional ones nested behind them, and a group is
put together from the left.

The leaves of the tree say which leaf of the particle they come from; a leaf that is repeated has
several leaves in the tree, of one number (`mem_leaves_repeated`). -/

namespace MarkupGrammar

open Computability

namespace Occurs

variable {α : Type} {L : Language α} {w : List α}

theorem mem_language {o : Occurs} :
    w ∈ o.language L ↔ ∃ k, o.min ≤ k ∧ (∀ max ∈ o.max, k ≤ max) ∧ w ∈ L ^ k := Iff.rfl

theorem mem_language_some {min max : Nat} :
    w ∈ language ⟨min, some max⟩ L ↔ ∃ k, min ≤ k ∧ k ≤ max ∧ w ∈ L ^ k := by
  simp [mem_language]

theorem mem_language_none {min : Nat} :
    w ∈ language ⟨min, none⟩ L ↔ ∃ k, min ≤ k ∧ w ∈ L ^ k := by
  simp [mem_language]

theorem language_once : language ⟨1, some 1⟩ L = L := by
  ext w
  rw [mem_language_some]
  constructor
  · rintro ⟨k, h, h', hw⟩
    obtain rfl := le_antisymm h' h
    rwa [pow_one] at hw
  · intro hw
    exact ⟨1, le_rfl, le_rfl, by rwa [pow_one]⟩

theorem language_zero : language ⟨0, some 0⟩ L = 1 := by
  ext w
  rw [mem_language_some]
  constructor
  · rintro ⟨k, -, h, hw⟩
    obtain rfl := Nat.le_zero.mp h
    exact hw
  · intro hw
    exact ⟨0, le_rfl, le_rfl, hw⟩

theorem language_unbounded (min : Nat) : language ⟨min, none⟩ L = L ^ min * L∗ := by
  ext w
  rw [mem_language_none, Language.kstar_eq_iSup_pow, Language.mul_iSup, Language.mem_iSup]
  constructor
  · rintro ⟨k, h, hw⟩
    exact ⟨k - min, by rwa [← pow_add, Nat.add_sub_cancel' h]⟩
  · rintro ⟨k, hw⟩
    exact ⟨min + k, Nat.le_add_right _ _, by rwa [pow_add]⟩

/-- The required repetitions and the optional ones after them. -/
theorem language_split {min max : Nat} (h : min ≤ max) :
    language ⟨min, some max⟩ L = L ^ min * language ⟨0, some (max - min)⟩ L := by
  ext w
  rw [mem_language_some, Language.mem_mul]
  constructor
  · rintro ⟨k, hmin, hmax, hw⟩
    rw [← Nat.add_sub_cancel' hmin, pow_add] at hw
    obtain ⟨u, hu, v, hv, rfl⟩ := Language.mem_mul.mp hw
    exact ⟨u, hu, v, mem_language_some.mpr ⟨k - min, Nat.zero_le _, by omega, hv⟩, rfl⟩
  · rintro ⟨u, hu, v, hv, rfl⟩
    obtain ⟨k, -, hk, hv⟩ := mem_language_some.mp hv
    exact ⟨min + k, by omega, by omega, by rw [pow_add]; exact ⟨u, hu, v, hv, rfl⟩⟩

theorem check_some {min max : Nat} : check ⟨min, some max⟩ = .ok () ↔ min ≤ max := by
  simp [check]

end Occurs

theorem Compositor.language_sequence {α : Type} (Ls : List (Language α)) :
    Compositor.language .sequence Ls = Ls.prod := rfl

/-- A word of a choice with members is one of a member. -/
theorem Compositor.mem_language_choice {α : Type} {Ls : List (Language α)} {w : List α}
    (h : Ls ≠ []) : w ∈ Compositor.language .choice Ls ↔ ∃ L ∈ Ls, w ∈ L := by
  have hsum (Ls : List (Language α)) : w ∈ Ls.sum ↔ ∃ L ∈ Ls, w ∈ L := by
    induction Ls with
    | nil => simp
    | cons L Ls ih => rw [List.sum_cons, Language.mem_add, ih, List.exists_mem_cons_iff]
  cases Ls with
  | nil => exact absurd rfl h
  | cons L Ls => exact hsum (L :: Ls)

namespace ExpressionTree

variable {ι κ α : Type}

/-- Two members of a group. -/
def join (c : Compositor) (a b : ExpressionTree ι) : ExpressionTree ι :=
  if c = .choice then choice a b else sequence a b

/-- The members of a group, put together from the left. -/
def combined (c : Compositor) : List (ExpressionTree ι) → ExpressionTree ι
  | [] => empty
  | first :: rest => rest.foldl (join c) first

/-- Wraps `n` more optional repetitions around `inner`. -/
def optionalAround (e inner : ExpressionTree ι) : Nat → ExpressionTree ι
  | 0 => inner
  | n + 1 => optionalAround e (optional (sequence e inner)) n

/-- The repetitions that a range requires, without the one that may be repeated further. -/
def required (min : Nat) : Option Nat → Nat
  | none => min - 1
  | some _ => min

/-- What comes after the required repetitions. -/
def optionalRest (e : ExpressionTree ι) (min : Nat) : Option Nat → List (ExpressionTree ι)
  | none => [oneOrMore e]
  | some max =>
    if min < max then [optionalAround e (optional e) (max - min - 1)] else []

/-- A range without an operator. -/
def expanded (e : ExpressionTree ι) (min : Nat) (max : Option Nat) : ExpressionTree ι :=
  combined .sequence (List.replicate (required min max) e ++ optionalRest e min max)

/-- The tree with an occurrence range applied. -/
def repeated (e : ExpressionTree ι) (o : Occurs) : ExpressionTree ι :=
  match o.min, o.max with
  | 1, some 1 => e
  | 0, some 1 => optional e
  | 0, none => zeroOrMore e
  | 1, none => oneOrMore e
  | min, max => expanded e min max

theorem repeated_eq_expanded {e : ExpressionTree ι} {min : Nat} {max : Option Nat}
    (h₁ : min = 1 → max = some 1 → False) (h₂ : min = 0 → max = some 1 → False)
    (h₃ : min = 0 → max = none → False) (h₄ : min = 1 → max = none → False) :
    e.repeated ⟨min, max⟩ = e.expanded min max := by
  dsimp only [repeated]
  split
  · exact (h₁ rfl rfl).elim
  · exact (h₂ rfl rfl).elim
  · exact (h₃ rfl rfl).elim
  · exact (h₄ rfl rfl).elim
  · rfl

/-! ## Languages -/

variable {m : ι → α → Prop} {e : ExpressionTree ι}

theorem language_sequenceFrom (first : ExpressionTree ι) (rest : List (ExpressionTree ι)) :
    (rest.foldl sequence first).language m = ((first :: rest).map (language m)).prod := by
  induction rest generalizing first with
  | nil => simp
  | cons e rest ih =>
    rw [List.foldl_cons, ih]
    simp only [language, List.map_cons, List.prod_cons, mul_assoc]

theorem language_choiceFrom (first : ExpressionTree ι) (rest : List (ExpressionTree ι)) :
    (rest.foldl choice first).language m = ((first :: rest).map (language m)).sum := by
  induction rest generalizing first with
  | nil => simp
  | cons e rest ih =>
    rw [List.foldl_cons, ih]
    simp only [language, List.map_cons, List.sum_cons, add_assoc]

theorem language_combined {c : Compositor} (hc : c ≠ .all) (es : List (ExpressionTree ι)) :
    (combined c es).language m = c.language (es.map (language m)) := by
  cases c with
  | sequence =>
    cases es with
    | nil => rfl
    | cons first rest => exact language_sequenceFrom first rest
  | choice =>
    cases es with
    | nil => rfl
    | cons first rest => exact language_choiceFrom first rest
  | all => exact absurd rfl hc

theorem mem_language_optionalAround {inner : ExpressionTree ι} {n : Nat} {w : List α} :
    w ∈ (optionalAround e inner n).language m ↔
      (∃ k < n, w ∈ e.language m ^ k) ∨ w ∈ e.language m ^ n * inner.language m := by
  induction n generalizing inner with
  | zero => simp [optionalAround]
  | succ n ih =>
    rw [optionalAround, ih]
    simp only [language, mul_add, mul_one, ← mul_assoc, ← pow_succ, Language.mem_add]
    constructor
    · rintro (⟨k, hk, hw⟩ | hw | hw)
      · exact .inl ⟨k, by omega, hw⟩
      · exact .inl ⟨n, by omega, hw⟩
      · exact .inr hw
    · rintro (⟨k, hk, hw⟩ | hw)
      · rcases Nat.lt_succ_iff_lt_or_eq.mp hk with h | rfl
        · exact .inl ⟨k, h, hw⟩
        · exact .inr (.inl hw)
      · exact .inr (.inr hw)

/-- Nested optional repetitions are up to one more than they are nested. -/
theorem language_optionalAround (n : Nat) :
    (optionalAround e (optional e) n).language m =
      Occurs.language ⟨0, some (n + 1)⟩ (e.language m) := by
  ext w
  rw [mem_language_optionalAround, Occurs.mem_language_some]
  simp only [language, mul_add, mul_one, ← pow_succ, Language.mem_add]
  constructor
  · rintro (⟨k, hk, hw⟩ | hw | hw)
    · exact ⟨k, by omega, by omega, hw⟩
    · exact ⟨n, by omega, by omega, hw⟩
    · exact ⟨n + 1, by omega, by omega, hw⟩
  · rintro ⟨k, -, hk, hw⟩
    rcases Nat.lt_trichotomy k n with h | rfl | h
    · exact .inl ⟨k, h, hw⟩
    · exact .inr (.inl hw)
    · obtain rfl : k = n + 1 := by omega
      exact .inr (.inr hw)

theorem language_expanded {min : Nat} {max : Option Nat} (hmin : max = none → 1 ≤ min)
    (hmax : Occurs.check ⟨min, max⟩ = .ok ()) :
    (expanded e min max).language m = Occurs.language ⟨min, max⟩ (e.language m) := by
  rw [expanded, language_combined (by decide), Compositor.language_sequence, List.map_append,
    List.prod_append, List.map_replicate, List.prod_replicate]
  cases max with
  | none =>
    rw [Occurs.language_unbounded]
    simp only [required, optionalRest, List.map_cons, List.map_nil, List.prod_singleton, language]
    rw [← mul_assoc, ← pow_succ, Nat.sub_add_cancel (hmin rfl)]
  | some max =>
    have hle := Occurs.check_some.mp hmax
    rw [Occurs.language_split hle]
    simp only [required, optionalRest]
    split
    · rw [List.map_singleton, List.prod_singleton, language_optionalAround,
        Nat.sub_add_cancel (by omega)]
    · obtain rfl : min = max := by omega
      rw [Nat.sub_self, Occurs.language_zero]
      rfl

/-- A tree with a range applied has the language of the range. -/
theorem language_repeated {o : Occurs} (ho : o.check = .ok ()) :
    (e.repeated o).language m = o.language (e.language m) := by
  obtain ⟨min, max⟩ := o
  unfold repeated
  split
  · rename_i h h'
    obtain ⟨rfl, rfl⟩ : min = 1 ∧ max = some 1 := ⟨h, h'⟩
    rw [Occurs.language_once]
  · rename_i h h'
    obtain ⟨rfl, rfl⟩ : min = 0 ∧ max = some 1 := ⟨h, h'⟩
    exact language_optionalAround 0
  · rename_i h h'
    obtain ⟨rfl, rfl⟩ : min = 0 ∧ max = none := ⟨h, h'⟩
    rw [Occurs.language_unbounded, pow_zero, one_mul, language]
  · rename_i h h'
    obtain ⟨rfl, rfl⟩ : min = 1 ∧ max = none := ⟨h, h'⟩
    rw [Occurs.language_unbounded, pow_one, language]
  · rename_i h0 h1 h2 h3
    refine language_expanded (fun hmax => ?_) ho
    by_contra h
    exact h2 (by simpa using h) hmax

/-! ## Labels -/

theorem map_combined (f : ι → κ) (c : Compositor) (es : List (ExpressionTree ι)) :
    (combined c es).map f = combined c (es.map (map f)) := by
  cases es with
  | nil => rfl
  | cons first rest =>
    simp only [combined, List.map_cons]
    induction rest generalizing first with
    | nil => rfl
    | cons e rest ih =>
      have hj : (join c first e).map f = join c (first.map f) (e.map f) := by
        unfold join
        split <;> rfl
      rw [List.foldl_cons, ih, hj, List.map_cons, List.foldl_cons]

theorem map_optionalAround (f : ι → κ) (e inner : ExpressionTree ι) (n : Nat) :
    (optionalAround e inner n).map f = optionalAround (e.map f) (inner.map f) n := by
  induction n generalizing inner with
  | zero => rfl
  | succ n ih => exact ih _

theorem map_optionalRest (f : ι → κ) (e : ExpressionTree ι) (min : Nat) (max : Option Nat) :
    (optionalRest e min max).map (map f) = optionalRest (e.map f) min max := by
  cases max with
  | none => rfl
  | some max =>
    simp only [optionalRest]
    split
    · simp [map_optionalAround, map]
    · rfl

theorem map_repeated (f : ι → κ) (e : ExpressionTree ι) (o : Occurs) :
    (e.repeated o).map f = (e.map f).repeated o := by
  unfold repeated
  split
  · rfl
  · rfl
  · rfl
  · rfl
  · rw [expanded, map_combined, List.map_append, List.map_replicate, map_optionalRest, expanded]

theorem leaves_combined (c : Compositor) (es : List (ExpressionTree ι)) :
    (combined c es).leaves = es.flatMap leaves := by
  cases es with
  | nil => rfl
  | cons first rest =>
    simp only [combined]
    induction rest generalizing first with
    | nil => simp
    | cons e rest ih =>
      have hj : (join c first e).leaves = first.leaves ++ e.leaves := by
        unfold join
        split <;> rfl
      rw [List.foldl_cons, ih]
      simp [hj]

theorem mem_leaves_optionalAround {inner : ExpressionTree ι} {n : Nat} {x : ι} :
    x ∈ (optionalAround e inner n).leaves ↔ (0 < n ∧ x ∈ e.leaves) ∨ x ∈ inner.leaves := by
  induction n generalizing inner with
  | zero => simp [optionalAround]
  | succ n ih =>
    rw [optionalAround, ih]
    simp [leaves]
    tauto

/-- The leaves of the repetitions are those of what is repeated. -/
theorem mem_leaves_expanded {min : Nat} {max : Option Nat} (ho : Occurs.check ⟨min, max⟩ = .ok ())
    (he : max ≠ some 0) {x : ι} : x ∈ (expanded e min max).leaves ↔ x ∈ e.leaves := by
  rw [expanded, leaves_combined, List.flatMap_append, List.mem_append]
  cases max with
  | none => simp [optionalRest, leaves]
  | some max =>
    have hle := Occurs.check_some.mp ho
    have hne : max ≠ 0 := fun h => he (h ▸ rfl)
    simp only [required, optionalRest, List.mem_flatMap, List.mem_replicate]
    split
    · simp only [List.mem_singleton, exists_eq_left, mem_leaves_optionalAround, leaves]
      constructor
      · rintro (⟨_, ⟨-, rfl⟩, h⟩ | ⟨-, h⟩ | h) <;> exact h
      · exact fun h => .inr (.inr h)
    · have : min ≠ 0 := by omega
      simp [this]

theorem mem_leaves_repeated {o : Occurs} (ho : o.check = .ok ()) (he : o.isEmpty = false) {x : ι} :
    x ∈ (e.repeated o).leaves ↔ x ∈ e.leaves := by
  obtain ⟨min, max⟩ := o
  unfold repeated
  split
  · rfl
  · rfl
  · rfl
  · rfl
  · exact mem_leaves_expanded ho (by simpa [Occurs.isEmpty] using he)

end ExpressionTree

end MarkupGrammar
