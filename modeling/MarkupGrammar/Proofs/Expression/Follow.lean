import MarkupGrammar.Proofs.Expression.Tree

/-! # First, last and following labels

Where all labels of a tree differ, its language over its own labels is *local*: a word belongs to it
if it begins with a label that can be first, goes on from each label to one that can follow it, and
ends with a label that can be last (`language_eq_traces`). The language over other letters comes
from it by replacing labels by letters that they are related to (`mem_language_iff`). -/

namespace MarkupGrammar

open Computability

/-- The words that arise from those of `L` by replacing each letter by a related one. -/
def lift {ι α : Type} (m : ι → α → Prop) (L : Language ι) : Language α :=
  {w | ∃ v ∈ L, List.Forall₂ m v w}

section Languages

variable {ι α : Type} {L : Language ι}

theorem mem_letters {P : α → Prop} {w : List α} : w ∈ letters P ↔ ∃ a, P a ∧ w = [a] := Iff.rfl

theorem mem_lift {m : ι → α → Prop} {w : List α} :
    w ∈ lift m L ↔ ∃ v ∈ L, List.Forall₂ m v w := Iff.rfl

theorem lift_one (m : ι → α → Prop) : lift m 1 = 1 := by
  ext w
  simp [mem_lift]

theorem lift_add (m : ι → α → Prop) (L K : Language ι) : lift m (L + K) = lift m L + lift m K := by
  ext w
  simp only [mem_lift, Language.mem_add, or_and_right, exists_or]

theorem forall₂_append_left {m : ι → α → Prop} {v v' : List ι} {w : List α}
    (h : List.Forall₂ m (v ++ v') w) :
    ∃ u u', List.Forall₂ m v u ∧ List.Forall₂ m v' u' ∧ w = u ++ u' := by
  induction v generalizing w with
  | nil => exact ⟨[], w, .nil, h, rfl⟩
  | cons x v ih =>
    obtain ⟨a, w, hx, hw, rfl⟩ := List.forall₂_cons_left_iff.mp h
    obtain ⟨u, u', hu, hu', rfl⟩ := ih hw
    exact ⟨a :: u, u', .cons hx hu, hu', rfl⟩

theorem lift_mul (m : ι → α → Prop) (L K : Language ι) : lift m (L * K) = lift m L * lift m K := by
  ext w
  simp only [mem_lift, Language.mem_mul]
  constructor
  · rintro ⟨_, ⟨v, hv, v', hv', rfl⟩, h⟩
    obtain ⟨u, u', hu, hu', rfl⟩ := forall₂_append_left h
    exact ⟨u, ⟨v, hv, hu⟩, u', ⟨v', hv', hu'⟩, rfl⟩
  · rintro ⟨u, ⟨v, hv, hu⟩, u', ⟨v', hv', hu'⟩, rfl⟩
    exact ⟨v ++ v', ⟨v, hv, v', hv', rfl⟩, List.rel_append hu hu'⟩

theorem lift_pow (m : ι → α → Prop) (L : Language ι) (k : ℕ) : lift m (L ^ k) = lift m L ^ k := by
  induction k with
  | zero => rw [pow_zero, pow_zero, lift_one]
  | succ k ih => rw [pow_succ, pow_succ, lift_mul, ih]

theorem lift_kstar (m : ι → α → Prop) (L : Language ι) : lift m L∗ = (lift m L)∗ := by
  ext w
  simp only [Language.kstar_eq_iSup_pow, Language.mem_iSup, ← lift_pow, mem_lift]
  constructor
  · rintro ⟨v, ⟨k, hv⟩, h⟩
    exact ⟨k, v, hv, h⟩
  · rintro ⟨k, v, hv, h⟩
    exact ⟨v, ⟨k, hv⟩, h⟩

theorem lift_letters (m : ι → α → Prop) (x : ι) : lift m (letters (x = ·)) = letters (m x) := by
  ext w
  simp only [mem_lift, mem_letters]
  constructor
  · rintro ⟨_, ⟨_, rfl, rfl⟩, h⟩
    obtain ⟨a, ha, rfl⟩ := by simpa [List.forall₂_cons_left_iff] using h
    exact ⟨a, ha, rfl⟩
  · rintro ⟨a, ha, rfl⟩
    exact ⟨[x], ⟨x, rfl, rfl⟩, .cons ha .nil⟩

/-- A word of an iterated language begins with a word of the language that is not empty. -/
theorem cons_mem_kstar {x : ι} {w : List ι} :
    x :: w ∈ L∗ ↔ ∃ v v', w = v ++ v' ∧ x :: v ∈ L ∧ v' ∈ L∗ := by
  constructor
  · intro h
    obtain ⟨S, hw, hS⟩ := Language.mem_kstar_iff_exists_nonempty.mp h
    cases S with
    | nil => simp at hw
    | cons u S =>
      obtain ⟨hu, hne⟩ := hS u (by simp)
      obtain ⟨y, v, rfl⟩ := List.exists_cons_of_ne_nil hne
      obtain ⟨rfl, rfl⟩ := by simpa using hw
      exact ⟨v, S.flatten, rfl, hu, Language.join_mem_kstar fun y hy => (hS y (by simp [hy])).1⟩
  · rintro ⟨v, v', rfl, hv, hv'⟩
    rw [← Language.one_add_self_mul_kstar_eq_kstar]
    exact Or.inr ⟨x :: v, hv, v', hv', rfl⟩

end Languages

namespace ExpressionTree

variable {ι α : Type}

/-- The empty word satisfies the tree. -/
def nullable : ExpressionTree ι → Bool
  | empty => true
  | leaf _ => false
  | choice a b => a.nullable || b.nullable
  | sequence a b => a.nullable && b.nullable
  | optional _ | zeroOrMore _ => true
  | oneOrMore a => a.nullable

/-- A word can begin with the label. -/
def IsFirst : ExpressionTree ι → ι → Prop
  | empty, _ => False
  | leaf y, x => x = y
  | choice a b, x => a.IsFirst x ∨ b.IsFirst x
  | sequence a b, x => a.IsFirst x ∨ (a.nullable ∧ b.IsFirst x)
  | optional a, x | zeroOrMore a, x | oneOrMore a, x => a.IsFirst x

/-- A word can end with the label. -/
def IsLast : ExpressionTree ι → ι → Prop
  | empty, _ => False
  | leaf y, x => x = y
  | choice a b, x => a.IsLast x ∨ b.IsLast x
  | sequence a b, x => b.IsLast x ∨ (b.nullable ∧ a.IsLast x)
  | optional a, x | zeroOrMore a, x | oneOrMore a, x => a.IsLast x

/-- The second label can come right after the first one. -/
def Follows : ExpressionTree ι → ι → ι → Prop
  | empty, _, _ | leaf _, _, _ => False
  | choice a b, x, y => a.Follows x y ∨ b.Follows x y
  | sequence a b, x, y => a.Follows x y ∨ b.Follows x y ∨ (a.IsLast x ∧ b.IsFirst y)
  | optional a, x, y => a.Follows x y
  | zeroOrMore a, x, y | oneOrMore a, x, y => a.Follows x y ∨ (a.IsLast x ∧ a.IsFirst y)

/-- A word can go on with `w` to its end after the label. -/
def Continues (e : ExpressionTree ι) : ι → List ι → Prop
  | x, [] => e.IsLast x
  | x, y :: w => e.Follows x y ∧ e.Continues y w

/-- The word goes from a first label to a last one. -/
def IsTrace (e : ExpressionTree ι) : List ι → Prop
  | [] => e.nullable
  | x :: w => e.IsFirst x ∧ e.Continues x w

/-- The words from a first label to a last one. -/
def traces (e : ExpressionTree ι) : Language ι := {w | e.IsTrace w}

theorem mem_traces {e : ExpressionTree ι} {w : List ι} : w ∈ e.traces ↔ e.IsTrace w := Iff.rfl

theorem IsFirst.mem_leaves {e : ExpressionTree ι} {x : ι} (h : e.IsFirst x) : x ∈ e.leaves := by
  induction e with
  | empty => exact h.elim
  | leaf y => exact List.mem_singleton.mpr h
  | choice a b iha ihb => exact List.mem_append.mpr (h.imp iha ihb)
  | sequence a b iha ihb => exact List.mem_append.mpr (h.imp iha fun h => ihb h.2)
  | optional a ih | zeroOrMore a ih | oneOrMore a ih => exact ih h

theorem IsLast.mem_leaves {e : ExpressionTree ι} {x : ι} (h : e.IsLast x) : x ∈ e.leaves := by
  induction e with
  | empty => exact h.elim
  | leaf y => exact List.mem_singleton.mpr h
  | choice a b iha ihb => exact List.mem_append.mpr (h.imp iha ihb)
  | sequence a b iha ihb => exact List.mem_append.mpr (h.symm.imp (fun h => iha h.2) ihb)
  | optional a ih | zeroOrMore a ih | oneOrMore a ih => exact ih h

theorem Follows.mem_leaves {e : ExpressionTree ι} {x y : ι} (h : e.Follows x y) :
    x ∈ e.leaves ∧ y ∈ e.leaves := by
  induction e with
  | empty | leaf => exact h.elim
  | choice a b iha ihb =>
    simp only [leaves, List.mem_append]
    rcases h with h | h
    · exact ⟨.inl (iha h).1, .inl (iha h).2⟩
    · exact ⟨.inr (ihb h).1, .inr (ihb h).2⟩
  | sequence a b iha ihb =>
    simp only [leaves, List.mem_append]
    rcases h with h | h | ⟨hx, hy⟩
    · exact ⟨.inl (iha h).1, .inl (iha h).2⟩
    · exact ⟨.inr (ihb h).1, .inr (ihb h).2⟩
    · exact ⟨.inl hx.mem_leaves, .inr hy.mem_leaves⟩
  | optional a ih => exact ih h
  | zeroOrMore a ih | oneOrMore a ih =>
    rcases h with h | ⟨hx, hy⟩
    · exact ih h
    · exact ⟨hx.mem_leaves, hy.mem_leaves⟩

theorem Continues.mem_leaves {e : ExpressionTree ι} {x : ι} {w : List ι} (h : e.Continues x w) :
    x ∈ e.leaves := by
  cases w with
  | nil => exact IsLast.mem_leaves h
  | cons y w => exact h.1.mem_leaves.1

/-! ## Traces of the parts -/

theorem mem_traces_mul {a b : ExpressionTree ι} {w : List ι} :
    w ∈ a.traces * b.traces ↔ ∃ u v, w = u ++ v ∧ a.IsTrace u ∧ b.IsTrace v := by
  simp only [Language.mem_mul, mem_traces]
  constructor
  · rintro ⟨u, hu, v, hv, rfl⟩
    exact ⟨u, v, rfl, hu, hv⟩
  · rintro ⟨u, v, rfl, hu, hv⟩
    exact ⟨u, hu, v, hv, rfl⟩

/-- Where a tree ends and continues as its part does, its words go on as those of the part. -/
theorem continues_part {e part : ExpressionTree ι}
    (hlast : ∀ x ∈ part.leaves, (e.IsLast x ↔ part.IsLast x))
    (hfollows : ∀ x ∈ part.leaves, ∀ y, (e.Follows x y ↔ part.Follows x y)) {w : List ι} :
    ∀ {x}, x ∈ part.leaves → (e.Continues x w ↔ part.Continues x w) := by
  induction w with
  | nil => exact fun hx => hlast _ hx
  | cons y w ih =>
    intro x hx
    unfold Continues
    rw [hfollows x hx y]
    exact and_congr_right fun h => ih h.mem_leaves.2

section Choice

variable {a b : ExpressionTree ι}

theorem continues_choice_left (hd : a.leaves.Disjoint b.leaves) {w : List ι} {x : ι}
    (hx : x ∈ a.leaves) : (choice a b).Continues x w ↔ a.Continues x w := by
  refine continues_part (fun x hx => ?_) (fun x hx y => ?_) hx
  · exact or_iff_left fun h => hd hx h.mem_leaves
  · exact or_iff_left fun h => hd hx h.mem_leaves.1

theorem continues_choice_right (hd : a.leaves.Disjoint b.leaves) {w : List ι} {x : ι}
    (hx : x ∈ b.leaves) : (choice a b).Continues x w ↔ b.Continues x w := by
  refine continues_part (fun x hx => ?_) (fun x hx y => ?_) hx
  · exact or_iff_right fun h => hd h.mem_leaves hx
  · exact or_iff_right fun h => hd h.mem_leaves.1 hx

theorem traces_choice (hd : a.leaves.Disjoint b.leaves) :
    (choice a b).traces = a.traces + b.traces := by
  ext w
  rw [Language.mem_add]
  simp only [mem_traces]
  cases w with
  | nil => simp [IsTrace, nullable]
  | cons x w =>
    simp only [IsTrace, IsFirst, or_and_right]
    refine or_congr (and_congr_right fun h => ?_) (and_congr_right fun h => ?_)
    · exact continues_choice_left hd h.mem_leaves
    · exact continues_choice_right hd h.mem_leaves

end Choice

section Sequence

variable {a b : ExpressionTree ι}

theorem continues_sequence_right (hd : a.leaves.Disjoint b.leaves) {w : List ι} {x : ι}
    (hx : x ∈ b.leaves) : (sequence a b).Continues x w ↔ b.Continues x w := by
  refine continues_part (fun x hx => ?_) (fun x hx y => ?_) hx
  · exact or_iff_left fun h => hd h.2.mem_leaves hx
  · constructor
    · rintro (h | h | ⟨h, -⟩)
      · exact absurd hx (hd h.mem_leaves.1)
      · exact h
      · exact absurd hx (hd h.mem_leaves)
    · exact fun h => .inr (.inl h)

/-- After a label of the first part comes the rest of a word of it and a word of the second. -/
theorem continues_sequence_left (hd : a.leaves.Disjoint b.leaves) {w : List ι} :
    ∀ {x}, x ∈ a.leaves → ((sequence a b).Continues x w ↔
      ∃ u v, w = u ++ v ∧ a.Continues x u ∧ b.IsTrace v) := by
  induction w with
  | nil =>
    intro x hx
    have hx' : ¬ b.IsLast x := fun h => hd hx h.mem_leaves
    constructor
    · rintro (h | ⟨hb, ha⟩)
      · exact absurd h hx'
      · exact ⟨[], [], rfl, ha, hb⟩
    · rintro ⟨u, v, h, ha, hb⟩
      obtain ⟨rfl, rfl⟩ := List.append_eq_nil_iff.mp h.symm
      exact .inr ⟨hb, ha⟩
  | cons y w ih =>
    intro x hx
    constructor
    · rintro ⟨h | h | ⟨hlast, hfirst⟩, hw⟩
      · obtain ⟨u, v, rfl, hu, hv⟩ := (ih h.mem_leaves.2).mp hw
        exact ⟨y :: u, v, rfl, ⟨h, hu⟩, hv⟩
      · exact absurd h.mem_leaves.1 (hd hx)
      · rw [continues_sequence_right hd hfirst.mem_leaves] at hw
        exact ⟨[], y :: w, rfl, hlast, hfirst, hw⟩
    · rintro ⟨u, v, h, hu, hv⟩
      cases u with
      | nil =>
        obtain rfl : y :: w = v := h
        refine ⟨.inr (.inr ⟨hu, hv.1⟩), ?_⟩
        exact (continues_sequence_right hd hv.1.mem_leaves).mpr hv.2
      | cons z u =>
        obtain ⟨rfl, rfl⟩ := List.cons_eq_cons.mp h
        exact ⟨.inl hu.1, (ih hu.1.mem_leaves.2).mpr ⟨u, v, rfl, hu.2, hv⟩⟩

theorem traces_sequence (hd : a.leaves.Disjoint b.leaves) :
    (sequence a b).traces = a.traces * b.traces := by
  ext w
  rw [mem_traces_mul, mem_traces]
  cases w with
  | nil =>
    simp only [IsTrace, nullable, Bool.and_eq_true]
    constructor
    · rintro ⟨ha, hb⟩
      exact ⟨[], [], rfl, ha, hb⟩
    · rintro ⟨u, v, h, ha, hb⟩
      obtain ⟨rfl, rfl⟩ := List.append_eq_nil_iff.mp h.symm
      exact ⟨ha, hb⟩
  | cons x w =>
    constructor
    · rintro ⟨h | ⟨ha, h⟩, hw⟩
      · obtain ⟨u, v, rfl, hu, hv⟩ := (continues_sequence_left hd h.mem_leaves).mp hw
        exact ⟨x :: u, v, rfl, ⟨h, hu⟩, hv⟩
      · exact ⟨[], x :: w, rfl, ha, h, (continues_sequence_right hd h.mem_leaves).mp hw⟩
    · rintro ⟨u, v, h, hu, hv⟩
      cases u with
      | nil =>
        obtain rfl : x :: w = v := h
        exact ⟨.inr ⟨hu, hv.1⟩, (continues_sequence_right hd hv.1.mem_leaves).mpr hv.2⟩
      | cons z u =>
        obtain ⟨rfl, rfl⟩ := List.cons_eq_cons.mp h
        refine ⟨.inl hu.1, ?_⟩
        exact (continues_sequence_left hd hu.1.mem_leaves).mpr ⟨u, v, rfl, hu.2, hv⟩

end Sequence

section Repetition

variable {a : ExpressionTree ι}

/-- After a label of a repeated part comes the rest of a word of it and further words. -/
theorem continues_zeroOrMore {x : ι} {w : List ι} :
    (zeroOrMore a).Continues x w ↔
      ∃ u v, w = u ++ v ∧ a.Continues x u ∧ v ∈ a.traces∗ := by
  induction w generalizing x with
  | nil =>
    constructor
    · intro h
      exact ⟨[], [], rfl, h, Language.nil_mem_kstar _⟩
    · rintro ⟨u, v, h, hu, -⟩
      obtain ⟨rfl, rfl⟩ := List.append_eq_nil_iff.mp h.symm
      exact hu
  | cons y w ih =>
    constructor
    · rintro ⟨h, hw⟩
      obtain ⟨u, v, rfl, hu, hv⟩ := ih.mp hw
      rcases h with h | ⟨hlast, hfirst⟩
      · exact ⟨y :: u, v, rfl, ⟨h, hu⟩, hv⟩
      · exact ⟨[], y :: (u ++ v), rfl, hlast, cons_mem_kstar.mpr ⟨u, v, rfl, ⟨hfirst, hu⟩, hv⟩⟩
    · rintro ⟨u, v, h, hu, hv⟩
      cases u with
      | nil =>
        obtain rfl : y :: w = v := h
        obtain ⟨u, v, rfl, hu', hv⟩ := cons_mem_kstar.mp hv
        exact ⟨.inr ⟨hu, hu'.1⟩, ih.mpr ⟨u, v, rfl, hu'.2, hv⟩⟩
      | cons z u =>
        obtain ⟨rfl, rfl⟩ := List.cons_eq_cons.mp h
        exact ⟨.inl hu.1, ih.mpr ⟨u, v, rfl, hu.2, hv⟩⟩

theorem continues_oneOrMore {x : ι} {w : List ι} :
    (oneOrMore a).Continues x w ↔ (zeroOrMore a).Continues x w := by
  induction w generalizing x with
  | nil => rfl
  | cons y w ih => exact and_congr_right fun _ => ih

theorem traces_zeroOrMore : (zeroOrMore a).traces = a.traces∗ := by
  ext w
  rw [mem_traces]
  cases w with
  | nil => simp [IsTrace, nullable, Language.nil_mem_kstar]
  | cons x w =>
    rw [cons_mem_kstar]
    simp only [IsTrace, IsFirst, continues_zeroOrMore, mem_traces]
    constructor
    · rintro ⟨hx, u, v, rfl, hu, hv⟩
      exact ⟨u, v, rfl, ⟨hx, hu⟩, hv⟩
    · rintro ⟨u, v, rfl, ⟨hx, hu⟩, hv⟩
      exact ⟨hx, u, v, rfl, hu, hv⟩

theorem traces_oneOrMore : (oneOrMore a).traces = a.traces * a.traces∗ := by
  ext w
  rw [mem_traces, Language.mem_mul]
  cases w with
  | nil =>
    simp only [IsTrace, nullable, List.append_eq_nil_iff]
    constructor
    · intro h
      exact ⟨[], h, [], Language.nil_mem_kstar _, rfl, rfl⟩
    · rintro ⟨u, hu, v, -, rfl, rfl⟩
      exact hu
  | cons x w =>
    simp only [IsTrace, IsFirst, continues_oneOrMore, continues_zeroOrMore]
    constructor
    · rintro ⟨hx, u, v, rfl, hu, hv⟩
      exact ⟨x :: u, ⟨hx, hu⟩, v, hv, rfl⟩
    · rintro ⟨u, hu, v, hv, h⟩
      cases u with
      | nil =>
        obtain rfl : v = x :: w := h
        obtain ⟨u, v, rfl, hu', hv⟩ := cons_mem_kstar.mp hv
        exact ⟨hu'.1, u, v, rfl, hu'.2, hv⟩
      | cons z u =>
        obtain ⟨rfl, rfl⟩ := List.cons_eq_cons.mp h
        exact ⟨hu.1, u, v, rfl, hu.2, hv⟩

theorem traces_optional : (optional a).traces = 1 + a.traces := by
  have hc {w : List ι} : ∀ {x}, (optional a).Continues x w ↔ a.Continues x w := by
    induction w with
    | nil => exact Iff.rfl
    | cons y w ih => exact and_congr_right fun _ => ih
  ext w
  rw [mem_traces, Language.mem_add, Language.mem_one, mem_traces]
  cases w with
  | nil => simp [IsTrace, nullable]
  | cons x w => simp [IsTrace, IsFirst, hc]

end Repetition

/-! ## The language of a tree -/

/-- **A tree whose labels differ has a local language.** -/
theorem language_eq_traces {e : ExpressionTree ι} (hn : e.leaves.Nodup) :
    (e.language fun x y => x = y) = e.traces := by
  induction e with
  | empty =>
    ext w
    cases w <;> simp [language, mem_traces, IsTrace, IsFirst, nullable, Language.mem_one]
  | leaf x =>
    ext w
    rcases w with _ | ⟨y, _ | ⟨z, w⟩⟩ <;>
      simp [language, mem_letters, mem_traces, IsTrace, IsFirst, IsLast, Follows, Continues,
        nullable, eq_comm]
  | choice a b iha ihb =>
    obtain ⟨ha, hb, hd⟩ := List.nodup_append'.mp hn
    rw [traces_choice hd, language, iha ha, ihb hb]
  | sequence a b iha ihb =>
    obtain ⟨ha, hb, hd⟩ := List.nodup_append'.mp hn
    rw [traces_sequence hd, language, iha ha, ihb hb]
  | optional a ih => rw [traces_optional, language, ih hn]
  | zeroOrMore a ih => rw [traces_zeroOrMore, language, ih hn]
  | oneOrMore a ih => rw [traces_oneOrMore, language, ih hn]

/-- The language over other letters, from the language over the labels themselves. -/
theorem language_eq_lift (m : ι → α → Prop) (e : ExpressionTree ι) :
    e.language m = lift m (e.language fun x y => x = y) := by
  induction e with
  | empty => rw [language, language, lift_one]
  | leaf x => rw [language, language, lift_letters]
  | choice a b iha ihb => rw [language, language, lift_add, iha, ihb]
  | sequence a b iha ihb => rw [language, language, lift_mul, iha, ihb]
  | optional a ih => rw [language, language, lift_add, lift_one, ih]
  | zeroOrMore a ih => rw [language, language, lift_kstar, ih]
  | oneOrMore a ih => rw [language, language, lift_mul, lift_kstar, ih]

/-- A word over other letters belongs to the language if it is related to a trace. -/
theorem mem_language_iff {m : ι → α → Prop} {e : ExpressionTree ι} (hn : e.leaves.Nodup)
    {w : List α} : w ∈ e.language m ↔ ∃ v, e.IsTrace v ∧ List.Forall₂ m v w := by
  rw [language_eq_lift, language_eq_traces hn]
  exact Iff.rfl

end ExpressionTree

end MarkupGrammar
