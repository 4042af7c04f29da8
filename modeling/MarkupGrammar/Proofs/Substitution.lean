import MarkupGrammar.Overlap
import Mathlib.Data.List.Nodup
import Mathlib.Data.List.Perm.Subperm
import Mathlib.Logic.Relation

/-! # Names that may stand for a head

A name may stand for a head if and only if steps from heads to direct members lead to it
(`canSubstitute_iff`): the search never runs out of fuel, and when nothing is pending the names that
it has found are closed under steps. -/

namespace MarkupGrammar

namespace Substitutions

variable {s : Substitutions} {head current n m : Name} {pending found ms : List Name} {fuel : Nat}

/-- A step from a head to a direct member of its group. -/
def Declares (s : Substitutions) (head member : Name) : Prop := member ∈ s.members head

/-! ## Rounds of the search -/

theorem mem_fresh : m ∈ fresh head found ms ↔ m ∈ ms ∧ m ≠ head ∧ m ∉ found := by
  induction ms generalizing found with
  | nil => simp [fresh]
  | cons x ms ih =>
    unfold fresh
    split
    · rename_i h
      have h : x = head ∨ x ∈ found := by simpa using h
      rw [ih]
      grind
    · rename_i h
      have h : x ≠ head ∧ x ∉ found := by simpa using h
      rw [List.mem_cons, ih]
      grind

theorem nodup_fresh : (fresh head found ms).Nodup := by
  induction ms generalizing found with
  | nil => exact List.nodup_nil
  | cons x ms ih =>
    unfold fresh
    split
    · exact ih
    · exact List.nodup_cons.mpr ⟨fun h => (mem_fresh.mp h).2.2 List.mem_cons_self, ih⟩

theorem members_subset : s.members head ⊆ s.groups.flatMap (·.2) := by
  intro m hm
  unfold members at hm
  cases h : s.groups.lookup head with
  | none => simp [h] at hm
  | some ms =>
    rw [h] at hm
    obtain ⟨l₁, l₂, hl, -⟩ := List.lookup_eq_some_iff.mp h
    rw [hl]
    simp only [List.flatMap_append, List.flatMap_cons, List.mem_append]
    exact .inr (.inl hm)

/-- What holds between rounds: only names that steps lead to are found, each once, and the direct
members of those that are not pending are found. -/
structure Searching (s : Substitutions) (head : Name) (pending found : List Name) : Prop where
  nodup : found.Nodup
  subset : found ⊆ s.groups.flatMap (·.2)
  leads : ∀ x ∈ found, Relation.ReflTransGen s.Declares head x
  pending_found : ∀ x ∈ pending, x = head ∨ x ∈ found
  closed : ∀ x, x = head ∨ x ∈ found → x ∉ pending →
    ∀ m ∈ s.members x, m = head ∨ m ∈ found

theorem searching_start : s.Searching head [head] [] where
  nodup := List.nodup_nil
  subset := List.nil_subset _
  leads := by simp
  pending_found := by simp
  closed := by simp

theorem Searching.leads_pending (h : s.Searching head pending found) (hn : n ∈ pending) :
    Relation.ReflTransGen s.Declares head n := by
  rcases h.pending_found n hn with rfl | hn
  · exact .refl
  · exact h.leads n hn

/-- A round of the search. -/
theorem Searching.step (h : s.Searching head (current :: pending) found) :
    s.Searching head ((fresh head found (s.members current)).reverse ++ pending)
      (found ++ fresh head found (s.members current)) where
  nodup := h.nodup.append nodup_fresh fun m hm hnew => (mem_fresh.mp hnew).2.2 hm
  subset := List.append_subset.mpr
    ⟨h.subset, fun m hm => members_subset (mem_fresh.mp hm).1⟩
  leads := by
    intro x hx
    rcases List.mem_append.mp hx with hx | hx
    · exact h.leads x hx
    · exact (h.leads_pending List.mem_cons_self).tail (mem_fresh.mp hx).1
  pending_found := by
    intro x hx
    rcases List.mem_append.mp hx with hx | hx
    · exact .inr (List.mem_append_right _ (List.mem_reverse.mp hx))
    · exact (h.pending_found x (List.mem_cons_of_mem _ hx)).imp_right (List.mem_append_left _)
  closed := by
    intro x hx hxp m hm
    simp only [List.mem_append, List.mem_reverse, not_or] at hx hxp ⊢
    by_cases hc : x = current
    · subst hc
      have hnew : m ∈ fresh head found (s.members x) ↔ _ := mem_fresh
      tauto
    · have hold := h.closed x (by tauto) (by simp [hc, hxp.2]) m hm
      tauto

/-- A round of the search leads from the names that are pending and those that are found to the
next ones: the group of the first pending name is looked at. -/
inductive Round (s : Substitutions) (head : Name) :
    List Name × List Name → List Name × List Name → Prop
  | look (current : Name) (pending found : List Name) :
    Round s head (current :: pending, found)
      ((fresh head found (s.members current)).reverse ++ pending,
        found ++ fresh head found (s.members current))

/-- **Rounds of the search end with nothing pending.** The fuel that is left covers the names that
are pending and those that may still be found. -/
theorem Searching.rounds (h : s.Searching head pending found)
    (hfuel : pending.length + (s.groups.flatMap (·.2)).length ≤ fuel + found.length) :
    Relation.ReflTransGen (s.Round head) (pending, found)
      ([], s.search head fuel pending found) := by
  induction fuel generalizing pending found with
  | zero =>
    have hle := (h.nodup.subperm h.subset).length_le
    obtain rfl : pending = [] := List.length_eq_zero_iff.mp (by omega)
    exact .refl
  | succ fuel ih =>
    cases pending with
    | nil => exact .refl
    | cons current pending =>
      refine .head (.look current pending found) (ih h.step ?_)
      simp only [List.length_append, List.length_reverse, List.length_cons] at hfuel ⊢
      omega

/-- What holds between rounds holds after any number of them. -/
theorem Searching.after {x y : List Name × List Name} (h : s.Searching head x.1 x.2)
    (hxy : Relation.ReflTransGen (s.Round head) x y) : s.Searching head y.1 y.2 := by
  induction hxy with
  | refl => exact h
  | tail _ hround ih =>
    cases hround with
    | look current pending found => exact Searching.step ih

/-! ## Substitution -/

theorem rounds_substitutes (s : Substitutions) (head : Name) :
    Relation.ReflTransGen (s.Round head) ([head], []) ([], s.substitutes head) :=
  searching_start.rounds (by simp; omega)

theorem searching_substitutes (s : Substitutions) (head : Name) :
    s.Searching head [] (s.substitutes head) :=
  searching_start.after (y := ([], s.substitutes head)) (s.rounds_substitutes head)

/-- **A name may stand for a head if steps to direct members lead to it.** -/
theorem canSubstitute_iff :
    s.canSubstitute head n ↔ Relation.ReflTransGen s.Declares head n := by
  have h := s.searching_substitutes head
  simp only [canSubstitute, Bool.or_eq_true, beq_iff_eq, List.contains_iff_mem]
  constructor
  · rintro (rfl | hn)
    · exact .refl
    · exact h.leads n hn
  · intro hn
    rw [eq_comm]
    induction hn with
    | refl => exact .inl rfl
    | tail _ hm ih => exact h.closed _ ih List.not_mem_nil _ hm

theorem canSubstitute_self : s.canSubstitute n n := canSubstitute_iff.mpr .refl

theorem canSubstitute_trans (h : s.canSubstitute head n) (h' : s.canSubstitute n m) :
    s.canSubstitute head m :=
  canSubstitute_iff.mpr ((canSubstitute_iff.mp h).trans (canSubstitute_iff.mp h'))

/-! ## The comparator of a table -/

/-- One of the names may stand for the other. -/
def Related (s : Substitutions) (a b : Name) : Prop := s.canSubstitute a b ∨ s.canSubstitute b a

theorem isRelated_iff {a b : Name} :
    Comparator.isRelated (some s.comparator) a b = true ↔ s.Related a b := by
  simp [Comparator.isRelated, comparator, answer, Related]

end Substitutions

end MarkupGrammar
