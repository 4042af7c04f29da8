import MarkupGrammar.Proofs.Lowering.Tree

/-! # Leaves and their sources

The tree that a particle is lowered to, with the *source* of each leaf: which leaf of the particle
it comes from, and the number that this leaf has got. Repetitions of a leaf have one source;
different sources differ in their places and in their numbers (`distinct_tree`). -/

namespace MarkupGrammar

/-- A leaf of a particle with its number. -/
structure Source where
  place : Particle.Place
  leaf : Leaf
  particle : Nat
  deriving DecidableEq

namespace Source

/-- What a table keeps of it. -/
def position (x : Source) : Position := ⟨x.leaf, x.particle⟩

/-- The source in a group whose member number `k` it is in. -/
def under (k : Nat) (x : Source) : Source := { x with place := k :: x.place }

theorem position_under (k : Nat) : position ∘ under k = position := rfl

end Source

namespace Particle

mutual
/-- The number of leaves that are not prohibited. -/
def leafCount : Particle → Nat
  | .leaf _ o => if o.isEmpty then 0 else 1
  | .group _ ms o => if o.isEmpty then 0 else leafCounts ms

/-- The number of leaves of several particles. -/
def leafCounts : List Particle → Nat
  | [] => 0
  | p :: ps => p.leafCount + leafCounts ps
end

mutual
/-- The tree of a particle, with the leaves numbered from `n` on. -/
def tree (n : Nat) : Particle → ExpressionTree Source
  | .leaf l o => if o.isEmpty then .empty else (ExpressionTree.leaf ⟨[], l, n⟩).repeated o
  | .group c ms o =>
    if o.isEmpty then .empty else (ExpressionTree.combined c (trees 0 n ms)).repeated o

/-- The trees of the members of a group from number `k` on. -/
def trees (k n : Nat) : List Particle → List (ExpressionTree Source)
  | [] => []
  | p :: ps => (p.tree n).map (Source.under k) :: trees (k + 1) (n + p.leafCount) ps
end

mutual
/-- All ranges that are looked at are in order, and there is no all-group that is not prohibited. -/
def Lowerable : Particle → Prop
  | .leaf _ o => o.check = .ok ()
  | .group c ms o => o.check = .ok () ∧ (o.isEmpty = false → c ≠ .all ∧ LowerableAll ms)

/-- The same for all of several particles. -/
def LowerableAll : List Particle → Prop
  | [] => True
  | p :: ps => p.Lowerable ∧ LowerableAll ps
end

/-! ## The language of the tree -/

theorem language_of_isEmpty {α : Type} {o : Occurs} (ho : o.check = .ok ()) (he : o.isEmpty = true)
    (L : Language α) : o.language L = 1 := by
  obtain ⟨min, max⟩ := o
  obtain rfl : max = some 0 := by simpa [Occurs.isEmpty] using he
  obtain rfl := Nat.le_zero.mp (Occurs.check_some.mp ho)
  exact Occurs.language_zero

mutual
/-- **The tree of a particle has the language of the particle.** -/
theorem language_tree {α : Type} (m : Place → Leaf → α → Prop) (n : Nat) : ∀ p : Particle,
    p.Lowerable → ((p.tree n).language fun x a => m x.place x.leaf a) = p.language m
  | .leaf l o, h => by
    unfold tree language
    split
    · rename_i he
      rw [language_of_isEmpty h he, ExpressionTree.language]
    · rw [ExpressionTree.language_repeated h, ExpressionTree.language]
  | .group c ms o, h => by
    unfold tree language
    split
    · rename_i he
      rw [language_of_isEmpty h.1 he, ExpressionTree.language]
    · rename_i he
      obtain ⟨hc, hms⟩ := h.2 (by simpa using he)
      rw [ExpressionTree.language_repeated h.1, ExpressionTree.language_combined hc,
        language_trees m 0 n ms hms]

theorem language_trees {α : Type} (m : Place → Leaf → α → Prop) (k n : Nat) : ∀ ps : List Particle,
    LowerableAll ps → (trees k n ps).map (ExpressionTree.language fun x a => m x.place x.leaf a) =
      languages m k ps
  | [], _ => rfl
  | p :: ps, h => by
    simp only [trees, languages, List.map_cons, ExpressionTree.language_map]
    rw [← language_tree (fun place => m (k :: place)) n p h.1,
      ← language_trees m (k + 1) (n + p.leafCount) ps h.2]
    rfl
end

/-! ## The sources of the tree -/

mutual
theorem particle_mem_tree (n : Nat) : ∀ p : Particle, p.Lowerable → ∀ x ∈ (p.tree n).leaves,
    n ≤ x.particle ∧ x.particle < n + p.leafCount
  | .leaf l o, h, x, hx => by
    unfold tree at hx
    unfold leafCount
    split at hx
    · simp [ExpressionTree.leaves] at hx
    · rename_i he
      rw [ExpressionTree.mem_leaves_repeated h (by simpa using he)] at hx
      obtain rfl := List.mem_singleton.mp hx
      simp [he]
  | .group c ms o, h, x, hx => by
    unfold tree at hx
    unfold leafCount
    split at hx
    · simp [ExpressionTree.leaves] at hx
    · rename_i he
      rw [ExpressionTree.mem_leaves_repeated h.1 (by simpa using he),
        ExpressionTree.leaves_combined] at hx
      rw [if_neg he]
      exact particle_mem_trees 0 n ms (h.2 (by simpa using he)).2 x hx

theorem particle_mem_trees (k n : Nat) : ∀ ps : List Particle, LowerableAll ps →
    ∀ x ∈ (trees k n ps).flatMap ExpressionTree.leaves,
      n ≤ x.particle ∧ x.particle < n + leafCounts ps
  | [], _, x, hx => by simp [trees] at hx
  | p :: ps, h, x, hx => by
    simp only [trees, List.flatMap_cons, List.mem_append, ExpressionTree.leaves_map,
      List.mem_map] at hx
    unfold leafCounts
    rcases hx with ⟨y, hy, rfl⟩ | hx
    · have := particle_mem_tree n p h.1 y hy
      simp only [Source.under]
      omega
    · have := particle_mem_trees (k + 1) (n + p.leafCount) ps h.2 x hx
      omega
end

theorem place_mem_trees {k n : Nat} {ps : List Particle} {x : Source}
    (hx : x ∈ (trees k n ps).flatMap ExpressionTree.leaves) :
    ∃ j place, k ≤ j ∧ x.place = j :: place := by
  induction ps generalizing k n with
  | nil => simp [trees] at hx
  | cons p ps ih =>
    simp only [trees, List.flatMap_cons, List.mem_append, ExpressionTree.leaves_map,
      List.mem_map] at hx
    rcases hx with ⟨y, -, rfl⟩ | hx
    · exact ⟨k, y.place, le_rfl, rfl⟩
    · obtain ⟨j, place, hj, h⟩ := ih hx
      exact ⟨j, place, by omega, h⟩

/-- Sources that differ have different places and numbers. -/
def Distinct (xs : List Source) : Prop :=
  ∀ x ∈ xs, ∀ y ∈ xs, x.place = y.place ∨ x.particle = y.particle → x = y

theorem distinct_of_mem_iff {xs ys : List Source} (h : ∀ x, x ∈ xs ↔ x ∈ ys) (hd : Distinct ys) :
    Distinct xs :=
  fun x hx y hy => hd x ((h x).mp hx) y ((h y).mp hy)

mutual
theorem distinct_tree (n : Nat) : ∀ p : Particle, p.Lowerable → Distinct (p.tree n).leaves
  | .leaf l o, h => by
    unfold tree
    split
    · exact fun x hx => absurd hx List.not_mem_nil
    · rename_i he
      refine distinct_of_mem_iff
        (fun x => ExpressionTree.mem_leaves_repeated h (by simpa using he)) ?_
      intro x hx y hy _
      rw [List.mem_singleton.mp hx, List.mem_singleton.mp hy]
  | .group c ms o, h => by
    unfold tree
    split
    · exact fun x hx => absurd hx List.not_mem_nil
    · rename_i he
      refine distinct_of_mem_iff
        (fun x => ExpressionTree.mem_leaves_repeated h.1 (by simpa using he)) ?_
      rw [ExpressionTree.leaves_combined]
      exact distinct_trees 0 n ms (h.2 (by simpa using he)).2

theorem distinct_trees (k n : Nat) : ∀ ps : List Particle, LowerableAll ps →
    Distinct ((trees k n ps).flatMap ExpressionTree.leaves)
  | [], _ => fun x hx => absurd hx List.not_mem_nil
  | p :: ps, h => by
    have apart {x y : Source} (hx : x ∈ (p.tree n).leaves)
        (hy : y ∈ (trees (k + 1) (n + p.leafCount) ps).flatMap ExpressionTree.leaves) :
        (x.under k).place ≠ y.place ∧ (x.under k).particle ≠ y.particle := by
      obtain ⟨j, place, hj, hp⟩ := place_mem_trees hy
      have h1 := particle_mem_tree n p h.1 x hx
      have h2 := particle_mem_trees (k + 1) (n + p.leafCount) ps h.2 y hy
      constructor
      · rw [hp]
        simp only [Source.under, ne_eq, List.cons.injEq, not_and]
        omega
      · simp only [Source.under]
        omega
    intro x hx y hy hxy
    simp only [trees, List.flatMap_cons, List.mem_append, ExpressionTree.leaves_map,
      List.mem_map] at hx hy
    rcases hx with ⟨x, hx, rfl⟩ | hx <;> rcases hy with ⟨y, hy, rfl⟩ | hy
    · refine congrArg (Source.under k) (distinct_tree n p h.1 x hx y hy ?_)
      exact hxy.imp_left fun h => (List.cons_eq_cons.mp h).2
    · exact (hxy.elim (apart hx hy).1 (apart hx hy).2).elim
    · exact (hxy.elim (Ne.symm (apart hy hx).1) (Ne.symm (apart hy hx).2)).elim
    · exact distinct_trees (k + 1) (n + p.leafCount) ps h.2 x hx y hy hxy
end

end Particle

end MarkupGrammar
