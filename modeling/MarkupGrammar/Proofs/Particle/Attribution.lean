import MarkupGrammar.Proofs.Automaton.Setup
import MarkupGrammar.Proofs.Lowering.Source

/-! # Attribution and positions

After a word, a leaf of a particle can be the one that matches the next name if and only if one of
its positions in the tree of the particle can come next (`mayTake_iff`). So a particle is ambiguous
if and only if positions of two sources can come next that match one name (`isAmbiguous_iff`). -/

namespace MarkupGrammar

section Words

variable {ι α β : Type} {R : ι → α → Prop} {S : ι → β → Prop} {t : List ι}

theorem forall₂_split {w w' : List α} {a : α} (h : List.Forall₂ R t (w ++ a :: w')) :
    ∃ t₁ x t₂, t = t₁ ++ x :: t₂ ∧ List.Forall₂ R t₁ w ∧ R x a := by
  obtain ⟨t₁, t₃, h₁, h₃, rfl⟩ := forall₂_append_left h.flip
  obtain ⟨x, t₂, hx, -, rfl⟩ := List.forall₂_cons_left_iff.mp h₃
  exact ⟨t₁, x, t₂, rfl, h₁.flip, hx⟩

theorem exists_forall₂ (h : ∀ x ∈ t, ∃ a, R x a) : ∃ w, List.Forall₂ R t w := by
  induction t with
  | nil => exact ⟨[], .nil⟩
  | cons x t ih =>
    obtain ⟨a, ha⟩ := h x List.mem_cons_self
    obtain ⟨w, hw⟩ := ih fun y hy => h y (List.mem_cons_of_mem _ hy)
    exact ⟨a :: w, .cons ha hw⟩

/-- Letters that are related where their images are. -/
theorem exists_forall₂_map {f : α → β} {u : List β} (hS : ∀ x b, S x b → ∃ a, f a = b ∧ R x a)
    (h : List.Forall₂ S t u) : ∃ v, v.map f = u ∧ List.Forall₂ R t v := by
  induction h with
  | nil => exact ⟨[], rfl, .nil⟩
  | @cons x b t u hx _ ih =>
    obtain ⟨a, rfl, ha⟩ := hS x b hx
    obtain ⟨v, rfl, hv⟩ := ih
    exact ⟨a :: v, rfl, .cons ha hv⟩

end Words

namespace Particle

variable {fits : Leaf → Name → Prop} {p : Particle} {k : Nat} {u : List Name} {n : Name}
  {place : Place}

/-- The tree of a particle as a table keeps it. -/
def positionTree (k : Nat) (p : Particle) : ExpressionTree Position :=
  (p.tree k).map Source.position

theorem leaves_positionTree (p : Particle) :
    (p.positionTree k).leaves = (p.tree k).leaves.map Source.position :=
  ExpressionTree.leaves_map _ _

theorem getElem?_positionTree {q : Nat} :
    (p.positionTree k).leaves[q]? = (p.tree k).leaves[q]?.map Source.position := by
  rw [leaves_positionTree, List.getElem?_map]

theorem takes_positionTree {q : Nat} : (p.positionTree k).Takes fits q n ↔
    ∃ x ∈ (p.tree k).leaves[q]?, fits x.leaf n := by
  unfold ExpressionTree.Takes
  rw [getElem?_positionTree]
  cases (p.tree k).leaves[q]? <;> simp [Source.position]

/-- The words of a particle are the language of its tree. -/
theorem words_eq (h : p.Lowerable) :
    p.words fits = (p.positionTree k).language fun x n => fits x.leaf n := by
  rw [positionTree, ExpressionTree.language_map, words, ← language_tree _ k p h]
  rfl

/-- A position matches a name at the place of its source. -/
def TakesAt (fits : Leaf → Name → Prop) (e : ExpressionTree Source) (q : Nat) (a : Place × Name) :
    Prop :=
  ∃ x ∈ e.leaves[q]?, a.1 = x.place ∧ fits x.leaf a.2

/-- The words of a particle come from the traces of its tree. -/
theorem mem_language_iff {α : Type} {m : Place → Leaf → α → Prop} (h : p.Lowerable) {w : List α} :
    w ∈ p.language m ↔ ∃ t, ((p.tree k).numbered 0).IsTrace t ∧
      List.Forall₂ (fun q a => ∃ x ∈ (p.tree k).leaves[q]?, m x.place x.leaf a) t w := by
  rw [← language_tree _ k p h,
    ← ExpressionTree.language_numbered _ ((p.tree k).leaves[·]?) 0 _ fun i _ => by
      rw [Nat.zero_add],
    ExpressionTree.mem_language_iff (ExpressionTree.nodup_numbered _ _)]

theorem mem_attributions_iff (h : p.Lowerable) {v : List (Place × Name)} :
    v ∈ p.attributions fits ↔
      ∃ t, ((p.tree k).numbered 0).IsTrace t ∧ List.Forall₂ (TakesAt fits (p.tree k)) t v :=
  mem_language_iff h

/-- The positions of a trace match names. -/
theorem exists_takesAt (p : Particle) (hf : ∀ l : Leaf, ∃ n, fits l n) {t : List Nat}
    (ht : ∀ q ∈ t, q ∈ ((p.tree k).numbered 0).leaves) :
    ∃ v, List.Forall₂ (TakesAt fits (p.tree k)) t v := by
  refine exists_forall₂ fun q hq => ?_
  have hlt := ExpressionTree.mem_leaves_numbered.mp (ht q hq)
  obtain ⟨n, hn⟩ := hf ((p.tree k).leaves[q]).leaf
  exact ⟨(_, n), _, List.getElem?_eq_getElem hlt, rfl, hn⟩

/-- An attribution of names can be continued along a trace. -/
theorem exists_attribution (h : p.Lowerable) (hf : ∀ l : Leaf, ∃ n, fits l n) {t₁ t₂ : List Nat}
    {q : Nat} (ht : ((p.tree k).numbered 0).IsTrace (t₁ ++ q :: t₂)) {v : List (Place × Name)}
    (hv : List.Forall₂ (TakesAt fits (p.tree k)) t₁ v) {a : Place × Name}
    (ha : TakesAt fits (p.tree k) q a) : ∃ w, v ++ a :: w ∈ p.attributions fits := by
  obtain ⟨w, hw⟩ := exists_takesAt p hf (t := t₂) fun q' hq' =>
    ht.mem_leaves q' (List.mem_append_right _ (List.mem_cons_of_mem _ hq'))
  exact ⟨w, (mem_attributions_iff h).mpr ⟨_, ht, List.rel_append hv (.cons ha hw)⟩⟩

/-- **A leaf can match the next name if one of its positions can come next.** -/
theorem mayTake_iff (h : p.Lowerable) (hf : ∀ l : Leaf, ∃ n, fits l n) :
    p.MayTake fits u place n ↔ ∃ q, (p.positionTree k).Next fits u q ∧
      TakesAt fits (p.tree k) q (place, n) := by
  have hnum : (p.positionTree k).numbered 0 = (p.tree k).numbered 0 :=
    ExpressionTree.numbered_map _ _ _
  constructor
  · rintro ⟨v, w, rfl, hv⟩
    obtain ⟨t, ht, hm⟩ := (mem_attributions_iff h).mp hv
    obtain ⟨t₁, q, t₂, rfl, h₁, hq⟩ := forall₂_split hm
    refine ⟨q, .inl ⟨t₁, t₂, ?_, by rwa [hnum]⟩, hq⟩
    refine List.forall₂_map_right_iff.mpr (h₁.imp fun q a ⟨x, hx, _, hxa⟩ => ?_)
    exact takes_positionTree.mpr ⟨x, hx, hxa⟩
  · rintro ⟨q, hnext, hq⟩
    obtain ⟨x, hx, -⟩ := id hq
    have hlt : q < (p.positionTree k).leaves.length := by
      rw [leaves_positionTree, List.length_map]
      exact (List.getElem?_eq_some_iff.mp hx).1
    obtain ⟨t₁, t₂, h₁, ht⟩ := (ExpressionTree.next_iff_of_lt hlt).mp hnext
    rw [hnum] at ht
    obtain ⟨v, hv, hm⟩ := exists_forall₂_map (f := Prod.snd) (R := TakesAt fits (p.tree k))
      (fun q n hqn => by
        obtain ⟨y, hy, hyn⟩ := takes_positionTree.mp hqn
        exact ⟨(y.place, n), rfl, y, hy, rfl, hyn⟩) h₁
    obtain ⟨w, hw⟩ := exists_attribution h hf ht hm hq
    exact ⟨v, w, hv, hw⟩

/-- **A particle is ambiguous if positions of two sources can come next that match one name.** -/
theorem isAmbiguous_iff (h : p.Lowerable) (hf : ∀ l : Leaf, ∃ n, fits l n) :
    p.IsAmbiguous fits ↔ ∃ u n q q', (p.positionTree k).Next fits u q ∧
      (p.positionTree k).Next fits u q' ∧ ∃ x ∈ (p.tree k).leaves[q]?,
      ∃ y ∈ (p.tree k).leaves[q']?, x ≠ y ∧ fits x.leaf n ∧ fits y.leaf n := by
  constructor
  · rintro ⟨u, n, i, j, hne, hi, hj⟩
    obtain ⟨q, hq, x, hx, rfl, hxn⟩ := (mayTake_iff h hf).mp hi
    obtain ⟨q', hq', y, hy, rfl, hyn⟩ := (mayTake_iff h hf).mp hj
    exact ⟨u, n, q, q', hq, hq', x, hx, y, hy, fun hxy => hne (hxy ▸ rfl), hxn, hyn⟩
  · rintro ⟨u, n, q, q', hq, hq', x, hx, y, hy, hne, hxn, hyn⟩
    refine ⟨u, n, x.place, y.place, fun hp => hne ?_, ?_, ?_⟩
    · exact distinct_tree k p h x (List.mem_of_getElem? hx) y (List.mem_of_getElem? hy) (.inl hp)
    · exact (mayTake_iff h hf).mpr ⟨q, hq, x, hx, rfl, hxn⟩
    · exact (mayTake_iff h hf).mpr ⟨q', hq', y, hy, rfl, hyn⟩

end Particle

end MarkupGrammar
