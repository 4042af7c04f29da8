import MarkupGrammar.Proofs.Keys.Field
import Mathlib.Data.Finset.Card

/-! # Nodes of an element

The nodes that an expression selects in an element, which is its context: elements and attributes,
told apart by their places. What is delivered at the tags of an element are not all of them: of the
attributes of one element at most one is. So the elements that are selected, and those of which an
attribute is selected, are as many as the values that are delivered (`length_delivered`). -/

namespace MarkupGrammar

/-! ## Places -/

/-- A place in a tree: an element by its number in document order, or an attribute by the number of
its element and its own in the start tag. -/
inductive TreeNode where
  | element (i : Nat)
  | attr (i j : Nat)
  deriving DecidableEq, Repr

/-- A place where at most one value is delivered: an element, or all of its attributes. -/
inductive TreeNode.Spot where
  | element (i : Nat)
  | attributes (i : Nat)
  deriving DecidableEq, Repr

/-- The spot of a node. -/
def TreeNode.spot : TreeNode → Spot
  | element i => .element i
  | attr i _ => .attributes i

/-- The elements in the content of an element that the names `below` lead to, in document order,
with the names that lead to them. -/
def Forest.chained (below : List Name) : Forest TagEvent → List (List Name × TagEvent)
  | nil => []
  | piece _ rest => rest.chained below
  | element tag inner rest =>
    let here := below ++ [tag.name]
    (here, tag) :: (inner.chained here ++ rest.chained below)

/-- The elements of a tree in document order, with the names that lead to them from the root. -/
def Tree.chained (t : Tree TagEvent) : List (List Name × TagEvent) :=
  ([], t.label) :: t.inner.chained []

/-! ## Selected nodes -/

namespace PathExpression

/-- The expression selects the node. -/
def Selects (e : PathExpression) (t : Tree TagEvent) : TreeNode → Prop
  | .element i => ∃ x ∈ t.chained[i]?, e.SelectsElement x.1
  | .attr i j => ∃ x ∈ t.chained[i]?, ∃ a ∈ x.2.attributes[j]?, e.SelectsAttribute x.1 a

instance (e : PathExpression) (t : Tree TagEvent) : (n : TreeNode) → Decidable (e.Selects t n)
  | .element i => inferInstanceAs (Decidable (∃ x ∈ t.chained[i]?, _))
  | .attr i j => inferInstanceAs (Decidable (∃ x ∈ t.chained[i]?, ∃ a ∈ x.2.attributes[j]?, _))

/-- The expression selects two nodes. -/
def SelectsTwo (e : PathExpression) (t : Tree TagEvent) : Prop :=
  ∃ n m, e.Selects t n ∧ e.Selects t m ∧ n ≠ m

/-- The expression selects two nodes that are not attributes of one element. -/
def SelectsApart (e : PathExpression) (t : Tree TagEvent) : Prop :=
  ∃ n m, e.Selects t n ∧ e.Selects t m ∧ n.spot ≠ m.spot

theorem SelectsApart.selectsTwo {e : PathExpression} {t : Tree TagEvent} (h : e.SelectsApart t) :
    e.SelectsTwo t := by
  obtain ⟨n, m, hn, hm, hne⟩ := h
  exact ⟨n, m, hn, hm, fun heq => hne (congrArg _ heq)⟩

/-! ## Spots -/

variable (e : PathExpression)

/-- The selected spots of an element with its number. -/
def spotsAt (x : (List Name × TagEvent) × Nat) : List TreeNode.Spot :=
  (if ∃ a ∈ x.1.2.attributes, e.SelectsAttribute x.1.1 a then [.attributes x.2] else []) ++
    if e.SelectsElement x.1.1 then [.element x.2] else []

/-- The selected spots of a tree. -/
def spots (t : Tree TagEvent) : List TreeNode.Spot := t.chained.zipIdx.flatMap e.spotsAt

variable {e} {t : Tree TagEvent} {below : List Name}

theorem mem_spotsAt {x : (List Name × TagEvent) × Nat} {s : TreeNode.Spot} : s ∈ e.spotsAt x ↔
    s = .element x.2 ∧ e.SelectsElement x.1.1 ∨
      s = .attributes x.2 ∧ ∃ a ∈ x.1.2.attributes, e.SelectsAttribute x.1.1 a := by
  rw [spotsAt, List.mem_append, or_comm]
  refine or_congr ?_ ?_
  · split <;> simp [*]
  · split <;> simp [*]

/-- The selected spots are those of the selected nodes. -/
theorem mem_spots {s : TreeNode.Spot} : s ∈ e.spots t ↔ ∃ n, e.Selects t n ∧ n.spot = s := by
  rw [spots, List.mem_flatMap]
  constructor
  · rintro ⟨⟨x, i⟩, hx, hs⟩
    rw [List.mk_mem_zipIdx_iff_getElem?] at hx
    rcases mem_spotsAt.mp hs with ⟨rfl, hsel⟩ | ⟨rfl, a, ha, hsel⟩
    · exact ⟨.element i, ⟨x, hx, hsel⟩, rfl⟩
    · obtain ⟨j, hj⟩ := List.mem_iff_getElem?.mp ha
      exact ⟨.attr i j, ⟨x, hx, a, hj, hsel⟩, rfl⟩
  · rintro ⟨n, hn, rfl⟩
    cases n with
    | element i =>
      obtain ⟨x, hx, hsel⟩ := hn
      exact ⟨(x, i), List.mk_mem_zipIdx_iff_getElem?.mpr hx, mem_spotsAt.mpr (.inl ⟨rfl, hsel⟩)⟩
    | attr i j =>
      obtain ⟨x, hx, a, hj, hsel⟩ := hn
      exact ⟨(x, i), List.mk_mem_zipIdx_iff_getElem?.mpr hx,
        mem_spotsAt.mpr (.inr ⟨rfl, a, List.mem_of_getElem? hj, hsel⟩)⟩

theorem nodup_spots : (e.spots t).Nodup := by
  rw [spots, List.nodup_flatMap]
  refine ⟨fun x _ => ?_, ?_⟩
  · unfold spotsAt
    split <;> split <;> simp
  · have hnumbers : (t.chained.zipIdx.map Prod.snd).Nodup := by
      rw [List.zipIdx_map_snd]
      exact List.nodup_range'
    refine (List.pairwise_map.mp hnumbers).imp fun {x y} hne => List.disjoint_left.mpr ?_
    intro s hx hy
    rcases mem_spotsAt.mp hx with ⟨rfl, -⟩ | ⟨rfl, -⟩ <;>
      rcases mem_spotsAt.mp hy with ⟨heq, -⟩ | ⟨heq, -⟩ <;> simp [hne] at heq

/-! ## Deliveries -/

/-- What is delivered at the tags of an element, its text left out. -/
def deliveries (e : PathExpression) (x : List Name × TagEvent) : List Selected :=
  (e.captured x.1 x.2.attributes).toList ++ (e.delivered x.1 x.2 "").toList

theorem length_spotsAt (x : (List Name × TagEvent) × Nat) :
    (e.spotsAt x).length = (e.deliveries x.1).length := by
  have hcaptured : (e.captured x.1.1 x.1.2.attributes).isSome ↔
      ∃ a ∈ x.1.2.attributes, e.SelectsAttribute x.1.1 a := isSome_captured
  rw [spotsAt, List.length_append, deliveries, List.length_append, delivered]
  congr 1
  · cases h : e.captured x.1.1 x.1.2.attributes with
    | none =>
      rw [h] at hcaptured
      rw [if_neg fun hex => Bool.false_ne_true (hcaptured.mpr hex)]
      rfl
    | some s =>
      rw [h] at hcaptured
      rw [if_pos (hcaptured.mp rfl)]
      rfl
  · split <;> rfl

theorem length_spots : (e.spots t).length = (t.chained.flatMap e.deliveries).length := by
  have hfst : t.chained.zipIdx.flatMap (fun x => e.deliveries x.1) =
      t.chained.flatMap e.deliveries := by
    rw [← List.flatMap_map, List.zipIdx_map_fst]
  rw [spots, ← hfst, List.length_flatMap, List.length_flatMap]
  exact congrArg List.sum (List.map_congr_left fun x _ => length_spotsAt x)

theorem length_toList_delivered (below : List Name) (tag : TagEvent) (text : String) :
    (e.delivered below tag text).toList.length = (e.delivered below tag "").toList.length := by
  unfold delivered
  split <;> rfl

end PathExpression

theorem Forest.length_delivered (e : PathExpression) (f : Forest TagEvent) (below : List Name) :
    (f.delivered e below).length = ((f.chained below).flatMap e.deliveries).length := by
  induction f generalizing below with
  | nil => rfl
  | piece s rest ih => exact ih below
  | element tag inner rest ihi ihr =>
    rw [delivered, chained, List.flatMap_cons, List.flatMap_append, PathExpression.deliveries]
    simp only [List.length_append]
    rw [← ihi, ← ihr, PathExpression.length_toList_delivered]
    omega

theorem Tree.length_delivered (e : PathExpression) (t : Tree TagEvent) :
    (t.delivered e).length = (e.spots t).length := by
  rw [PathExpression.length_spots, delivered, chained, List.flatMap_cons,
    PathExpression.deliveries]
  simp only [List.length_append]
  rw [← t.inner.length_delivered e [], PathExpression.length_toList_delivered]
  omega

/-- **Two values are delivered exactly if two nodes are selected that are not attributes of one
element.** -/
theorem Tree.two_le_length_delivered (e : PathExpression) (t : Tree TagEvent) :
    2 ≤ (t.delivered e).length ↔ e.SelectsApart t := by
  rw [t.length_delivered, ← List.toFinset_card_of_nodup PathExpression.nodup_spots]
  refine Finset.one_lt_card.trans ?_
  simp only [List.mem_toFinset, PathExpression.mem_spots]
  constructor
  · rintro ⟨_, ⟨n, hn, rfl⟩, _, ⟨m, hm, rfl⟩, hne⟩
    exact ⟨n, m, hn, hm, hne⟩
  · rintro ⟨n, m, hn, hm, hne⟩
    exact ⟨_, ⟨n, hn, rfl⟩, _, ⟨m, hm, rfl⟩, hne⟩

end MarkupGrammar
