import MarkupGrammar.Proofs.Expression.Tree

/-! # Nodes that stand for trees

Lowering works on nodes that stand for trees and share no nodes with each other. `Apart` says this
of a list of nodes with their trees. Appending a node takes its parts from the list and puts the
node in their place; the other trees of the list stay as they are. -/

namespace MarkupGrammar

namespace ExpressionTable

/-- Nodes stand for trees, which take the nodes `ns`. No tree is deeper than the number of its node
allows. -/
inductive HoldsAll (t : ExpressionTable) : List (Nat × ExpressionTree Position) → List Nat → Prop
  | nil : HoldsAll t [] []
  | cons {i e ns l ms} (h : t.Holds i e ns) (hh : e.height ≤ i + 1) (hl : HoldsAll t l ms) :
      HoldsAll t ((i, e) :: l) (ns ++ ms)

/-- Nodes stand for trees, and no node belongs to a tree twice or to two of them. -/
def Apart (t : ExpressionTable) (l : List (Nat × ExpressionTree Position)) : Prop :=
  ∃ ns, t.HoldsAll l ns ∧ ns.Nodup

/-- The node stands for the tree. -/
def Stands (t : ExpressionTable) (i : Nat) (e : ExpressionTree Position) : Prop :=
  ∃ ns, t.Holds i e ns ∧ e.height ≤ i + 1

variable {t u : ExpressionTable} {i a b : Nat} {e ea eb : ExpressionTree Position}
  {ns : List Nat} {l l' parts : List (Nat × ExpressionTree Position)}

theorem Stands.grows (h : t.Stands i e) (hu : t.Grows u) : u.Stands i e := by
  obtain ⟨ns, h, hh⟩ := h
  exact ⟨ns, h.grows hu, hh⟩

theorem HoldsAll.grows (h : t.HoldsAll l ns) (hu : t.Grows u) : u.HoldsAll l ns := by
  induction h with
  | nil => exact .nil
  | cons h hh _ ih => exact .cons (h.grows hu) hh ih

theorem HoldsAll.lt_size (h : t.HoldsAll l ns) : ∀ n ∈ ns, n < t.size := by
  induction h with
  | nil => simp
  | cons h _ _ ih =>
    intro n hn
    exact (List.mem_append.mp hn).elim (h.lt_size n) (ih n)

theorem HoldsAll.of_append (h : t.HoldsAll (parts ++ l) ns) :
    ∃ ps ms, t.HoldsAll parts ps ∧ t.HoldsAll l ms ∧ ns = ps ++ ms := by
  induction parts generalizing ns with
  | nil => exact ⟨[], ns, .nil, h, rfl⟩
  | cons x parts ih =>
    cases h with
    | @cons i e ks l ns h hh hl =>
      obtain ⟨ps, ms, hp, hm, rfl⟩ := ih hl
      exact ⟨ks ++ ps, ms, .cons h hh hp, hm, (List.append_assoc _ _ _).symm⟩

theorem HoldsAll.perm (h : t.HoldsAll l ns) (hl : l.Perm l') :
    ∃ ms, t.HoldsAll l' ms ∧ ms.Perm ns := by
  induction hl generalizing ns with
  | nil => exact ⟨ns, h, .refl _⟩
  | cons x _ ih =>
    cases h with
    | @cons i e ks l ms h hh hl =>
      obtain ⟨ms', hm, hp⟩ := ih hl
      exact ⟨ks ++ ms', .cons h hh hm, hp.append_left ks⟩
  | swap x y l =>
    cases h with
    | @cons _ _ ks _ _ h hh hl =>
      cases hl with
      | @cons _ _ ks' _ ms h' hh' hl =>
        refine ⟨ks' ++ (ks ++ ms), .cons h' hh' (.cons h hh hl), ?_⟩
        rw [← List.append_assoc, ← List.append_assoc]
        exact List.perm_append_comm.append_right ms
  | trans _ _ ih ih' =>
    obtain ⟨ms, h, hp⟩ := ih h
    obtain ⟨ms', h, hp'⟩ := ih' h
    exact ⟨ms', h, hp'.trans hp⟩

/-! ## Trees apart -/

theorem apart_nil (t : ExpressionTable) : t.Apart [] := ⟨[], .nil, List.nodup_nil⟩

theorem Apart.perm (h : t.Apart l) (hl : l.Perm l') : t.Apart l' := by
  obtain ⟨ns, h, hn⟩ := h
  obtain ⟨ms, h, hp⟩ := h.perm hl
  exact ⟨ms, h, hp.nodup_iff.mpr hn⟩

theorem Apart.of_append (h : t.Apart (parts ++ l)) : t.Apart l := by
  obtain ⟨ns, h, hn⟩ := h
  obtain ⟨ps, ms, -, hm, rfl⟩ := h.of_append
  exact ⟨ms, hm, (List.nodup_append'.mp hn).2.1⟩

theorem Apart.tail (h : t.Apart ((i, e) :: l)) : t.Apart l := by
  have h' : t.Apart ([(i, e)] ++ l) := h
  exact h'.of_append

theorem Apart.stands (h : t.Apart ((i, e) :: l)) : t.Stands i e := by
  obtain ⟨ns, h, -⟩ := h
  cases h with
  | @cons _ _ ks _ ms h hh _ => exact ⟨ks, h, hh⟩

theorem Apart.holds (h : t.Apart [(i, e)]) : ∃ ns, t.Holds i e ns ∧ ns.Nodup := by
  obtain ⟨ns, h, hn⟩ := h
  cases h with
  | @cons _ _ ks _ ms h _ hl =>
    cases hl
    exact ⟨ks, h, by simpa using hn⟩

/-- A node appended for parts that are trees apart from the others. -/
theorem Apart.push (parts : List (Nat × ExpressionTree Position)) {x : Expression}
    (h : t.Apart (parts ++ l)) (hx : ∀ ps, (t.push x).HoldsAll parts ps →
      (t.push x).Holds t.size e (t.size :: ps) ∧ e.height ≤ t.size + 1) :
    (t.push x).Apart ((t.size, e) :: l) := by
  obtain ⟨ns, h, hn⟩ := h
  have hnew : t.size ∉ ns := fun hm => Nat.lt_irrefl _ (h.lt_size _ hm)
  obtain ⟨ps, ms, hp, hm, rfl⟩ := (h.grows (grows_push t x)).of_append
  obtain ⟨he, hh⟩ := hx ps hp
  exact ⟨t.size :: ps ++ ms, .cons he hh hm, List.nodup_cons.mpr ⟨hnew, hn⟩⟩

theorem Apart.push_empty (h : t.Apart l) : (t.push .empty).Apart ((t.size, .empty) :: l) := by
  refine Apart.push [] h fun ps hp => ?_
  cases hp
  exact ⟨.empty (get_push_size _ _), Nat.le_add_left _ _⟩

theorem Apart.push_leaf (h : t.Apart l) (p : Position) :
    (t.push (.leaf p.leaf p.particle)).Apart ((t.size, .leaf p) :: l) := by
  refine Apart.push [] h fun ps hp => ?_
  cases hp
  exact ⟨.leaf (get_push_size _ _), Nat.le_add_left _ _⟩

/-- A node of one part, where `op` and `tree` belong together. -/
theorem Apart.push_one {op : Nat → Expression}
    {tree : ExpressionTree Position → ExpressionTree Position}
    (hop : ∀ {u : ExpressionTable} {i : Nat} {ns : List Nat}, u.get i = .ok (op a) →
      u.Holds a ea ns → u.Holds i (tree ea) (i :: ns))
    (hh : (tree ea).height = ea.height + 1) (h : t.Apart ((a, ea) :: l)) :
    (t.push (op a)).Apart ((t.size, tree ea) :: l) := by
  obtain ⟨ns, hns, hlt⟩ := h.stands
  have ha := hns.lt_size a hns.root_mem
  refine Apart.push [(a, ea)] h fun ps hp => ?_
  cases hp with
  | @cons _ _ ks _ ms hk _ hl =>
    cases hl
    rw [List.append_nil]
    exact ⟨hop (get_push_size _ _) hk, by omega⟩

/-- A node of two parts, where `op` and `tree` belong together. -/
theorem Apart.push_two {op : Nat → Nat → Expression}
    {tree : ExpressionTree Position → ExpressionTree Position → ExpressionTree Position}
    (hop : ∀ {u : ExpressionTable} {i : Nat} {ns ms : List Nat}, u.get i = .ok (op a b) →
      u.Holds a ea ns → u.Holds b eb ms → u.Holds i (tree ea eb) (i :: (ns ++ ms)))
    (hh : (tree ea eb).height = max ea.height eb.height + 1)
    (h : t.Apart ((a, ea) :: (b, eb) :: l)) :
    (t.push (op a b)).Apart ((t.size, tree ea eb) :: l) := by
  obtain ⟨ns, hns, hlta⟩ := h.stands
  obtain ⟨ms, hms, hltb⟩ := h.tail.stands
  have ha := hns.lt_size a hns.root_mem
  have hb := hms.lt_size b hms.root_mem
  refine Apart.push [(a, ea), (b, eb)] h fun ps hp => ?_
  cases hp with
  | @cons _ _ ks _ _ hk _ hl =>
    cases hl with
    | @cons _ _ ks' _ _ hk' _ hl =>
      cases hl
      rw [List.append_nil]
      exact ⟨hop (get_push_size _ _) hk hk', by omega⟩

end ExpressionTable

end MarkupGrammar
