import MarkupGrammar.Proofs.Expression.Next

/-! # Surveys of trees

A survey of a node that stands for a tree, without sharing, finds the first, last and following
positions of the tree with its leaves numbered in order (`visit_tree`, `run_tree`). Each position is
added once, so the numbers of a part are consecutive; the record of a part is there when it is
needed, as no other part takes it out. -/

namespace MarkupGrammar

/-- The positions that can follow position `p`. -/
def succs (follow : Array NumberSet) (p : Nat) : List Nat := (follow[p]?.getD .empty).toList

theorem succs_push (follow : Array NumberSet) (p : Nat) :
    succs (follow.push .empty) p = succs follow p := by
  unfold succs
  rw [Array.getElem?_push]
  split
  · rename_i h
    rw [h, Array.getElem?_eq_none le_rfl]
    rfl
  · rfl

theorem size_foldl_modify (ps : List Nat) (f : NumberSet → NumberSet) (follow : Array NumberSet) :
    (ps.foldl (fun follow p => follow.modify p f) follow).size = follow.size := by
  induction ps generalizing follow with
  | nil => rfl
  | cons p ps ih => simp [ih]

/-- Adding the positions `after` to those that follow the positions `ps`. -/
theorem mem_succs_foldl {ps : List Nat} {after : NumberSet} {follow : Array NumberSet} {p q : Nat} :
    q ∈ succs (ps.foldl (fun follow p => follow.modify p (·.union after)) follow) p ↔
      q ∈ succs follow p ∨ (p ∈ ps ∧ p < follow.size ∧ q ∈ after.toList) := by
  induction ps generalizing follow with
  | nil => simp
  | cons x ps ih =>
    have hx : q ∈ succs (follow.modify x (·.union after)) p ↔
        q ∈ succs follow p ∨ (p = x ∧ p < follow.size ∧ q ∈ after.toList) := by
      unfold succs
      rw [Array.getElem?_modify]
      by_cases hp : p < follow.size
      · rw [Array.getElem?_eq_getElem hp]
        by_cases h : p = x
        · subst h
          simp [hp]
        · simp [h, Ne.symm h]
      · rw [Array.getElem?_eq_none (not_lt.mp hp)]
        simp [hp]
    rw [List.foldl_cons, ih, hx, Array.size_modify, List.mem_cons, or_and_right, or_assoc]

namespace Facts

/-- The facts are those of a tree of positions. -/
structure Describes (f : Facts) (e : ExpressionTree Nat) : Prop where
  nullable : f.nullable = e.nullable
  first (p : Nat) : p ∈ f.first.toList ↔ e.IsFirst p
  last (p : Nat) : p ∈ f.last.toList ↔ e.IsLast p

end Facts

namespace Survey

variable {t : ExpressionTable} {i a b fuel : Nat} {e ea eb : ExpressionTree Position}
  {ns na nb : List Nat} {s s' s'' : Survey} {f fa fb : Facts}

/-! ## Steps -/

/-- The facts recorded about a node. -/
def recorded (s : Survey) (i : Nat) : Option Facts := s.records.lookup i

/-- The survey without the record of a node. -/
def without (s : Survey) (i : Nat) : Survey :=
  { s with records := s.records.filter (·.1 != i) }

/-- The survey with each of the positions `before` followed by those of `after`. -/
def linked (s : Survey) (before after : NumberSet) : Survey :=
  { s with
    follow := before.toList.foldl (fun follow p => follow.modify p (·.union after)) s.follow }

theorem lookup_filter_ne (l : List (Nat × Facts)) {i j : Nat} (h : j ≠ i) :
    (l.filter (·.1 != i)).lookup j = l.lookup j := by
  induction l with
  | nil => rfl
  | cons x l ih =>
    obtain ⟨k, f⟩ := x
    by_cases hk : k = i
    · subst hk
      simp [ih, List.lookup_cons, beq_false_of_ne h]
    · simp [List.lookup_cons, hk, ih]

theorem recorded_without {j : Nat} (h : j ≠ i) : (s.without i).recorded j = s.recorded j :=
  lookup_filter_ne _ h

theorem bind_ok {α β : Type} {x : M α} {k : α → M β} {v : α} {r : Except Defect (β × Survey)}
    (hx : x s = .ok (v, s')) (hk : k v s' = r) : (x >>= k) s = r := by
  simp only [bind, StateT.bind, hx, Except.bind]
  exact hk

theorem take_ok (h : s.recorded i = some f) : take i s = .ok (f, s.without i) := by
  have hget : (get : M Survey) s = .ok (s, s) := rfl
  unfold take
  refine bind_ok hget ?_
  unfold recorded at h
  simp only [h]
  rfl

theorem link_ok (before after : NumberSet) :
    link before after s = .ok ((), s.linked before after) := rfl

theorem get_ok {x : Expression} (h : t.get i = .ok x) :
    (liftM (t.get i) : M Expression) s = .ok (x, s) := by
  rw [h]
  rfl

/-! ## Visits -/

/-- What a visit of a tree does to the survey, where `f` are the facts found. The numbers of the
positions of the tree begin with the number of positions before. -/
structure Extends (e : ExpressionTree Position) (s s' : Survey) : Prop where
  positions : s'.positions.toList = s.positions.toList ++ e.leaves
  follow_size : s'.follow.size = s'.positions.size
  follow (p q : Nat) : q ∈ succs s'.follow p ↔
    q ∈ succs s.follow p ∨ (e.numbered s.positions.size).Follows p q

/-- A visit of node `i`, with the nodes `ns` below, adds the positions of a tree and leaves a record
of its facts. -/
structure Visits (e : ExpressionTree Position) (i : Nat) (ns : List Nat) (s s' : Survey) :
    Prop extends Extends e s s' where
  recorded : ∃ f, s'.recorded i = some f ∧ f.Describes (e.numbered s.positions.size)
  frame (j : Nat) (hj : j ∉ ns) : s'.recorded j = s.recorded j

theorem Extends.size (h : Extends e s s') :
    s'.positions.size = s.positions.size + e.leaves.length := by
  simpa using congrArg List.length h.positions

theorem visit_eq {x : Expression} {r : Facts} (h : t.get i = .ok x)
    (hp : x.parts.forM (visit t fuel) s = .ok ((), s')) (hf : factsOf x s' = .ok (r, s'')) :
    visit t (fuel + 1) i s =
      .ok ((), { s'' with records := (i, r) :: s''.records.filter (·.1 != i) }) := by
  unfold visit
  exact bind_ok (get_ok h) (bind_ok hp (bind_ok hf rfl))

/-- The record that ends a visit. -/
theorem visits_of_extends (ns : List Nat) {r : Facts} (h : Extends e s s')
    (hr : r.Describes (e.numbered s.positions.size))
    (hf : ∀ j, j ∉ i :: ns → s'.recorded j = s.recorded j) :
    Visits e i (i :: ns) s { s' with records := (i, r) :: s'.records.filter (·.1 != i) } where
  toExtends := ⟨h.positions, h.follow_size, h.follow⟩
  recorded := ⟨r, by simp [Survey.recorded], hr⟩
  frame j hj := by
    have hne : j ≠ i := fun h => hj (h ▸ List.mem_cons_self)
    rw [← hf j hj]
    simp [Survey.recorded, List.lookup_cons, beq_false_of_ne hne, lookup_filter_ne _ hne]

/-! ## Extensions by the nodes without parts -/

theorem extends_empty (hs : s.follow.size = s.positions.size) : Extends .empty s s where
  positions := by simp [ExpressionTree.leaves]
  follow_size := hs
  follow := by simp [ExpressionTree.numbered, ExpressionTree.Follows]

theorem describes_empty (n : Nat) :
    Facts.Describes { nullable := true } ((.empty : ExpressionTree Position).numbered n) := by
  constructor <;> simp [ExpressionTree.numbered, ExpressionTree.nullable, ExpressionTree.IsFirst,
    ExpressionTree.IsLast]

theorem describes_leaf (n : Nat) (x : Position) :
    Facts.Describes { first := .single n, last := .single n }
      ((ExpressionTree.leaf x).numbered n) := by
  constructor <;> simp [ExpressionTree.numbered, ExpressionTree.nullable, ExpressionTree.IsFirst,
    ExpressionTree.IsLast]

/-- A leaf has its position. -/
theorem place_spec {l : Leaf} {particle : Nat} (hs : s.follow.size = s.positions.size) :
    Extends (.leaf ⟨l, particle⟩) s
      { s with
        positions := s.positions.push ⟨l, particle⟩
        follow := s.follow.push .empty } where
  positions := by simp [ExpressionTree.leaves]
  follow_size := by simp [hs]
  follow p q := by simp [succs_push, ExpressionTree.numbered, ExpressionTree.Follows]

/-! ## Extensions by the nodes with parts -/

theorem extends_choice {s₁ : Survey} (ha : Extends ea s s₁) (hb : Extends eb s₁ s') :
    Extends (.choice ea eb) s s' where
  positions := by rw [hb.positions, ha.positions, List.append_assoc, ExpressionTree.leaves]
  follow_size := hb.follow_size
  follow p q := by
    rw [hb.follow, ha.follow, ha.size, or_assoc, ExpressionTree.numbered, ExpressionTree.Follows]

/-- Links between the last and the first positions of parts. -/
theorem Extends.linked {e' : ExpressionTree Position} {before after : NumberSet}
    (h : Extends e s s') (hl : e'.leaves = e.leaves)
    (hlt : ∀ p ∈ before.toList, p < s'.positions.size)
    (hF : ∀ p q, (e'.numbered s.positions.size).Follows p q ↔
      (e.numbered s.positions.size).Follows p q ∨ (p ∈ before.toList ∧ q ∈ after.toList)) :
    Extends e' s (s'.linked before after) where
  positions := by rw [hl]; exact h.positions
  follow_size := by
    have := h.follow_size
    simpa [Survey.linked, size_foldl_modify] using this
  follow p q := by
    have hp : p ∈ before.toList ∧ p < s'.follow.size ∧ q ∈ after.toList ↔
        p ∈ before.toList ∧ q ∈ after.toList := by
      refine and_congr_right fun hp => and_iff_right ?_
      rw [h.follow_size]
      exact hlt p hp
    simp only [Survey.linked]
    rw [mem_succs_foldl, h.follow, hp, hF, or_assoc]

theorem lt_size_of_last {n : Nat} (hf : f.Describes (e.numbered n)) {p : Nat}
    (hp : p ∈ f.last.toList) : p < n + e.leaves.length := by
  have h := ((hf.last p).mp hp).mem_leaves
  rw [ExpressionTree.leaves_numbered, List.mem_range'_1] at h
  exact h.2

theorem extends_sequence {s₁ : Survey} (ha : Extends ea s s₁) (hb : Extends eb s₁ s')
    (hfa : fa.Describes (ea.numbered s.positions.size))
    (hfb : fb.Describes (eb.numbered s₁.positions.size)) :
    Extends (.sequence ea eb) s (s'.linked fa.last fb.first) := by
  refine (extends_choice ha hb).linked rfl ?_ ?_
  · intro p hp
    have := lt_size_of_last hfa hp
    rw [hb.size, ha.size]
    omega
  · intro p q
    simp only [ExpressionTree.numbered, ExpressionTree.Follows, hfa.last, hfb.first, ha.size,
      or_assoc]

theorem extends_zeroOrMore (ha : Extends ea s s')
    (hfa : fa.Describes (ea.numbered s.positions.size)) :
    Extends (.zeroOrMore ea) s (s'.linked fa.last fa.first) := by
  refine ha.linked rfl ?_ ?_
  · intro p hp
    rw [ha.size]
    exact lt_size_of_last hfa hp
  · intro p q
    simp only [ExpressionTree.numbered, ExpressionTree.Follows, hfa.last, hfa.first]

theorem describes_choice {n k : Nat} (ha : fa.Describes (ea.numbered n))
    (hb : fb.Describes (eb.numbered k)) (hk : k = n + ea.leaves.length) :
    Facts.Describes ⟨fa.nullable || fb.nullable, fa.first.union fb.first, fa.last.union fb.last⟩
      ((ExpressionTree.choice ea eb).numbered n) := by
  subst hk
  constructor <;> simp [ExpressionTree.numbered, ExpressionTree.nullable, ExpressionTree.IsFirst,
    ExpressionTree.IsLast, ha.nullable, hb.nullable, ha.first, hb.first, ha.last, hb.last]

theorem describes_sequence {n k : Nat} (ha : fa.Describes (ea.numbered n))
    (hb : fb.Describes (eb.numbered k)) (hk : k = n + ea.leaves.length) :
    Facts.Describes
      { nullable := fa.nullable && fb.nullable
        first := if fa.nullable then fa.first.union fb.first else fa.first
        last := if fb.nullable then fa.last.union fb.last else fb.last }
      ((ExpressionTree.sequence ea eb).numbered n) := by
  subst hk
  constructor
  · simp [ExpressionTree.numbered, ExpressionTree.nullable, ha.nullable, hb.nullable]
  · intro p
    simp only [ExpressionTree.numbered, ExpressionTree.IsFirst, ← ha.first, ← hb.first,
      ← ha.nullable]
    split <;> simp_all
  · intro p
    simp only [ExpressionTree.numbered, ExpressionTree.IsLast, ← ha.last, ← hb.last,
      ← hb.nullable]
    split <;> simp_all [or_comm]

/-! ## Visits of nodes with parts -/

/-- A part is visited, its facts are taken out, and the facts of the node are made of them. -/
theorem visit_one {x : Expression} (h : t.get i = .ok x) (hx : x.parts = [a]) (ha : a ∈ na)
    (hvisit : ∃ s', visit t fuel a s = .ok ((), s') ∧ Visits ea a na s s')
    (hfacts : ∀ s₁ fa, Extends ea s s₁ → fa.Describes (ea.numbered s.positions.size) →
      take a s₁ = .ok (fa, s₁.without a) → ∃ r s₂, factsOf x s₁ = .ok (r, s₂) ∧ Extends e s s₂ ∧
        r.Describes (e.numbered s.positions.size) ∧ s₂.records = (s₁.without a).records) :
    ∃ s', visit t (fuel + 1) i s = .ok ((), s') ∧ Visits e i (i :: na) s s' := by
  obtain ⟨s₁, hs₁, xa, ⟨fa, hra, da⟩, hf⟩ := hvisit
  obtain ⟨r, s₂, hr, xe, de, hrec⟩ := hfacts s₁ fa xa da (take_ok hra)
  have hparts : x.parts.forM (visit t fuel) s = .ok ((), s₁) := by
    rw [hx]
    exact bind_ok hs₁ rfl
  refine ⟨_, visit_eq h hparts hr, visits_of_extends _ xe de fun j hj => ?_⟩
  have hja : j ∉ na := fun h => hj (List.mem_cons_of_mem _ h)
  have hrec : s₂.recorded j = (s₁.without a).recorded j := by rw [Survey.recorded, hrec]; rfl
  rw [hrec, recorded_without (ne_of_mem_of_not_mem ha hja).symm, hf j hja]

/-- Two parts are visited, their facts are taken out, and the facts of the node are made of them. -/
theorem visit_two {x : Expression} (h : t.get i = .ok x) (hx : x.parts = [a, b]) (ha : a ∈ na)
    (hb : b ∈ nb) (hd : na.Disjoint nb)
    (hva : ∃ s', visit t fuel a s = .ok ((), s') ∧ Visits ea a na s s')
    (hvb : ∀ s₁ : Survey, s₁.follow.size = s₁.positions.size →
      ∃ s', visit t fuel b s₁ = .ok ((), s') ∧ Visits eb b nb s₁ s')
    (hfacts : ∀ s₁ s₂ fa fb, Extends ea s s₁ → Extends eb s₁ s₂ →
      fa.Describes (ea.numbered s.positions.size) → fb.Describes (eb.numbered s₁.positions.size) →
      take a s₂ = .ok (fa, s₂.without a) →
      take b (s₂.without a) = .ok (fb, (s₂.without a).without b) →
      ∃ r s₃, factsOf x s₂ = .ok (r, s₃) ∧ Extends e s s₃ ∧
        r.Describes (e.numbered s.positions.size) ∧
        s₃.records = ((s₂.without a).without b).records) :
    ∃ s', visit t (fuel + 1) i s = .ok ((), s') ∧ Visits e i (i :: (na ++ nb)) s s' := by
  obtain ⟨s₁, hs₁, xa, ⟨fa, hra, da⟩, hfa⟩ := hva
  obtain ⟨s₂, hs₂, xb, ⟨fb, hrb, db⟩, hfb⟩ := hvb s₁ xa.follow_size
  have hab : a ∉ nb := hd ha
  have hne : b ≠ a := fun h => hab (h ▸ hb)
  have hta : take a s₂ = .ok (fa, s₂.without a) := take_ok (by rw [hfb a hab, hra])
  have htb : take b (s₂.without a) = .ok (fb, (s₂.without a).without b) :=
    take_ok (by rw [recorded_without hne, hrb])
  obtain ⟨r, s₃, hr, xe, de, hrec⟩ := hfacts s₁ s₂ fa fb xa xb da db hta htb
  have hparts : x.parts.forM (visit t fuel) s = .ok ((), s₂) := by
    rw [hx]
    exact bind_ok hs₁ (bind_ok hs₂ rfl)
  refine ⟨_, visit_eq h hparts hr, visits_of_extends _ xe de fun j hj => ?_⟩
  have hja : j ∉ na := fun h => hj (List.mem_cons_of_mem _ (List.mem_append_left _ h))
  have hjb : j ∉ nb := fun h => hj (List.mem_cons_of_mem _ (List.mem_append_right _ h))
  have hrec : s₃.recorded j = ((s₂.without a).without b).recorded j := by
    rw [Survey.recorded, hrec]; rfl
  rw [hrec, recorded_without (ne_of_mem_of_not_mem hb hjb).symm,
    recorded_without (ne_of_mem_of_not_mem ha hja).symm, hfb j hjb, hfa j hja]

/-- **A visit of a tree without sharing extends the survey by the tree.** -/
theorem visit_tree (h : t.Holds i e ns) (hn : ns.Nodup) :
    ∀ {fuel s}, e.height ≤ fuel → s.follow.size = s.positions.size →
      ∃ s', visit t fuel i s = .ok ((), s') ∧ Visits e i ns s s' := by
  induction h with
  | @empty i h =>
    intro fuel s hfuel hs
    obtain ⟨fuel, rfl⟩ := Nat.exists_eq_add_of_le' (show 1 ≤ fuel from hfuel)
    exact ⟨_, visit_eq h rfl rfl,
      visits_of_extends [] (extends_empty hs) (describes_empty _) fun j _ => rfl⟩
  | @leaf i l particle h =>
    intro fuel s hfuel hs
    obtain ⟨fuel, rfl⟩ := Nat.exists_eq_add_of_le' (show 1 ≤ fuel from hfuel)
    exact ⟨_, visit_eq h rfl rfl,
      visits_of_extends [] (place_spec hs) (describes_leaf _ _) fun j _ => rfl⟩
  | @choice i a b ea eb na nb h ha hb iha ihb =>
    intro fuel s hfuel hs
    obtain ⟨hna, hnb, hd⟩ := List.nodup_append'.mp (List.nodup_cons.mp hn).2
    obtain ⟨fuel, rfl⟩ := Nat.exists_eq_add_of_le' (le_trans (Nat.le_add_left 1 _) hfuel)
    obtain ⟨hfa, hfb⟩ := max_le_iff.mp (Nat.le_of_succ_le_succ hfuel)
    refine visit_two h rfl ha.root_mem hb.root_mem hd (iha hna hfa hs) (fun _ => ihb hnb hfb) ?_
    intro s₁ s₂ fa fb xa xb da db hta htb
    have xe := extends_choice xa xb
    exact ⟨_, _, bind_ok hta (bind_ok htb rfl), ⟨xe.positions, xe.follow_size, xe.follow⟩,
      describes_choice da db xa.size, rfl⟩
  | @sequence i a b ea eb na nb h ha hb iha ihb =>
    intro fuel s hfuel hs
    obtain ⟨hna, hnb, hd⟩ := List.nodup_append'.mp (List.nodup_cons.mp hn).2
    obtain ⟨fuel, rfl⟩ := Nat.exists_eq_add_of_le' (le_trans (Nat.le_add_left 1 _) hfuel)
    obtain ⟨hfa, hfb⟩ := max_le_iff.mp (Nat.le_of_succ_le_succ hfuel)
    refine visit_two h rfl ha.root_mem hb.root_mem hd (iha hna hfa hs) (fun _ => ihb hnb hfb) ?_
    intro s₁ s₂ fa fb xa xb da db hta htb
    have xe := extends_sequence xa xb da db
    exact ⟨_, _, bind_ok hta (bind_ok htb (bind_ok (link_ok _ _) rfl)),
      ⟨xe.positions, xe.follow_size, xe.follow⟩, describes_sequence da db xa.size, rfl⟩
  | @optional i a ea na h ha ih =>
    intro fuel s hfuel hs
    obtain ⟨fuel, rfl⟩ := Nat.exists_eq_add_of_le' (le_trans (Nat.le_add_left 1 _) hfuel)
    have hvisit := ih (List.nodup_cons.mp hn).2 (Nat.le_of_succ_le_succ hfuel) hs
    refine visit_one h rfl ha.root_mem hvisit fun s₁ fa xa da hta => ?_
    exact ⟨_, _, bind_ok hta rfl, ⟨xa.positions, xa.follow_size, xa.follow⟩,
      ⟨rfl, da.first, da.last⟩, rfl⟩
  | @zeroOrMore i a ea na h ha ih =>
    intro fuel s hfuel hs
    obtain ⟨fuel, rfl⟩ := Nat.exists_eq_add_of_le' (le_trans (Nat.le_add_left 1 _) hfuel)
    have hvisit := ih (List.nodup_cons.mp hn).2 (Nat.le_of_succ_le_succ hfuel) hs
    refine visit_one h rfl ha.root_mem hvisit fun s₁ fa xa da hta => ?_
    have xe := extends_zeroOrMore xa da
    exact ⟨_, _, bind_ok hta (bind_ok (link_ok _ _) rfl),
      ⟨xe.positions, xe.follow_size, xe.follow⟩, ⟨rfl, da.first, da.last⟩, rfl⟩
  | @oneOrMore i a ea na h ha ih =>
    intro fuel s hfuel hs
    obtain ⟨fuel, rfl⟩ := Nat.exists_eq_add_of_le' (le_trans (Nat.le_add_left 1 _) hfuel)
    have hvisit := ih (List.nodup_cons.mp hn).2 (Nat.le_of_succ_le_succ hfuel) hs
    refine visit_one h rfl ha.root_mem hvisit fun s₁ fa xa da hta => ?_
    have xe := extends_zeroOrMore xa da
    exact ⟨_, _, bind_ok hta (bind_ok (link_ok _ _) rfl),
      ⟨xe.positions, xe.follow_size, xe.follow⟩, ⟨da.nullable, da.first, da.last⟩, rfl⟩

/-- **The survey of a tree without sharing finds its positions and their facts.** -/
theorem run_tree (h : t.Holds i e ns) (hn : ns.Nodup) :
    ∃ f s, run t i = .ok (f, s) ∧ Extends e {} s ∧ f.Describes (e.numbered 0) := by
  have hfuel : e.height ≤ t.size + 1 := (h.height_le_size hn).trans (Nat.le_succ _)
  obtain ⟨s, hs, x, ⟨f, hr, hd⟩, -⟩ := visit_tree h hn (s := {}) hfuel rfl
  exact ⟨f, s.without i, bind_ok hs (take_ok hr), ⟨x.positions, x.follow_size, x.follow⟩, hd⟩

end Survey

end MarkupGrammar
