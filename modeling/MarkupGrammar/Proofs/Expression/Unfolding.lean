import MarkupGrammar.Proofs.Expression.Survey
import MarkupGrammar.Proofs.Outcome
import Mathlib.Data.Finset.Card

/-! # Unfolding tables

In a table that was filled by hand nodes may be shared, and parts may be missing. A node *unfolds*
to a tree if no part below it is missing; a shared node is unfolded at each of its places. A survey
that succeeds has found the positions of the unfolded tree and their facts (`visit_unfolds`,
`run_unfolds`): when the visit of a node ends, the records of all other nodes are those of before or
have been taken out, so a record that is still there when it is needed is the one that is meant.

In a table without cycles a part reaches fewer nodes than the whole, so a survey fails for a part
that is missing or shared only (`run_error`). If no node below the root is missing, has two parents
or is twice a part of one, the root unfolds to a tree without sharing (`exists_holds_nodup`). -/

namespace MarkupGrammar

namespace ExpressionTable

variable {t : ExpressionTable} {i j a b root : Nat} {x : Expression}
  {e e' : ExpressionTree Position} {ns ns' : List Nat}

/-- The node unfolds to the tree. -/
def Unfolds (t : ExpressionTable) (i : Nat) (e : ExpressionTree Position) : Prop :=
  ∃ ns, t.Holds i e ns

/-- Node `b` is a part of node `a`. -/
def HasPart (t : ExpressionTable) (a b : Nat) : Prop := ∃ x, t.get a = .ok x ∧ b ∈ x.parts

/-- The second node is the first one or below it. -/
def Reaches (t : ExpressionTable) : Nat → Nat → Prop := Relation.ReflTransGen t.HasPart

/-- No node is below itself. -/
def Acyclic (t : ExpressionTable) : Prop := ∀ i, ¬ Relation.TransGen t.HasPart i i

/-- The root and all parts below it are in the table. -/
def Complete (t : ExpressionTable) (root : Nat) : Prop :=
  ∀ i, t.Reaches root i → ∃ x, t.get i = .ok x

/-- No node below the root has two parents or is twice a part of one. -/
structure Unshared (t : ExpressionTable) (root : Nat) : Prop where
  parent {a b i : Nat} (ha : t.Reaches root a) (hb : t.Reaches root b) (hai : t.HasPart a i)
    (hbi : t.HasPart b i) : a = b
  parts {a : Nat} {x : Expression} (ha : t.Reaches root a) (hx : t.get a = .ok x) : x.parts.Nodup

/-! ## Nodes that are reached -/

theorem hasPart_iff (h : t.get i = .ok x) : t.HasPart i a ↔ a ∈ x.parts := by
  constructor
  · rintro ⟨y, hy, ha⟩
    obtain rfl := Except.ok.inj (h.symm.trans hy)
    exact ha
  · exact fun ha => ⟨x, h, ha⟩

theorem reaches_iff (h : t.get i = .ok x) :
    t.Reaches i j ↔ j = i ∨ ∃ a ∈ x.parts, t.Reaches a j := by
  rw [Reaches, Relation.ReflTransGen.cases_head_iff, eq_comm]
  simp only [hasPart_iff h]

theorem Holds.mem_iff (h : t.Holds i e ns) : j ∈ ns ↔ t.Reaches i j := by
  induction h with
  | empty h | leaf h => simp [reaches_iff h, Expression.parts]
  | choice h _ _ iha ihb | sequence h _ _ iha ihb =>
    simp [reaches_iff h, Expression.parts, iha, ihb]
  | optional h _ ih | zeroOrMore h _ ih | oneOrMore h _ ih =>
    simp [reaches_iff h, Expression.parts, ih]

theorem Holds.unique (h : t.Holds i e ns) : ∀ {e' ns'}, t.Holds i e' ns' → e = e' ∧ ns = ns' := by
  induction h with
  | empty h | leaf h => intro e' ns' h'; cases h' <;> simp_all
  | choice h _ _ iha ihb | sequence h _ _ iha ihb =>
    intro e' ns' h'
    cases h' <;> simp_all
    rename_i ha hb _
    obtain ⟨rfl, rfl⟩ := iha ha
    obtain ⟨rfl, rfl⟩ := ihb hb
    exact ⟨⟨rfl, rfl⟩, rfl⟩
  | optional h _ ih | zeroOrMore h _ ih | oneOrMore h _ ih =>
    intro e' ns' h'
    cases h' <;> simp_all
    rename_i ha _
    exact ih ha

/-- A node unfolds to one tree at most. -/
theorem Unfolds.unique (h : t.Unfolds i e) (h' : t.Unfolds i e') : e = e' := by
  obtain ⟨ns, h⟩ := h
  obtain ⟨ns', h'⟩ := h'
  exact (h.unique h').1

theorem acyclic_of_parts_lt (h : ∀ i (hi : i < t.nodes.size), ∀ a ∈ t.nodes[i].parts, a < i) :
    t.Acyclic := by
  have hstep {i j : Nat} (hp : t.HasPart i j) : j < i := by
    obtain ⟨x, hx, hj⟩ := hp
    obtain ⟨hi, rfl⟩ := Array.getElem?_eq_some_iff.mp (get_eq_ok.mp hx)
    exact h i hi j hj
  have hlt {i j : Nat} (hij : Relation.TransGen t.HasPart i j) : j < i := by
    induction hij with
    | single hp => exact hstep hp
    | tail _ hp ih => exact (hstep hp).trans ih
  exact fun i hi => Nat.lt_irrefl i (hlt hi)

/-! ## Ranks -/

open Classical in
/-- The nodes of the table that are reached. -/
noncomputable def nodesBelow (t : ExpressionTable) (i : Nat) : Finset Nat :=
  (Finset.range t.size).filter (t.Reaches i)

theorem mem_nodesBelow : j ∈ t.nodesBelow i ↔ j < t.size ∧ t.Reaches i j := by
  simp [nodesBelow]

/-- How many nodes of the table are reached. -/
noncomputable def rank (t : ExpressionTable) (i : Nat) : Nat := (t.nodesBelow i).card

theorem rank_le_size (t : ExpressionTable) (i : Nat) : t.rank i ≤ t.size := by
  have hsub : t.nodesBelow i ⊆ Finset.range t.size := fun j hj =>
    Finset.mem_range.mpr (mem_nodesBelow.mp hj).1
  simpa [rank] using Finset.card_le_card hsub

/-- Without cycles a part reaches fewer nodes than the whole, which it does not reach itself. -/
theorem Acyclic.rank_lt (ht : t.Acyclic) (h : t.HasPart a b) : t.rank b < t.rank a := by
  obtain ⟨x, hx, -⟩ := id h
  have hsub : t.nodesBelow b ⊆ t.nodesBelow a := fun j hj => by
    obtain ⟨hlt, hj⟩ := mem_nodesBelow.mp hj
    exact mem_nodesBelow.mpr ⟨hlt, .head h hj⟩
  have ha : a ∈ t.nodesBelow a := mem_nodesBelow.mpr ⟨lt_size_of_get hx, .refl⟩
  have ha' : a ∉ t.nodesBelow b := fun ha => ht a (.head' h (mem_nodesBelow.mp ha).2)
  exact Finset.card_lt_card ((Finset.ssubset_iff_of_subset hsub).mpr ⟨a, ha, ha'⟩)

/-! ## Tables without sharing -/

theorem Complete.of_hasPart (h : t.Complete a) (hab : t.HasPart a b) : t.Complete b :=
  fun i hi => h i (.head hab hi)

theorem exists_holds (ht : t.Acyclic) (hc : t.Complete i) : ∃ e ns, t.Holds i e ns := by
  obtain ⟨n, hn⟩ : ∃ n, t.rank i < n := ⟨_, Nat.lt_succ_self _⟩
  induction n generalizing i with
  | zero => exact absurd hn (Nat.not_lt_zero _)
  | succ n ih =>
    obtain ⟨x, hx⟩ := hc i .refl
    have part {a : Nat} (ha : a ∈ x.parts) : ∃ e ns, t.Holds a e ns := by
      have hp := (hasPart_iff hx).mpr ha
      exact ih (hc.of_hasPart hp) (by have := ht.rank_lt hp; omega)
    cases x with
    | leaf l p => exact ⟨_, _, .leaf hx⟩
    | empty => exact ⟨_, _, .empty hx⟩
    | choice a b =>
      obtain ⟨ea, na, ha⟩ := part (.head _)
      obtain ⟨eb, nb, hb⟩ := part (.tail _ (.head _))
      exact ⟨_, _, .choice hx ha hb⟩
    | sequence a b =>
      obtain ⟨ea, na, ha⟩ := part (.head _)
      obtain ⟨eb, nb, hb⟩ := part (.tail _ (.head _))
      exact ⟨_, _, .sequence hx ha hb⟩
    | optional a =>
      obtain ⟨ea, na, ha⟩ := part (.head _)
      exact ⟨_, _, .optional hx ha⟩
    | zeroOrMore a =>
      obtain ⟨ea, na, ha⟩ := part (.head _)
      exact ⟨_, _, .zeroOrMore hx ha⟩
    | oneOrMore a =>
      obtain ⟨ea, na, ha⟩ := part (.head _)
      exact ⟨_, _, .oneOrMore hx ha⟩

/-- Two parts of a node have no node in common: a common one would have a parent below each, and
these would be the same node. -/
theorem Unshared.not_reaches (hu : t.Unshared root) (ht : t.Acyclic) (hi : t.Reaches root i)
    (ha : t.HasPart i a) (hb : t.HasPart i b) (hne : a ≠ b) (h : t.Reaches a j) :
    ¬ t.Reaches b j := by
  induction h with
  | refl =>
    intro hba
    rcases Relation.ReflTransGen.cases_tail hba with h | ⟨p, hbp, hpa⟩
    · exact hne h
    · obtain rfl := hu.parent ((hi.tail hb).trans hbp) hi hpa ha
      exact ht _ (.head' hb hbp)
  | @tail m j ham hmj ih =>
    intro hbj
    rcases Relation.ReflTransGen.cases_tail hbj with rfl | ⟨p, hbp, hpj⟩
    · obtain rfl := hu.parent ((hi.tail ha).trans ham) hi hmj hb
      exact ht _ (.head' ha ham)
    · obtain rfl := hu.parent ((hi.tail hb).trans hbp) ((hi.tail ha).trans ham) hpj hmj
      exact ih hbp

theorem Acyclic.not_mem_part (ht : t.Acyclic) (hi : t.HasPart i a) (ha : t.Holds a e ns) :
    i ∉ ns := fun hm => ht i (.head' hi (ha.mem_iff.mp hm))

/-- Without sharing the nodes of the tree differ. -/
theorem Unshared.nodup (hu : t.Unshared root) (ht : t.Acyclic) (h : t.Holds i e ns)
    (hi : t.Reaches root i) : ns.Nodup := by
  induction h with
  | empty h | leaf h => exact List.nodup_singleton _
  | @choice i a b ea eb na nb h ha hb iha ihb | @sequence i a b ea eb na nb h ha hb iha ihb =>
    have pa : t.HasPart i a := (hasPart_iff h).mpr (.head _)
    have pb : t.HasPart i b := (hasPart_iff h).mpr (.tail _ (.head _))
    have hne : a ≠ b := by simpa [Expression.parts] using hu.parts hi h
    refine List.nodup_cons.mpr ⟨?_, List.nodup_append'.mpr
      ⟨iha (hi.tail pa), ihb (hi.tail pb), fun j hja hjb => ?_⟩⟩
    · rw [List.mem_append, not_or]
      exact ⟨ht.not_mem_part pa ha, ht.not_mem_part pb hb⟩
    · exact hu.not_reaches ht hi pa pb hne (ha.mem_iff.mp hja) (hb.mem_iff.mp hjb)
  | @optional i a ea na h ha ih | @zeroOrMore i a ea na h ha ih | @oneOrMore i a ea na h ha ih =>
    have pa : t.HasPart i a := (hasPart_iff h).mpr (.head _)
    exact List.nodup_cons.mpr ⟨ht.not_mem_part pa ha, ih (hi.tail pa)⟩

/-- **A root below which no node is missing or shared unfolds to a tree without sharing.** -/
theorem exists_holds_nodup (ht : t.Acyclic) (hc : t.Complete root) (hu : t.Unshared root) :
    ∃ e ns, t.Holds root e ns ∧ ns.Nodup := by
  obtain ⟨e, ns, h⟩ := exists_holds ht hc
  exact ⟨e, ns, h, hu.nodup ht h .refl⟩

end ExpressionTable

namespace Survey

variable {t : ExpressionTable} {i j a b root fuel : Nat} {e ea eb : ExpressionTree Position}
  {s s' s₁ s₂ s₃ s₄ : Survey} {f fa fb r : Facts} {d : Defect}

/-! ## Steps that succeed -/

theorem of_bind_ok {α β : Type} {x : M α} {k : α → M β} {v : β}
    (h : (x >>= k) s = .ok (v, s')) : ∃ u s₁, x s = .ok (u, s₁) ∧ k u s₁ = .ok (v, s') := by
  obtain ⟨⟨u, s₁⟩, hx, hk⟩ := of_bind_eq_ok h
  exact ⟨u, s₁, hx, hk⟩

theorem of_take_ok (h : take i s = .ok (f, s')) : s.recorded i = some f ∧ s' = s.without i := by
  unfold take at h
  obtain ⟨u, s₁, hget, hk⟩ := of_bind_ok h
  obtain ⟨rfl, rfl⟩ := Prod.mk.inj (Except.ok.inj hget)
  unfold recorded
  cases hr : s.records.lookup i with
  | none =>
    rw [hr] at hk
    exact nomatch hk
  | some f' =>
    rw [hr] at hk
    obtain ⟨rfl, rfl⟩ := Prod.mk.inj (Except.ok.inj hk)
    exact ⟨rfl, rfl⟩

theorem of_get_ok {x : Expression} (h : (liftM (t.get i) : M Expression) s = .ok (x, s')) :
    t.get i = .ok x ∧ s' = s := by
  cases hi : t.get i with
  | error d =>
    rw [hi] at h
    exact nomatch h
  | ok y =>
    rw [hi] at h
    obtain ⟨rfl, rfl⟩ := Prod.mk.inj (Except.ok.inj h)
    exact ⟨rfl, rfl⟩

theorem of_visit_ok (h : visit t (fuel + 1) i s = .ok ((), s')) :
    ∃ x s₁ r s₂, t.get i = .ok x ∧ x.parts.forM (visit t fuel) s = .ok ((), s₁) ∧
      factsOf x s₁ = .ok (r, s₂) ∧
      s' = { s₂ with records := (i, r) :: s₂.records.filter (·.1 != i) } := by
  unfold visit at h
  obtain ⟨x, s₀, hx, hk⟩ := of_bind_ok h
  obtain ⟨hget, rfl⟩ := of_get_ok hx
  obtain ⟨_, s₁, hp, hk⟩ := of_bind_ok hk
  obtain ⟨r, s₂, hr, hk⟩ := of_bind_ok hk
  exact ⟨x, s₁, r, s₂, hget, hp, hr, (Prod.mk.inj (Except.ok.inj hk)).2.symm⟩

theorem of_visitParts_one (h : [a].forM (visit t fuel) s = .ok ((), s')) :
    visit t fuel a s = .ok ((), s') := by
  obtain ⟨_, _, ha, hnil⟩ := of_bind_ok h
  obtain ⟨-, rfl⟩ := Prod.mk.inj (Except.ok.inj hnil)
  exact ha

theorem of_visitParts_two (h : [a, b].forM (visit t fuel) s = .ok ((), s')) :
    ∃ s₀, visit t fuel a s = .ok ((), s₀) ∧ visit t fuel b s₀ = .ok ((), s') := by
  obtain ⟨_, s₀, ha, hb⟩ := of_bind_ok h
  exact ⟨s₀, ha, of_visitParts_one hb⟩

theorem recorded_without_self (s : Survey) (i : Nat) : (s.without i).recorded i = none := by
  rw [recorded, without, List.lookup_eq_none_iff]
  intro p hp
  have hne : p.1 ≠ i := by simpa using (List.mem_filter.mp hp).2
  simpa using hne.symm

/-! ## Visits of nodes that may be shared -/

/-- A visit of node `i` adds the positions of a tree and leaves a record of its facts. Of the other
records some may have been taken out. -/
structure VisitsShared (e : ExpressionTree Position) (i : Nat) (s s' : Survey) :
    Prop extends Extends e s s' where
  recorded : ∃ f, s'.recorded i = some f ∧ f.Describes (e.numbered s.positions.size)
  frame (j : Nat) (hj : j ≠ i) : s'.recorded j = s.recorded j ∨ s'.recorded j = none

/-- The record that ends a visit. -/
theorem visitsShared_of_extends (h : Extends e s s')
    (hr : r.Describes (e.numbered s.positions.size))
    (hf : ∀ j, s'.recorded j = s.recorded j ∨ s'.recorded j = none) :
    VisitsShared e i s { s' with records := (i, r) :: s'.records.filter (·.1 != i) } where
  toExtends := ⟨h.positions, h.follow_size, h.follow⟩
  recorded := ⟨r, by simp [Survey.recorded], hr⟩
  frame j hj := by
    have hrec : Survey.recorded { s' with records := (i, r) :: s'.records.filter (·.1 != i) } j =
        s'.recorded j := by
      simp [Survey.recorded, List.lookup_cons, beq_false_of_ne hj, lookup_filter_ne _ hj]
    rw [hrec]
    exact hf j

theorem VisitsShared.of_take (ha : VisitsShared ea a s s₁) (h : take a s₁ = .ok (fa, s₂)) :
    s₂ = s₁.without a ∧ fa.Describes (ea.numbered s.positions.size) ∧
      ∀ j, s₂.recorded j = s.recorded j ∨ s₂.recorded j = none := by
  obtain ⟨hfa, rfl⟩ := of_take_ok h
  obtain ⟨f, hf, hd⟩ := ha.recorded
  obtain rfl := Option.some.inj (hf.symm.trans hfa)
  refine ⟨rfl, hd, fun j => ?_⟩
  rcases eq_or_ne j a with rfl | hj
  · exact .inr (recorded_without_self _ _)
  · rw [recorded_without hj]
    exact ha.frame j hj

/-- Two parts have been visited, and both records are there: so they are those of the two visits. If
the second visit had taken out or replaced the first record, one of them would be missing. -/
theorem VisitsShared.of_take_two (ha : VisitsShared ea a s s₁) (hb : VisitsShared eb b s₁ s₂)
    (hta : take a s₂ = .ok (fa, s₃)) (htb : take b s₃ = .ok (fb, s₄)) :
    s₄ = (s₂.without a).without b ∧ fa.Describes (ea.numbered s.positions.size) ∧
      fb.Describes (eb.numbered s₁.positions.size) ∧
      ∀ j, s₄.recorded j = s.recorded j ∨ s₄.recorded j = none := by
  obtain ⟨hfa, rfl⟩ := of_take_ok hta
  obtain ⟨hfb, rfl⟩ := of_take_ok htb
  have hne : b ≠ a := by
    rintro rfl
    rw [recorded_without_self] at hfb
    exact nomatch hfb
  obtain ⟨f, hf, hda⟩ := ha.recorded
  obtain ⟨f', hf', hdb⟩ := hb.recorded
  rw [recorded_without hne, hf'] at hfb
  obtain rfl := Option.some.inj hfb
  have hkept : s₂.recorded a = s₁.recorded a := by
    refine (hb.frame a hne.symm).resolve_right fun h => ?_
    rw [h] at hfa
    exact nomatch hfa
  rw [hkept, hf] at hfa
  obtain rfl := Option.some.inj hfa
  refine ⟨rfl, hda, hdb, fun j => ?_⟩
  rcases eq_or_ne j b with rfl | hjb
  · exact .inr (recorded_without_self _ _)
  rw [recorded_without hjb]
  rcases eq_or_ne j a with rfl | hja
  · exact .inr (recorded_without_self _ _)
  rw [recorded_without hja]
  rcases hb.frame j hjb with h | h
  · rw [h]
    exact ha.frame j hja
  · exact .inr h

/-- **A visit that succeeds extends the survey by the tree that the node unfolds to.** -/
theorem visit_unfolds (hs : s.follow.size = s.positions.size)
    (h : visit t fuel i s = .ok ((), s')) : ∃ e, t.Unfolds i e ∧ VisitsShared e i s s' := by
  induction fuel generalizing i s s' with
  | zero => exact nomatch h
  | succ fuel ih =>
    obtain ⟨x, s₁, r, s₂, hx, hp, hr, rfl⟩ := of_visit_ok h
    have one {a : Nat} (hpa : [a].forM (visit t fuel) s = .ok ((), s₁)) :
        ∃ ea na, t.Holds a ea na ∧ VisitsShared ea a s s₁ := by
      obtain ⟨ea, ⟨na, hha⟩, hva⟩ := ih hs (of_visitParts_one hpa)
      exact ⟨ea, na, hha, hva⟩
    have two {a b : Nat} (hpa : [a, b].forM (visit t fuel) s = .ok ((), s₁)) :
        ∃ ea na eb nb s₀, t.Holds a ea na ∧ t.Holds b eb nb ∧ VisitsShared ea a s s₀ ∧
          VisitsShared eb b s₀ s₁ := by
      obtain ⟨s₀, ha, hb⟩ := of_visitParts_two hpa
      obtain ⟨ea, ⟨na, hha⟩, hva⟩ := ih hs ha
      obtain ⟨eb, ⟨nb, hhb⟩, hvb⟩ := ih hva.follow_size hb
      exact ⟨ea, na, eb, nb, s₀, hha, hhb, hva, hvb⟩
    cases x with
    | empty =>
      obtain ⟨-, rfl⟩ := Prod.mk.inj (Except.ok.inj hp)
      obtain ⟨rfl, rfl⟩ := Prod.mk.inj (Except.ok.inj hr)
      exact ⟨_, ⟨_, .empty hx⟩,
        visitsShared_of_extends (extends_empty hs) (describes_empty _) fun _ => .inl rfl⟩
    | leaf l p =>
      obtain ⟨-, rfl⟩ := Prod.mk.inj (Except.ok.inj hp)
      obtain ⟨rfl, rfl⟩ := Prod.mk.inj (Except.ok.inj hr)
      exact ⟨_, ⟨_, .leaf hx⟩,
        visitsShared_of_extends (place_spec hs) (describes_leaf _ _) fun _ => .inl rfl⟩
    | choice a b =>
      obtain ⟨ea, na, eb, nb, s₀, hha, hhb, hva, hvb⟩ := two hp
      obtain ⟨fa, _, hta, hk⟩ := of_bind_ok hr
      obtain ⟨fb, s₄, htb, hk⟩ := of_bind_ok hk
      obtain ⟨rfl, rfl⟩ := Prod.mk.inj (Except.ok.inj hk)
      obtain ⟨rfl, hda, hdb, hf⟩ := hva.of_take_two hvb hta htb
      have xe := extends_choice hva.toExtends hvb.toExtends
      exact ⟨_, ⟨_, .choice hx hha hhb⟩, visitsShared_of_extends
        ⟨xe.positions, xe.follow_size, xe.follow⟩ (describes_choice hda hdb hva.size) hf⟩
    | sequence a b =>
      obtain ⟨ea, na, eb, nb, s₀, hha, hhb, hva, hvb⟩ := two hp
      obtain ⟨fa, _, hta, hk⟩ := of_bind_ok hr
      obtain ⟨fb, s₄, htb, hk⟩ := of_bind_ok hk
      obtain ⟨rfl, rfl⟩ := Prod.mk.inj (Except.ok.inj hk)
      obtain ⟨rfl, hda, hdb, hf⟩ := hva.of_take_two hvb hta htb
      have xe := extends_sequence hva.toExtends hvb.toExtends hda hdb
      exact ⟨_, ⟨_, .sequence hx hha hhb⟩, visitsShared_of_extends
        ⟨xe.positions, xe.follow_size, xe.follow⟩ (describes_sequence hda hdb hva.size) hf⟩
    | optional a =>
      obtain ⟨ea, na, hha, hva⟩ := one hp
      obtain ⟨fa, s₃, hta, hk⟩ := of_bind_ok hr
      obtain ⟨rfl, rfl⟩ := Prod.mk.inj (Except.ok.inj hk)
      obtain ⟨rfl, hda, hf⟩ := hva.of_take hta
      exact ⟨_, ⟨_, .optional hx hha⟩, visitsShared_of_extends
        ⟨hva.positions, hva.follow_size, hva.follow⟩ ⟨rfl, hda.first, hda.last⟩ hf⟩
    | zeroOrMore a =>
      obtain ⟨ea, na, hha, hva⟩ := one hp
      obtain ⟨fa, s₃, hta, hk⟩ := of_bind_ok hr
      obtain ⟨rfl, rfl⟩ := Prod.mk.inj (Except.ok.inj hk)
      obtain ⟨rfl, hda, hf⟩ := hva.of_take hta
      have xe := extends_zeroOrMore hva.toExtends hda
      exact ⟨_, ⟨_, .zeroOrMore hx hha⟩, visitsShared_of_extends
        ⟨xe.positions, xe.follow_size, xe.follow⟩ ⟨rfl, hda.first, hda.last⟩ hf⟩
    | oneOrMore a =>
      obtain ⟨ea, na, hha, hva⟩ := one hp
      obtain ⟨fa, s₃, hta, hk⟩ := of_bind_ok hr
      obtain ⟨rfl, rfl⟩ := Prod.mk.inj (Except.ok.inj hk)
      obtain ⟨rfl, hda, hf⟩ := hva.of_take hta
      have xe := extends_zeroOrMore hva.toExtends hda
      exact ⟨_, ⟨_, .oneOrMore hx hha⟩, visitsShared_of_extends
        ⟨xe.positions, xe.follow_size, xe.follow⟩ ⟨hda.nullable, hda.first, hda.last⟩ hf⟩

/-- **A survey that succeeds has found the positions of the unfolded tree and their facts.** -/
theorem run_unfolds (h : run t root = .ok (f, s)) :
    ∃ e, t.Unfolds root e ∧ Extends e {} s ∧ f.Describes (e.numbered 0) := by
  obtain ⟨_, s₁, hv, ht⟩ := of_bind_ok h
  obtain ⟨e, he, hs⟩ := visit_unfolds rfl hv
  obtain ⟨rfl, hd, -⟩ := hs.of_take ht
  exact ⟨e, he, ⟨hs.positions, hs.follow_size, hs.follow⟩, hd⟩

/-! ## Surveys that fail -/

/-- The step fails with no other defects. -/
def FailsOnly {α : Type} (x : M α) (P : Defect → Prop) : Prop := ∀ s d, x s = .error d → P d

section FailsOnly

variable {α β : Type} {P : Defect → Prop}

theorem failsOnly_ok {x : M α} (h : ∀ s, (x s).isOk) : FailsOnly x P := by
  intro s d hd
  have := h s
  rw [hd] at this
  exact absurd this Bool.noConfusion

theorem FailsOnly.bind {x : M α} {k : α → M β} (hx : FailsOnly x P)
    (hk : ∀ u s s', x s = .ok (u, s') → FailsOnly (k u) P) : FailsOnly (x >>= k) P := by
  intro s d h
  cases hxs : x s with
  | error d' =>
    have hd : (x >>= k) s = .error d' := by simp [Bind.bind, StateT.bind, hxs, Except.bind]
    obtain rfl := Except.error.inj (hd.symm.trans h)
    exact hx s _ hxs
  | ok r =>
    obtain ⟨u, s'⟩ := r
    exact hk u s s' hxs s' d ((bind_ok hxs rfl).symm.trans h)

theorem failsOnly_forM {k : α → M Unit} {xs : List α} (h : ∀ u ∈ xs, FailsOnly (k u) P) :
    FailsOnly (xs.forM k) P := by
  induction xs with
  | nil => exact failsOnly_ok fun _ => rfl
  | cons u xs ih =>
    obtain ⟨hu, hxs⟩ := List.forall_mem_cons.mp h
    exact hu.bind fun _ _ _ _ => ih hxs

end FailsOnly

/-- A part is missing, or the facts about it have been used. -/
def IsOfPart (d : Defect) : Prop := (∃ j, d = .dangling .expressions j) ∨ ∃ j, d = .shared j

theorem failsOnly_get : FailsOnly (liftM (t.get i) : M Expression) IsOfPart := by
  intro s d h
  unfold ExpressionTable.get at h
  split at h
  · exact nomatch h
  · obtain rfl := Except.error.inj h
    exact .inl ⟨i, rfl⟩

theorem failsOnly_take : FailsOnly (take i) IsOfPart := by
  refine FailsOnly.bind (failsOnly_ok fun _ => rfl) fun s _ _ _ s' d h => ?_
  cases hr : s.records.lookup i with
  | some f =>
    rw [hr] at h
    exact nomatch h
  | none =>
    rw [hr] at h
    obtain rfl := Except.error.inj h
    exact .inr ⟨i, rfl⟩

theorem failsOnly_factsOf (x : Expression) : FailsOnly (factsOf x) IsOfPart := by
  cases x with
  | empty | leaf => exact failsOnly_ok fun _ => rfl
  | choice a b | sequence a b =>
    refine failsOnly_take.bind fun fa _ _ _ => failsOnly_take.bind fun fb _ _ _ => ?_
    exact failsOnly_ok fun _ => rfl
  | optional a | zeroOrMore a | oneOrMore a =>
    exact failsOnly_take.bind fun fa _ _ _ => failsOnly_ok fun _ => rfl

/-- Without cycles there are no more levels below a node than nodes that it reaches. -/
theorem failsOnly_visit (ht : t.Acyclic) (h : t.rank i < fuel) :
    FailsOnly (visit t fuel i) IsOfPart := by
  induction fuel generalizing i with
  | zero => exact absurd h (Nat.not_lt_zero _)
  | succ fuel ih =>
    refine failsOnly_get.bind fun x s s' hx => FailsOnly.bind ?_ fun _ _ _ _ => ?_
    · refine failsOnly_forM fun a ha => ih ?_
      have := ht.rank_lt ((ExpressionTable.hasPart_iff (of_get_ok hx).1).mpr ha)
      omega
    · exact (failsOnly_factsOf x).bind fun r _ _ _ => failsOnly_ok fun _ => rfl

/-- **Without cycles a survey fails for a part that is missing or shared only.** -/
theorem run_error (ht : t.Acyclic) (h : run t root = .error d) : IsOfPart d := by
  have hfuel : t.rank root < t.size + 1 := Nat.lt_succ_of_le (t.rank_le_size root)
  exact (failsOnly_visit ht hfuel).bind (fun _ _ _ _ => failsOnly_take) {} d h

end Survey

end MarkupGrammar
