import MarkupGrammar.Automaton.Construction
import MarkupGrammar.Proofs.Expression.Survey

/-! # Expressions in another place

Nodes that are put behind others get other numbers, and so do the particles of their leaves. This
*shift* changes nothing else: a survey of a shifted expression goes through the same steps
(`Survey.run_shift`), where records are kept under the new numbers and positions come from the new
particles. The construction of the automaton only asks whether two positions come from one
particle, so the automaton is the same (`ExpressionTable.automaton_shift`). -/

namespace MarkupGrammar

/-! ## Nodes -/

/-- The node with `n` added to the numbers of its parts and `k` to that of its particle. -/
def Expression.shift (n k : Nat) : Expression → Expression
  | leaf l particle => leaf l (k + particle)
  | choice a b => choice (n + a) (n + b)
  | sequence a b => sequence (n + a) (n + b)
  | optional a => optional (n + a)
  | zeroOrMore a => zeroOrMore (n + a)
  | oneOrMore a => oneOrMore (n + a)
  | empty => empty

@[simp] theorem Expression.parts_shift (n k : Nat) (e : Expression) :
    (e.shift n k).parts = e.parts.map (n + ·) := by cases e <;> rfl

/-- The position with `k` added to the number of its particle. -/
def Position.shift (k : Nat) (p : Position) : Position := { p with particle := k + p.particle }

@[simp] theorem Position.leaf_shift (k : Nat) (p : Position) : (p.shift k).leaf = p.leaf := rfl

/-- Whether two positions come from one particle does not change. -/
theorem Position.particle_shift_beq (k : Nat) (p q : Position) :
    ((p.shift k).particle == (q.shift k).particle) = (p.particle == q.particle) :=
  Bool.eq_iff_iff.2 (by simp [shift])

/-- The nodes of a table are those of another one from `n` on. -/
def ExpressionTable.Shifted (n k : Nat) (t t' : ExpressionTable) : Prop :=
  ∀ i e, t.get i = .ok e → t'.get (n + i) = .ok (e.shift n k)

/-! ## Surveys -/

namespace Survey

variable {n k : Nat} {α β : Type}

/-- The survey of a shifted expression. -/
def shift (n k : Nat) (s : Survey) : Survey where
  positions := s.positions.map (Position.shift k)
  follow := s.follow
  records := s.records.map fun r => (n + r.1, r.2)

/-- Where the first one succeeds, the second one does the same to the shifted survey. -/
def Carries (n k : Nat) (x y : M α) : Prop :=
  ∀ s v s', x s = .ok (v, s') → y (s.shift n k) = .ok (v, s'.shift n k)

theorem bind_eq_ok {x : M α} {f : α → M β} {s : Survey} {r : β × Survey}
    (h : (x >>= f) s = .ok r) : ∃ v s', x s = .ok (v, s') ∧ f v s' = .ok r := by
  simp only [bind, StateT.bind, Except.bind] at h
  split at h
  · cases h
  · rename_i vs hx
    exact ⟨vs.1, vs.2, hx, h⟩

theorem carries_pure (v : α) : Carries n k (pure v) (pure v) := by
  intro s v' s' h
  obtain ⟨rfl, rfl⟩ := Prod.mk.inj (Except.ok.inj h)
  rfl

theorem carries_bind {x y : M α} {f g : α → M β} (hx : Carries n k x y)
    (hf : ∀ v, Carries n k (f v) (g v)) : Carries n k (x >>= f) (y >>= g) := by
  intro s v s' h
  obtain ⟨w, u, hw, hv⟩ := bind_eq_ok h
  exact bind_ok (hx _ _ _ hw) (hf _ _ _ _ hv)

theorem carries_forM {f g : Nat → M Unit} (h : ∀ i, Carries n k (f i) (g (n + i))) (is : List Nat) :
    Carries n k (is.forM f) ((is.map (n + ·)).forM g) := by
  induction is with
  | nil => exact carries_pure ()
  | cons i is ih => exact carries_bind (h i) fun _ => ih

theorem lookup_map_add (l : List (Nat × Facts)) (i : Nat) :
    (l.map fun r => (n + r.1, r.2)).lookup (n + i) = l.lookup i := by
  induction l with
  | nil => rfl
  | cons r l ih =>
    rw [List.map_cons, List.lookup_cons, List.lookup_cons, ih]
    by_cases h : i = r.1
    · simp [h]
    · rw [beq_false_of_ne h, beq_false_of_ne fun h' => h (Nat.add_left_cancel h')]

theorem filter_map_add (l : List (Nat × Facts)) (i : Nat) :
    (l.map fun r => (n + r.1, r.2)).filter (·.1 != n + i) =
      (l.filter (·.1 != i)).map fun r => (n + r.1, r.2) := by
  rw [List.filter_map]
  exact congrArg _ (List.filter_congr fun r _ => by simp [bne])

theorem carries_record (i : Nat) (f : Facts) : Carries n k (record i f) (record (n + i) f) := by
  intro s v s' h
  obtain rfl : _ = s' := (Prod.mk.inj (Except.ok.inj h)).2
  unfold record shift
  simp only [modify, modifyGet, MonadStateOf.modifyGet, StateT.modifyGet, filter_map_add]
  rfl

theorem carries_take (i : Nat) : Carries n k (take i) (take (n + i)) := by
  intro s v s' h
  unfold take at h
  obtain ⟨w, u, hw, h⟩ := bind_eq_ok h
  obtain ⟨rfl, rfl⟩ := Prod.mk.inj (Except.ok.inj hw)
  cases hf : s.recorded i with
  | none =>
    rw [show s.records.lookup i = none from hf] at h
    cases h
  | some f =>
    rw [show s.records.lookup i = some f from hf] at h
    obtain ⟨_, u, hu, h⟩ := bind_eq_ok h
    obtain ⟨-, rfl⟩ := Prod.mk.inj (Except.ok.inj hu)
    obtain ⟨rfl, rfl⟩ := Prod.mk.inj (Except.ok.inj h)
    have : (s.shift n k).recorded (n + i) = some f := (lookup_map_add _ i).trans hf
    rw [take_ok this]
    unfold without shift
    rw [filter_map_add]

theorem carries_link (before after : NumberSet) :
    Carries n k (link before after) (link before after) := by
  intro s v s' h
  obtain ⟨-, rfl⟩ := Prod.mk.inj (Except.ok.inj h)
  rfl

theorem carries_place (p : Position) : Carries n k (place p) (place (p.shift k)) := by
  intro s v s' h
  obtain ⟨rfl, rfl⟩ := Prod.mk.inj (Except.ok.inj h)
  unfold place shift
  simp only [modifyGet, MonadStateOf.modifyGet, StateT.modifyGet, Array.size_map, Array.map_push]
  rfl

theorem carries_factsOf (e : Expression) : Carries n k (factsOf e) (factsOf (e.shift n k)) := by
  cases e with
  | leaf l particle => exact carries_bind (carries_place ⟨l, particle⟩) fun _ => carries_pure _
  | choice a b =>
    exact carries_bind (carries_take a) fun _ => carries_bind (carries_take b) fun _ =>
      carries_pure _
  | sequence a b =>
    exact carries_bind (carries_take a) fun _ => carries_bind (carries_take b) fun _ =>
      carries_bind (carries_link _ _) fun _ => carries_pure _
  | optional a => exact carries_bind (carries_take a) fun _ => carries_pure _
  | zeroOrMore a =>
    exact carries_bind (carries_take a) fun _ => carries_bind (carries_link _ _) fun _ =>
      carries_pure _
  | oneOrMore a =>
    exact carries_bind (carries_take a) fun _ => carries_bind (carries_link _ _) fun _ =>
      carries_pure _
  | empty => exact carries_pure _

variable {t t' : ExpressionTable}

/-- A visit of a shifted node; more fuel does no harm. -/
theorem carries_visit (ht : t.Shifted n k t') {fuel fuel' : Nat} (hf : fuel ≤ fuel') (i : Nat) :
    Carries n k (visit t fuel i) (visit t' fuel' (n + i)) := by
  induction fuel generalizing fuel' i with
  | zero => exact fun _ _ _ h => nomatch h
  | succ fuel ih =>
    obtain ⟨fuel', rfl⟩ := Nat.exists_eq_add_of_le' (Nat.le_trans (Nat.le_add_left 1 fuel) hf)
    intro s v s' h
    obtain ⟨e, u, he, h⟩ := bind_eq_ok h
    cases hi : t.get i with
    | error d =>
      rw [hi] at he
      cases he
    | ok x =>
      rw [get_ok hi] at he
      obtain ⟨rfl, rfl⟩ := Prod.mk.inj (Except.ok.inj he)
      refine bind_ok (get_ok (ht i x hi)) ?_
      rw [Expression.parts_shift]
      refine carries_bind (carries_forM (fun a => ih (Nat.le_of_succ_le_succ hf) a) x.parts)
        (fun _ => ?_) s v s' h
      exact carries_bind (carries_factsOf x) fun f => carries_record i f

theorem run_shift (ht : t.Shifted n k t') (hsize : t.size ≤ t'.size) {root : Nat} {f : Facts}
    {s : Survey} (h : run t root = .ok (f, s)) :
    run t' (n + root) = .ok (f, s.shift n k) := by
  have hempty : shift n k {} = {} := by simp [shift]
  have := carries_bind (carries_visit (k := k) ht (Nat.succ_le_succ hsize) root)
    (fun _ => carries_take root) {} f s h
  rw [hempty] at this
  exact this

end Survey

/-! ## Automata -/

namespace Construction

variable {n k : Nat} {c : Option Comparator} {limits : Limits}

/-- The setup with `k` added to the numbers of particles. -/
def Setup.shift (k : Nat) (u : Setup) : Setup :=
  { u with positions := u.positions.map (Position.shift k) }

theorem numberLeaves_map (positions : Array Position) :
    numberLeaves (positions.map (Position.shift k)) = numberLeaves positions := by
  unfold numberLeaves
  rw [Array.foldl_map]
  rfl

theorem setup_shift (f : Facts) (s : Survey) :
    setup f (s.shift n k) = ((setup f s).1.shift k, (setup f s).2) := by
  unfold setup Survey.shift
  simp only [numberLeaves_map, Array.size_map]
  rfl

theorem overlapWith?_shift (p : Position) (qs : List Position) :
    overlapWith? c (p.shift k) (qs.map (Position.shift k)) = overlapWith? c p qs := by
  unfold overlapWith?
  rw [List.find?_map, Option.map_map]
  have : (fun q => (p.shift k).particle != q.particle && (p.shift k).leaf.overlaps c q.leaf) ∘
      Position.shift k = fun q => p.particle != q.particle && p.leaf.overlaps c q.leaf := by
    funext q
    simp [bne, Position.particle_shift_beq]
  rw [this]
  rfl

theorem overlap?_shift (ps : List Position) :
    overlap? c (ps.map (Position.shift k)) = overlap? c ps := by
  induction ps with
  | nil => rfl
  | cons p ps ih =>
    unfold overlap?
    have : (ps.map (Position.shift k)).all (·.particle == (p.shift k).particle) =
        ps.all (·.particle == p.particle) := by
      rw [List.all_map]
      exact congrArg _ (funext fun q => Position.particle_shift_beq k q p)
    rw [List.map_cons]
    dsimp only
    rw [this, overlapWith?_shift, ih]

theorem explore_shift (u : Setup) (fuel : Nat) (found : Array NumberSet)
    (done : Array AutomatonState) :
    explore c limits (u.shift k) fuel found done = explore c limits u fuel found done := by
  induction fuel generalizing found done with
  | zero => rfl
  | succ fuel ih =>
    have hpositions (set : NumberSet) :
        (members (u.shift k) set).filterMap ((u.shift k).positions[·]?) =
          ((members u set).filterMap (u.positions[·]?)).map (Position.shift k) := by
      rw [List.map_filterMap]
      exact congrArg (List.filterMap · _) (funext fun p => Array.getElem?_map)
    unfold explore
    split
    · rfl
    · rw [hpositions, overlap?_shift]
      split
      · rfl
      · rw [show moves (u.shift k) = moves u from rfl]
        split
        · rfl
        · exact ih _ _

end Construction

/-- **The automaton does not depend on the place of the expression**, if it can be surveyed. -/
theorem ExpressionTable.automaton_shift {n k : Nat} {t t' : ExpressionTable}
    (ht : t.Shifted n k t') (hsize : t.size ≤ t'.size) {root : Nat} {f : Facts} {s : Survey}
    (h : Survey.run t root = .ok (f, s)) (c : Option Comparator) (limits : Limits) :
    t'.automaton c limits (n + root) = t.automaton c limits root := by
  unfold automaton
  rw [h, Survey.run_shift ht hsize h]
  simp only [Except.mapError, bind, Except.bind, Construction.setup_shift,
    Construction.explore_shift]
  rfl

end MarkupGrammar
