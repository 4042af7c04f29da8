import MarkupGrammar.Lowering
import MarkupGrammar.Proofs.Lowering.Nodes
import MarkupGrammar.Proofs.Lowering.Source

/-! # What lowering does

Lowering a particle appends nodes that stand for the tree of the particle, apart from all trees made
before (`particle_spec`). It fails only for a range out of order, for a bound above the limit, or
for an all-group inside. -/

namespace MarkupGrammar

/-- The failure has a single cause, of the given kind. -/
def Failure.HasKind (f : Failure) (k : Fault.Kind) : Prop := ∃ c, f = .ofCause c ∧ c.kind = k

theorem Failure.HasKind.unique {f : Failure} {k k' : Fault.Kind} (h : f.HasKind k)
    (h' : f.HasKind k') : k = k' := by
  obtain ⟨c, rfl, rfl⟩ := h
  obtain ⟨c', h, rfl⟩ := h'
  obtain rfl : c = c' := by simpa [Failure.ofCause] using h
  rfl

namespace Lowering

/-! ## Steps -/

section Steps

variable {α β : Type} {s : Lowering} {ok ok' : α → Lowering → Prop} {err err' : Failure → Prop}

/-- What holds of the result and of the state after it, and what holds of a failure. -/
def Ensures (x : LoweringM α) (s : Lowering) (ok : α → Lowering → Prop) (err : Failure → Prop) :
    Prop :=
  match x.run.run s with
  | (.ok a, s') => ok a s'
  | (.error f, _) => err f

theorem ensures_pure {a : α} (h : ok a s) : Ensures (pure a) s ok err := h

theorem ensures_throw {f : Failure} (h : err f) :
    Ensures (throw f : LoweringM α) s ok err := h

theorem Ensures.mono {x : LoweringM α} (h : Ensures x s ok err) (hok : ∀ a s', ok a s' → ok' a s')
    (herr : ∀ f, err f → err' f) : Ensures x s ok' err' := by
  unfold Ensures at h ⊢
  split
  · rename_i a s' hx
    rw [hx] at h
    exact hok a s' h
  · rename_i f s' hx
    rw [hx] at h
    exact herr f h

theorem Ensures.and {x : LoweringM α} (h : Ensures x s ok err) (h' : Ensures x s ok' err') :
    Ensures x s (fun a s' => ok a s' ∧ ok' a s') (fun f => err f ∧ err' f) := by
  unfold Ensures at h h' ⊢
  split
  · rename_i hx
    rw [hx] at h h'
    exact ⟨h, h'⟩
  · rename_i hx
    rw [hx] at h h'
    exact ⟨h, h'⟩

theorem run_bind (x : LoweringM β) (k : β → LoweringM α) (s : Lowering) :
    (x >>= k).run.run s =
      match x.run.run s with
      | (.ok b, s') => (k b).run.run s'
      | (.error f, s') => (.error f, s') := by
  simp only [ExceptT.run_bind, StateT.run_bind]
  rcases x.run.run s with ⟨_ | b, s'⟩ <;> rfl

theorem ensures_bind {x : LoweringM β} {k : β → LoweringM α}
    (h : Ensures x s (fun b s' => Ensures (k b) s' ok err) err) : Ensures (x >>= k) s ok err := by
  unfold Ensures at h ⊢
  rw [run_bind]
  rcases hx : x.run.run s with ⟨f | b, s'⟩ <;> rw [hx] at h <;> exact h

theorem ensures_add {e : Expression} {ok : Nat → Lowering → Prop}
    (h : ok s.table.size { s with table := s.table.push e }) : Ensures (add e) s ok err := h

theorem ensures_fresh {ok : Nat → Lowering → Prop}
    (h : ok s.nextParticle { s with nextParticle := s.nextParticle + 1 }) :
    Ensures freshParticle s ok err := h

theorem ensures_get {ok : Lowering → Lowering → Prop} (h : ok s s) :
    Ensures (get : LoweringM Lowering) s ok err := h

theorem ensures_node {i : Nat} {e : Expression} {ok : Expression → Lowering → Prop}
    (hi : s.table.get i = .ok e) (h : ok e s) : Ensures (node i) s ok err := by
  unfold node
  refine ensures_bind (ensures_get ?_)
  simp only [hi]
  exact ensures_pure h

theorem ensures_require {ε : Type} {cause : ε → Fault.Cause} {r : Except ε Unit}
    {ok : Unit → Lowering → Prop} (hok : r = .ok () → ok () s)
    (herr : ∀ e, r = .error e → err (.ofCause (cause e))) :
    Ensures (require cause r) s ok err := by
  cases r with
  | ok u => exact hok rfl
  | error e => exact herr e rfl

end Steps

variable {s s' s'' : Lowering} {i j fuel n k k' : Nat} {ns : List Nat} {limits : Limits}
  {e f inner : ExpressionTree Position} {l vs : List (Nat × ExpressionTree Position)}
  {err : Failure → Prop}

/-- A node is made for a tree, apart from those of `l`, with `n` numbers for leaves taken. -/
structure Makes (l : List (Nat × ExpressionTree Position)) (n : Nat) (e : ExpressionTree Position)
    (s : Lowering) (i : Nat) (s' : Lowering) : Prop where
  grows : s.table.Grows s'.table
  next : s'.nextParticle = s.nextParticle + n
  apart : s'.table.Apart ((i, e) :: l)

/-- The node is made later than another one, which may be its part. -/
theorem Makes.after {l' : List (Nat × ExpressionTree Position)} (h : Makes l n e s i s')
    (h' : Makes l' k f s' j s'') : Makes l' (n + k) f s j s'' where
  grows := h.grows.trans h'.grows
  next := by rw [h'.next, h.next, Nat.add_assoc]
  apart := h'.apart

/-- Appending a node. -/
theorem ensures_makes {x : Expression}
    (h : (s.table.push x).Apart ((s.table.size, e) :: l)) :
    Ensures (add x) s (Makes l 0 e s) err :=
  ensures_add ⟨ExpressionTable.grows_push _ _, rfl, h⟩

/-- Appending a node of one part. -/
theorem ensures_one {op : Nat → Expression}
    {tree : ExpressionTree Position → ExpressionTree Position} (h : s.table.Apart ((i, e) :: l))
    (hop : ∀ {u : ExpressionTable} {j : Nat} {ns : List Nat}, u.get j = .ok (op i) →
      u.Holds i e ns → u.Holds j (tree e) (j :: ns))
    (hh : (tree e).height = e.height + 1) : Ensures (add (op i)) s (Makes l 0 (tree e) s) err :=
  ensures_makes (h.push_one hop hh)

/-- Appending a node of two parts. -/
theorem ensures_two {op : Nat → Nat → Expression}
    {tree : ExpressionTree Position → ExpressionTree Position → ExpressionTree Position}
    (h : s.table.Apart ((i, e) :: (j, f) :: l))
    (hop : ∀ {u : ExpressionTable} {j' : Nat} {ns ms : List Nat}, u.get j' = .ok (op i j) →
      u.Holds i e ns → u.Holds j f ms → u.Holds j' (tree e f) (j' :: (ns ++ ms)))
    (hh : (tree e f).height = max e.height f.height + 1) :
    Ensures (add (op i j)) s (Makes l 0 (tree e f) s) err :=
  ensures_makes (h.push_two hop hh)

/-- A node is made after another one. -/
theorem makes_bind {l' : List (Nat × ExpressionTree Position)} {x : LoweringM Nat}
    {c : Nat → LoweringM Nat} (hx : Ensures x s (Makes l n e s) err)
    (hc : ∀ i s', Makes l n e s i s' → Ensures (c i) s' (Makes l' k f s') err) :
    Ensures (x >>= c) s (Makes l' (n + k) f s) err :=
  ensures_bind (hx.mono (fun i s' hi => (hc i s' hi).mono (fun _ _ hj => hi.after hj) fun _ => id)
    fun _ => id)

/-! ## Copies -/

variable {t : ExpressionTable}

/-- Two copies and a node of them. -/
theorem copy_two {ea eb : ExpressionTree Position} {x y : LoweringM Nat}
    {op : Nat → Nat → Expression}
    {tree : ExpressionTree Position → ExpressionTree Position → ExpressionTree Position}
    (hx : ∀ {s l}, t.Grows s.table → s.table.Apart l → Ensures x s (Makes l 0 ea s) err)
    (hy : ∀ {s l}, t.Grows s.table → s.table.Apart l → Ensures y s (Makes l 0 eb s) err)
    (hop : ∀ {u : ExpressionTable} {i j j' : Nat} {ns ms : List Nat}, u.get j' = .ok (op i j) →
      u.Holds i ea ns → u.Holds j eb ms → u.Holds j' (tree ea eb) (j' :: (ns ++ ms)))
    (hh : (tree ea eb).height = max ea.height eb.height + 1)
    (hg : t.Grows s.table) (hl : s.table.Apart l) :
    Ensures (do let a ← x; let b ← y; add (op a b)) s (Makes l 0 (tree ea eb) s) err := by
  refine makes_bind (k := 0) (hx hg hl) fun a s₁ ha => ?_
  refine makes_bind (k := 0) (hy (hg.trans ha.grows) ha.apart) fun b s₂ hb => ?_
  exact ensures_two (hb.apart.perm (.swap _ _ _)) hop hh

/-- A copy of a tree is a tree apart from all others. -/
theorem copyWithin_spec (h : t.Holds i e ns) : ∀ {fuel s l}, e.height ≤ fuel → t.Grows s.table →
    s.table.Apart l → Ensures (copyWithin fuel i) s (Makes l 0 e s) err := by
  induction h with
  | @empty i h =>
    intro fuel s l hf hg hl
    obtain ⟨fuel, rfl⟩ := Nat.exists_eq_add_of_le' (show 1 ≤ fuel from hf)
    exact ensures_bind (ensures_node (hg.get h) (ensures_makes hl.push_empty))
  | @leaf i leaf particle h =>
    intro fuel s l hf hg hl
    obtain ⟨fuel, rfl⟩ := Nat.exists_eq_add_of_le' (show 1 ≤ fuel from hf)
    exact ensures_bind (ensures_node (hg.get h) (ensures_makes (hl.push_leaf ⟨leaf, particle⟩)))
  | @choice i a b ea eb na nb h ha hb iha ihb =>
    intro fuel s l hf hg hl
    obtain ⟨fuel, rfl⟩ := Nat.exists_eq_add_of_le' (le_trans (Nat.le_add_left 1 _) hf)
    obtain ⟨hfa, hfb⟩ := max_le_iff.mp (Nat.le_of_succ_le_succ hf)
    exact ensures_bind (ensures_node (hg.get h)
      (copy_two (iha hfa) (ihb hfb) .choice rfl hg hl))
  | @sequence i a b ea eb na nb h ha hb iha ihb =>
    intro fuel s l hf hg hl
    obtain ⟨fuel, rfl⟩ := Nat.exists_eq_add_of_le' (le_trans (Nat.le_add_left 1 _) hf)
    obtain ⟨hfa, hfb⟩ := max_le_iff.mp (Nat.le_of_succ_le_succ hf)
    exact ensures_bind (ensures_node (hg.get h)
      (copy_two (iha hfa) (ihb hfb) .sequence rfl hg hl))
  | @optional i a ea na h ha ih =>
    intro fuel s l hf hg hl
    obtain ⟨fuel, rfl⟩ := Nat.exists_eq_add_of_le' (le_trans (Nat.le_add_left 1 _) hf)
    exact ensures_bind (ensures_node (hg.get h)
      (makes_bind (ih (Nat.le_of_succ_le_succ hf) hg hl)
        fun _ _ hc => ensures_one hc.apart .optional rfl))
  | @zeroOrMore i a ea na h ha ih =>
    intro fuel s l hf hg hl
    obtain ⟨fuel, rfl⟩ := Nat.exists_eq_add_of_le' (le_trans (Nat.le_add_left 1 _) hf)
    exact ensures_bind (ensures_node (hg.get h)
      (makes_bind (ih (Nat.le_of_succ_le_succ hf) hg hl)
        fun _ _ hc => ensures_one hc.apart .zeroOrMore rfl))
  | @oneOrMore i a ea na h ha ih =>
    intro fuel s l hf hg hl
    obtain ⟨fuel, rfl⟩ := Nat.exists_eq_add_of_le' (le_trans (Nat.le_add_left 1 _) hf)
    exact ensures_bind (ensures_node (hg.get h)
      (makes_bind (ih (Nat.le_of_succ_le_succ hf) hg hl)
        fun _ _ hc => ensures_one hc.apart .oneOrMore rfl))

theorem copy_spec (h : s.table.Stands i e) (hl : s.table.Apart l) :
    Ensures (copy i) s (Makes l 0 e s) err := by
  obtain ⟨ns, h, hh⟩ := h
  exact copyWithin_spec h hh (.refl _) hl

/-- Nodes are made for several trees, apart from those of `l`, with `n` numbers taken. -/
structure MakesAll (l : List (Nat × ExpressionTree Position)) (n : Nat)
    (es : List (ExpressionTree Position)) (s : Lowering) (is : List Nat) (s' : Lowering) :
    Prop where
  grows : s.table.Grows s'.table
  next : s'.nextParticle = s.nextParticle + n
  apart : ∃ vs, vs.map Prod.fst = is ∧ vs.map Prod.snd = es ∧ s'.table.Apart (vs ++ l)

theorem makesAll_nil (hl : s.table.Apart l) : MakesAll l 0 [] s [] s :=
  ⟨.refl _, rfl, [], rfl, rfl, hl⟩

/-- A node is made, and then others. -/
theorem Makes.cons {es : List (ExpressionTree Position)} {is : List Nat} (h : Makes l n e s i s')
    (hs : MakesAll ((i, e) :: l) k es s' is s'') :
    MakesAll l (n + k) (e :: es) s (i :: is) s'' := by
  obtain ⟨vs, rfl, rfl, ha⟩ := hs.apart
  exact ⟨h.grows.trans hs.grows, by rw [hs.next, h.next, Nat.add_assoc], (i, e) :: vs, rfl, rfl,
    ha.perm List.perm_middle⟩

theorem copies_spec (h : s.table.Stands i e) (hl : s.table.Apart l) :
    Ensures (copies i n) s (MakesAll l 0 (List.replicate n e) s) err := by
  induction n generalizing s l with
  | zero => exact ensures_pure (makesAll_nil hl)
  | succ n ih =>
    refine ensures_bind ((copy_spec h hl).mono (fun c s₁ hc => ?_) fun _ => id)
    refine ensures_bind ((ih (h.grows hc.grows) hc.apart).mono (fun cs s₂ hcs => ?_) fun _ => id)
    exact ensures_pure (hc.cons hcs)

/-! ## Groups -/

/-- Trees are put together from the left. -/
theorem foldlM_spec {c : Compositor} (hl : s.table.Apart ((i, e) :: (vs ++ l))) :
    Ensures ((vs.map Prod.fst).foldlM (fun a b => add (combine.node c a b)) i) s
      (Makes l 0 ((vs.map Prod.snd).foldl (ExpressionTree.join c) e) s) err := by
  induction vs generalizing s i e with
  | nil => exact ensures_pure ⟨.refl _, rfl, hl⟩
  | cons v vs ih =>
    obtain ⟨j, f⟩ := v
    have hnode : Ensures (add (combine.node c i j)) s
        (Makes (vs ++ l) 0 (ExpressionTree.join c e f) s) err := by
      unfold combine.node ExpressionTree.join
      split
      · exact ensures_two hl .choice rfl
      · exact ensures_two hl .sequence rfl
    rw [List.map_cons, List.foldlM_cons]
    exact makes_bind (k := 0) hnode fun _ _ h => ih h.apart

theorem combine_spec (c : Compositor) (hl : s.table.Apart (vs ++ l)) :
    Ensures (combine c (vs.map Prod.fst)) s
      (Makes l 0 (ExpressionTree.combined c (vs.map Prod.snd)) s) err := by
  cases vs with
  | nil => exact ensures_makes hl.push_empty
  | cons v vs => exact foldlM_spec hl

/-- Putting expressions in sequence is putting together a sequence group. -/
theorem sequenceFrom_eq (first : Nat) (rest : List Nat) :
    sequenceFrom first rest = combine .sequence (first :: rest) := by
  induction rest generalizing first with
  | nil => rfl
  | cons next rest ih =>
    unfold sequenceFrom
    simp only [ih]
    rfl

/-! ## Occurrence ranges -/

theorem optionalAround_spec (h : s.table.Stands i e) (hl : s.table.Apart ((j, inner) :: l)) :
    Ensures (optionalAround i j n) s
      (Makes l 0 (ExpressionTree.optionalAround e inner n) s) err := by
  induction n generalizing s j inner with
  | zero => exact ensures_pure ⟨.refl _, rfl, hl⟩
  | succ n ih =>
    refine makes_bind (k := 0) (copy_spec h hl) fun c s₁ hc => ?_
    refine makes_bind (k := 0) (ensures_two hc.apart .sequence rfl) fun a s₂ ha => ?_
    refine makes_bind (k := 0) (ensures_one ha.apart .optional rfl) fun b s₃ hb => ?_
    exact ih (h.grows (hc.grows.trans (ha.grows.trans hb.grows))) hb.apart

/-- The required repetitions, of which the expression itself is the first. -/
def firsts (required i : Nat) : LoweringM (List Nat) :=
  if required = 0 then pure [] else (i :: ·) <$> copies i (required - 1)

/-- The expression itself, unless it has been used, or else a copy. -/
def last (required i : Nat) : LoweringM Nat := if required = 0 then pure i else copy i

/-- What comes after the required repetitions. -/
def optionalRest (last : LoweringM Nat) (i min : Nat) : Option Nat → LoweringM (List Nat)
  | none => do pure [← add (.oneOrMore (← last))]
  | some max =>
    if min < max then do
      let inner ← add (.optional (← last))
      pure [← optionalAround i inner (max - min - 1)]
    else pure []

/-- All repetitions in sequence; none are the empty expression. -/
def joined : List Nat → LoweringM Nat
  | [] => add .empty
  | first :: rest => sequenceFrom first rest

theorem joined_eq (is : List Nat) : joined is = combine .sequence is := by
  cases is with
  | nil => rfl
  | cons first rest => exact sequenceFrom_eq first rest

theorem expand_eq (i min : Nat) (max : Option Nat) :
    expand i min max = (do
      let fs ← firsts (ExpressionTree.required min max) i
      let rs ← optionalRest (last (ExpressionTree.required min max) i) i min max
      combine .sequence (fs ++ rs)) := by
  cases max with
  | none =>
    rw [show ExpressionTree.required min none = min - 1 from rfl]
    by_cases h : min - 1 = 0 <;>
      simp only [expand, firsts, last, optionalRest, h, if_true, if_false, bind_assoc] <;>
      exact bind_congr fun _ => bind_congr fun _ => bind_congr fun _ => bind_congr fun _ =>
        joined_eq _
  | some max =>
    rw [show ExpressionTree.required min (some max) = min from rfl]
    simp only [expand, firsts, last, optionalRest]
    by_cases h' : min < max
    · by_cases h : min = 0
      · simp only [if_pos h, if_pos h', bind_assoc]
        exact bind_congr fun _ => bind_congr fun _ => bind_congr fun _ => bind_congr fun _ =>
          bind_congr fun _ => joined_eq _
      · simp only [if_neg h, if_pos h', bind_assoc]
        exact bind_congr fun _ => bind_congr fun _ => bind_congr fun _ => bind_congr fun _ =>
          bind_congr fun _ => joined_eq _
    · by_cases h : min = 0
      · simp only [if_pos h, if_neg h']
        exact bind_congr fun _ => bind_congr fun _ => joined_eq _
      · simp only [if_neg h, if_neg h']
        exact bind_congr fun _ => bind_congr fun _ => joined_eq _

/-- The expression itself while it has not been used. -/
def unused (required i : Nat) (e : ExpressionTree Position) :
    List (Nat × ExpressionTree Position) :=
  if required = 0 then [(i, e)] else []

variable {required : Nat}

theorem firsts_spec (hl : s.table.Apart ((i, e) :: l)) :
    Ensures (firsts required i) s
      (MakesAll (unused required i e ++ l) 0 (List.replicate required e) s) err := by
  unfold firsts unused
  split
  · rename_i h
    rw [h]
    exact ensures_pure (makesAll_nil hl)
  · rename_i h
    rw [map_eq_pure_bind]
    refine ensures_bind ((copies_spec hl.stands hl).mono (fun cs s' hcs => ?_) fun _ => id)
    obtain ⟨vs, rfl, hes, ha⟩ := hcs.apart
    refine ensures_pure ⟨hcs.grows, hcs.next, (i, e) :: vs, rfl, ?_, ha.perm List.perm_middle⟩
    rw [List.map_cons, hes, ← List.replicate_succ,
      Nat.sub_add_cancel (Nat.one_le_iff_ne_zero.mpr h)]

theorem last_spec (h : s.table.Stands i e) (hl : s.table.Apart (unused required i e ++ l)) :
    Ensures (last required i) s (Makes l 0 e s) err := by
  unfold unused at hl
  unfold last
  split
  · rename_i h0
    rw [if_pos h0] at hl
    exact ensures_pure ⟨.refl _, rfl, hl⟩
  · rename_i h0
    rw [if_neg h0] at hl
    exact copy_spec h hl

theorem Makes.single (h : Makes l n e s i s') : MakesAll l n [e] s [i] s' := by
  obtain ⟨hg, hn, ha⟩ := h
  exact ⟨hg, hn, [(i, e)], rfl, rfl, ha⟩

theorem optionalRest_spec {min : Nat} {max : Option Nat} {last : LoweringM Nat}
    (h : s.table.Stands i e) (hl : s.table.Apart l) (hlast : Ensures last s (Makes l 0 e s) err) :
    Ensures (optionalRest last i min max) s
      (MakesAll l 0 (ExpressionTree.optionalRest e min max) s) err := by
  cases max with
  | none =>
    refine ensures_bind (hlast.mono (fun a s₁ ha => ?_) fun _ => id)
    refine ensures_bind ((ensures_one ha.apart .oneOrMore rfl).mono (fun b s₂ hb => ?_) fun _ => id)
    exact ensures_pure (ha.after hb).single
  | some max =>
    simp only [optionalRest, ExpressionTree.optionalRest]
    split
    · refine ensures_bind (hlast.mono (fun a s₁ ha => ?_) fun _ => id)
      refine ensures_bind
        ((ensures_one ha.apart .optional rfl).mono (fun b s₂ hb => ?_) fun _ => id)
      have hs := (h.grows ha.grows).grows hb.grows
      refine ensures_bind ((optionalAround_spec hs hb.apart).mono (fun c s₃ hc => ?_) fun _ => id)
      exact ensures_pure ((ha.after hb).after hc).single
    · exact ensures_pure (makesAll_nil hl)

theorem expand_spec {min : Nat} {max : Option Nat} (hl : s.table.Apart ((i, e) :: l)) :
    Ensures (expand i min max) s (Makes l 0 (ExpressionTree.expanded e min max) s) err := by
  rw [expand_eq]
  refine ensures_bind ((firsts_spec hl).mono (fun is s₁ his => ?_) fun _ => id)
  have hs := hl.stands.grows his.grows
  obtain ⟨vs, rfl, hvs, ha⟩ := his.apart
  have ha' : s₁.table.Apart (unused (ExpressionTree.required min max) i e ++ (vs ++ l)) := by
    refine ha.perm ?_
    rw [← List.append_assoc, ← List.append_assoc]
    exact List.perm_append_comm.append_right l
  refine ensures_bind ((optionalRest_spec hs ha'.of_append (last_spec hs ha')).mono
    (fun js s₂ hjs => ?_) fun _ => id)
  obtain ⟨ws, rfl, hws, hb⟩ := hjs.apart
  have hb' : s₂.table.Apart ((vs ++ ws) ++ l) := by
    refine hb.perm ?_
    rw [← List.append_assoc]
    exact List.perm_append_comm.append_right l
  rw [← List.map_append]
  refine (combine_spec .sequence hb').mono (fun r s₃ hr => ?_) fun _ => id
  rw [List.map_append, hvs, hws] at hr
  exact ⟨his.grows.trans (hjs.grows.trans hr.grows), by rw [hr.next, hjs.next, his.next], hr.apart⟩

/-- A range is applied, unless a bound is above the limit. -/
theorem repeated_spec (o : Occurs) (hl : s.table.Apart ((i, e) :: l)) :
    Ensures (repeated limits i o) s (Makes l 0 (e.repeated o) s)
      (Failure.HasKind · .limitExceeded) := by
  obtain ⟨min, max⟩ := o
  dsimp only [repeated]
  split
  · exact ensures_pure ⟨.refl _, rfl, hl⟩
  · exact ensures_one hl .optional rfl
  · exact ensures_one hl .zeroOrMore rfl
  · exact ensures_one hl .oneOrMore rfl
  · rename_i h₁ h₂ h₃ h₄
    refine ensures_bind (ensures_require (fun _ => ?_) fun excess _ => ⟨.limit excess, rfl, rfl⟩)
    rw [ExpressionTree.repeated_eq_expanded h₁ h₂ h₃ h₄]
    exact expand_spec hl

/-! ## Particles -/

end Lowering

namespace Particle

mutual
/-- The particle is an all-group or has one inside. -/
def containsAll : Particle → Bool
  | .leaf _ _ => false
  | .group c ms _ => c == .all || anyContainsAll ms

/-- One of the particles is an all-group or has one inside. -/
def anyContainsAll : List Particle → Bool
  | [] => false
  | p :: ps => p.containsAll || anyContainsAll ps
end

end Particle

namespace Lowering

/-- Why lowering fails, where `all` says whether there is an all-group. -/
def Rejects (all : Bool) (f : Failure) : Prop :=
  f.HasKind .invalidOccurs ∨ f.HasKind .limitExceeded ∨
    (all = true ∧ f.HasKind .misplacedAllGroup)

theorem Rejects.mono {a b : Bool} {f : Failure} (h : a = true → b = true) :
    Rejects a f → Rejects b f :=
  Or.imp_right (Or.imp_right (And.imp_left h))

theorem rejects_occurs (all : Bool) (fault : Occurs.Fault) :
    Rejects all (.ofCause (.occurs fault)) := .inl ⟨_, rfl, rfl⟩

mutual
/-- **Lowering a particle makes the tree of the particle.** -/
theorem particle_spec (limits : Limits) : ∀ (p : Particle) {s l}, s.table.Apart l →
    Ensures (particle limits p) s
      (fun i s' => p.Lowerable ∧
        Makes l p.leafCount ((p.tree s.nextParticle).map Source.position) s i s')
      (Rejects p.containsAll)
  | .leaf leaf o, s, l, hl => by
    unfold particle Particle.leafCount Particle.tree
    refine ensures_bind (ensures_require (fun ho => ?_) fun fault _ => rejects_occurs _ fault)
    split
    · exact (ensures_makes hl.push_empty).mono (fun _ _ h => ⟨ho, h⟩) fun _ => id
    · refine ensures_bind (ensures_fresh (ensures_bind (ensures_add ?_)))
      have ha := hl.push_leaf ⟨leaf, s.nextParticle⟩
      refine (repeated_spec o ha).mono (fun i s' h => ⟨ho, ?_⟩) fun _ h => .inr (.inl h)
      rw [ExpressionTree.map_repeated]
      exact ⟨(ExpressionTable.grows_push _ _).trans h.grows, h.next, h.apart⟩
  | .group c ms o, s, l, hl => by
    unfold particle Particle.leafCount Particle.tree
    refine ensures_bind (ensures_require (fun ho => ?_) fun fault _ => rejects_occurs _ fault)
    split
    · rename_i he
      refine (ensures_makes hl.push_empty).mono (fun _ _ h => ⟨⟨ho, fun h' => ?_⟩, h⟩) fun _ => id
      exact absurd (he.symm.trans h') Bool.noConfusion
    · split
      · rename_i hc
        refine ensures_throw (.inr (.inr ⟨?_, _, rfl, rfl⟩))
        simp [Particle.containsAll, hc]
      · rename_i hc
        refine ensures_bind ((particles_spec limits ms (k := 0) hl).mono (fun is s₁ his => ?_)
          fun _ => Rejects.mono fun h => by simp [Particle.containsAll, h])
        obtain ⟨hms, hs₁, hn₁, vs, rfl, hvs, ha⟩ := his
        refine ensures_bind ((combine_spec c ha).mono (fun j s₂ hj => ?_) fun _ => id)
        rw [hvs] at hj
        refine (repeated_spec o hj.apart).mono (fun i s' h => ?_) fun _ h => .inr (.inl h)
        refine ⟨⟨ho, fun _ => ⟨hc, hms⟩⟩, hs₁.trans (hj.grows.trans h.grows), ?_, ?_⟩
        · rw [h.next, hj.next, hn₁, Nat.add_zero]
        · rw [ExpressionTree.map_repeated, ExpressionTree.map_combined]
          exact h.apart

theorem particles_spec (limits : Limits) : ∀ (ps : List Particle) {k s l}, s.table.Apart l →
    Ensures (particles limits ps) s
      (fun is s' => Particle.LowerableAll ps ∧
        MakesAll l (Particle.leafCounts ps)
          ((Particle.trees k s.nextParticle ps).map (.map Source.position)) s is s')
      (Rejects (Particle.anyContainsAll ps))
  | [], k, s, l, hl => ensures_pure ⟨trivial, makesAll_nil hl⟩
  | p :: ps, k, s, l, hl => by
    unfold particles
    refine ensures_bind ((particle_spec limits p hl).mono (fun i s₁ hi => ?_)
      fun _ => Rejects.mono fun h => by simp [Particle.anyContainsAll, h])
    obtain ⟨hp, hi⟩ := hi
    refine ensures_bind ((particles_spec limits ps (k := k + 1) hi.apart).mono
      (fun is s₂ his => ?_) fun _ => Rejects.mono fun h => by simp [Particle.anyContainsAll, h])
    obtain ⟨hps, his⟩ := his
    refine ensures_pure ⟨⟨hp, hps⟩, ?_⟩
    have := hi.cons his
    rw [hi.next] at this
    simpa [Particle.trees, Particle.leafCounts, Source.position_under] using this
end

end Lowering

end MarkupGrammar
