import MarkupGrammar.Proofs.Expression.Unfolding
import MarkupGrammar.Proofs.Lowering.Behind

/-! # Forests of nodes

Lowering never uses a node twice, so the nodes of a table are a forest. The nodes that are no parts
yet are *loose*. A step takes loose nodes as the parts of a new one, which is loose then in their
place (`ExpressionTable.Loose.push`), or makes a new node without parts. Where a range is expanded,
the expression itself is used for one repetition, and all others are copies (`Planted.expand`).

A call that fails leaves its loose nodes in the table. So `Ends` says what holds of the state after
a step in both cases, and `particle_plants` follows a particle with it: the nodes are a forest
wherever it fails, and the leaves have got numbers in document order up to there. -/

namespace MarkupGrammar

namespace ExpressionTable

variable {t : ExpressionTable} {e : Expression} {i : Nat}

/-- The parts of all nodes, in the order of the nodes. -/
def allParts (t : ExpressionTable) : List Nat := t.nodes.toList.flatMap Expression.parts

theorem allParts_push (t : ExpressionTable) (e : Expression) :
    (t.push e).allParts = t.allParts ++ e.parts := by
  simp [allParts, push]

theorem mem_allParts : i ∈ t.allParts ↔ ∃ j e, t.get j = .ok e ∧ i ∈ e.parts := by
  simp only [allParts, List.mem_flatMap, Array.mem_toList_iff, Array.mem_iff_getElem?, get_eq_ok]
  exact ⟨fun ⟨e, ⟨j, hj⟩, hi⟩ => ⟨j, e, hj, hi⟩, fun ⟨j, e, hj, hi⟩ => ⟨e, ⟨j, hj⟩, hi⟩⟩

theorem Ordered.lt_size (h : t.Ordered) (hi : i ∈ t.allParts) : i < t.size := by
  obtain ⟨j, e, hj, hi⟩ := mem_allParts.mp hi
  exact (h j e hj i hi).trans (lt_size_of_get hj)

theorem get_push_cases {x : Expression} (h : (t.push e).get i = .ok x) :
    t.get i = .ok x ∨ i = t.size ∧ x = e := by
  rw [get_eq_ok] at h
  unfold push at h
  rw [Array.getElem?_push] at h
  split at h
  · rename_i hi
    exact .inr ⟨hi, (Option.some.inj h).symm⟩
  · exact .inl (get_eq_ok.mpr h)

/-! ## Loose nodes -/

/-- Parts precede their nodes and no node is a part twice; the nodes `l` are no parts yet. -/
structure Loose (t : ExpressionTable) (l : List Nat) : Prop where
  ordered : t.Ordered
  nodup : (l ++ t.allParts).Nodup
  lt_size : ∀ i ∈ l, i < t.size

variable {l l' : List Nat}

theorem loose_empty : ({} : ExpressionTable).Loose [] :=
  ⟨.empty, List.nodup_nil, fun _ h => nomatch h⟩

theorem Loose.perm (h : t.Loose l) (hl : l.Perm l') : t.Loose l' where
  ordered := h.ordered
  nodup := (hl.append_right _).nodup_iff.mp h.nodup
  lt_size i hi := h.lt_size i (hl.mem_iff.mpr hi)

theorem Loose.sublist (h : t.Loose l) (hl : l'.Sublist l) : t.Loose l' where
  ordered := h.ordered
  nodup := (hl.append_right _).nodup h.nodup
  lt_size i hi := h.lt_size i (hl.subset hi)

/-- A node of loose nodes is itself loose, and they are no longer. -/
theorem Loose.push (h : t.Loose (e.parts ++ l)) : (t.push e).Loose (t.size :: l) where
  ordered := h.ordered.push fun a ha => h.lt_size a (List.mem_append_left _ ha)
  nodup := by
    have hfresh : t.size ∉ (e.parts ++ l) ++ t.allParts := fun hmem => by
      rcases List.mem_append.mp hmem with hmem | hmem
      · exact Nat.lt_irrefl _ (h.lt_size _ hmem)
      · exact Nat.lt_irrefl _ (h.ordered.lt_size hmem)
    have hperm : ((e.parts ++ l) ++ t.allParts).Perm (l ++ (t.allParts ++ e.parts)) := by
      rw [List.append_assoc]
      exact List.perm_append_comm.trans (List.append_assoc _ _ _ ▸ .refl _)
    rw [allParts_push]
    exact List.nodup_cons.mpr ⟨fun hm => hfresh (hperm.mem_iff.mpr hm), hperm.nodup_iff.mp h.nodup⟩
  lt_size := by
    rw [size_push]
    refine List.forall_mem_cons.mpr ⟨Nat.lt_succ_self _, fun i hi => ?_⟩
    exact (h.lt_size i (List.mem_append_right _ hi)).trans (Nat.lt_succ_self _)

theorem Loose.parts_nodup (h : t.Loose l) (hi : t.get i = .ok e) : e.parts.Nodup := by
  have hparts := (List.nodup_flatMap.mp (List.nodup_append'.mp h.nodup).2.1).1
  exact hparts e (Array.mem_toList_iff.mpr (Array.mem_of_getElem? (get_eq_ok.mp hi)))

/-- No node is a part of an earlier and of a later node. -/
theorem Loose.not_hasPart (h : t.Loose l) {a b : Nat} (hab : a < b) (ha : t.HasPart a i) :
    ¬ t.HasPart b i := by
  rintro ⟨y, hy, hiy⟩
  obtain ⟨x, hx, hix⟩ := ha
  have hpairs := (List.nodup_flatMap.mp (List.nodup_append'.mp h.nodup).2.1).2
  rw [get_eq_ok, Array.getElem?_eq_some_iff] at hx hy
  obtain ⟨ha, rfl⟩ := hx
  obtain ⟨hb, rfl⟩ := hy
  have hdisjoint := List.pairwise_iff_getElem.mp hpairs a b ha hb hab
  exact hdisjoint hix hiy

theorem Loose.parent_unique (h : t.Loose l) {a b : Nat} (ha : t.HasPart a i)
    (hb : t.HasPart b i) : a = b := by
  rcases Nat.lt_trichotomy a b with hlt | heq | hlt
  · exact absurd hb (h.not_hasPart hlt ha)
  · exact heq
  · exact absurd ha (h.not_hasPart hlt hb)

/-! ## Tables that end earlier -/

variable {u : ExpressionTable}

theorem grows_of_isPrefix (h : t.nodes.toList <+: u.nodes.toList) : t.Grows u where
  size_le := h.length_le
  get hi := by
    obtain ⟨rest, hrest⟩ := h
    rw [get_eq_ok, ← Array.getElem?_toList] at hi ⊢
    rw [← hrest, List.getElem?_append_left (List.getElem?_eq_some_iff.mp hi).1, hi]

theorem Loose.of_isPrefix (h : u.Loose []) (ht : t.nodes.toList <+: u.nodes.toList) :
    t.Loose [] where
  ordered i e hi := h.ordered i e ((grows_of_isPrefix ht).get hi)
  nodup := by
    obtain ⟨rest, hrest⟩ := ht
    have hparts : u.allParts = t.allParts ++ rest.flatMap Expression.parts := by
      rw [allParts, ← hrest, List.flatMap_append, allParts]
    exact (List.nodup_append'.mp (hparts ▸ h.nodup)).1
  lt_size _ hi := nomatch hi

end ExpressionTable

namespace Lowering

/-! ## States of a call -/

/-- A call from `b` has come to the state `s`, in which the nodes `l` are loose. Each leaf has the
number of one of `terms`, and those that the call has numbered are there. -/
structure Planted (b : Lowering) (terms : List Leaf) (l : List Nat) (s : Lowering) : Prop where
  grows : b.table.Grows s.table
  loose : s.table.Loose l
  next : s.nextParticle = terms.length
  numbered {i k : Nat} {x : Leaf} : s.table.get i = .ok (.leaf x k) → terms[k]? = some x
  named {k : Nat} {x : Leaf} : b.nextParticle ≤ k → terms[k]? = some x →
    ∃ i, s.table.get i = .ok (.leaf x k)

variable {α β : Type} {b : Lowering} {terms : List Leaf} {l l' is : List Nat} {s s' : Lowering}
  {i j n : Nat} {e : Expression}

theorem Planted.perm (h : Planted b terms l s) (hl : l.Perm l') : Planted b terms l' s :=
  { h with loose := h.loose.perm hl }

theorem Planted.sublist (h : Planted b terms l s) (hl : l'.Sublist l) : Planted b terms l' s :=
  { h with loose := h.loose.sublist hl }

theorem Planted.nil (h : Planted b terms l s) : Planted b terms [] s :=
  h.sublist (List.nil_sublist l)

theorem Planted.push (h : Planted b terms (e.parts ++ l) s)
    (he : ∀ {x k}, e = .leaf x k → terms[k]? = some x) :
    Planted b terms (s.table.size :: l) { s with table := s.table.push e } where
  grows := h.grows.trans (ExpressionTable.grows_push _ _)
  loose := h.loose.push
  next := h.next
  numbered hi := by
    rcases ExpressionTable.get_push_cases hi with hi | ⟨-, rfl⟩
    · exact h.numbered hi
    · exact he rfl
  named hk hx := by
    obtain ⟨i, hi⟩ := h.named hk hx
    exact ⟨i, (ExpressionTable.grows_push _ _).get hi⟩

/-- A leaf gets the next number. -/
theorem Planted.pushLeaf (h : Planted b terms l s) (x : Leaf) :
    Planted b (terms ++ [x]) (s.table.size :: l)
      ⟨s.table.push (.leaf x s.nextParticle), s.nextParticle + 1⟩ where
  grows := h.grows.trans (ExpressionTable.grows_push _ _)
  loose := h.loose.push (e := .leaf x s.nextParticle)
  next := by
    rw [List.length_append, h.next]
    rfl
  numbered hi := by
    rcases ExpressionTable.get_push_cases hi with hi | ⟨-, heq⟩
    · have hk := h.numbered hi
      rwa [List.getElem?_append_left (List.getElem?_eq_some_iff.mp hk).1]
    · obtain ⟨rfl, rfl⟩ := Expression.leaf.inj heq
      rw [h.next, List.getElem?_concat_length]
  named {k y} hk hy := by
    rcases Nat.lt_or_ge k terms.length with hlt | hge
    · rw [List.getElem?_append_left hlt] at hy
      obtain ⟨i, hi⟩ := h.named hk hy
      exact ⟨i, (ExpressionTable.grows_push _ _).get hi⟩
    · rw [List.getElem?_append_right hge] at hy
      have hlast : k - terms.length = 0 :=
        Nat.lt_one_iff.mp (List.getElem?_eq_some_iff.mp hy).1
      rw [hlast] at hy
      obtain rfl := Option.some.inj hy
      obtain rfl : k = s.nextParticle := by rw [h.next]; omega
      exact ⟨s.table.size, ExpressionTable.get_push_size _ _⟩

/-! ## Steps -/

section Steps

variable {ok ok' : α → Lowering → Prop} {err err' : Lowering → Prop}

/-- What holds of the result and of the state after it, and what holds of the state after a
failure. -/
def Ends (x : LoweringM α) (s : Lowering) (ok : α → Lowering → Prop) (err : Lowering → Prop) :
    Prop :=
  match x.run.run s with
  | (.ok a, s') => ok a s'
  | (.error _, s') => err s'

theorem ends_pure {a : α} (h : ok a s) : Ends (pure a) s ok err := h

theorem ends_throw {f : Failure} (h : err s) : Ends (throw f : LoweringM α) s ok err := h

theorem ends_bind {x : LoweringM β} {k : β → LoweringM α}
    (h : Ends x s (fun b s' => Ends (k b) s' ok err) err) : Ends (x >>= k) s ok err := by
  unfold Ends at h ⊢
  rw [run_bind]
  rcases hx : x.run.run s with ⟨f | b, s'⟩ <;> rw [hx] at h <;> exact h

theorem Ends.mono {x : LoweringM α} (h : Ends x s ok err) (hok : ∀ a s', ok a s' → ok' a s')
    (herr : ∀ s', err s' → err' s') : Ends x s ok' err' := by
  unfold Ends at h ⊢
  split
  · rename_i hx
    rw [hx] at h
    exact hok _ _ h
  · rename_i hx
    rw [hx] at h
    exact herr _ h

/-- A step that is followed by another one. -/
theorem Ends.bind {ok₁ : β → Lowering → Prop} {x : LoweringM β} {k : β → LoweringM α}
    (h : Ends x s ok₁ err) (hk : ∀ b s', ok₁ b s' → Ends (k b) s' ok err) :
    Ends (x >>= k) s ok err :=
  ends_bind (h.mono hk fun _ => id)

theorem ends_require {ε : Type} (cause : ε → Fault.Cause) (r : Except ε Unit)
    {ok : Unit → Lowering → Prop} (hok : ok () s) (herr : err s) :
    Ends (require cause r) s ok err := by
  cases r with
  | ok u => exact hok
  | error e => exact herr

theorem ends_get {ok : Lowering → Lowering → Prop} (h : ok s s) :
    Ends (get : LoweringM Lowering) s ok err := h

theorem ends_node {ok : Expression → Lowering → Prop} (hok : ∀ e, s.table.get i = .ok e → ok e s)
    (herr : err s) : Ends (node i) s ok err := by
  unfold node
  refine ends_bind (ends_get ?_)
  split
  · rename_i e he
    exact hok e he
  · exact herr

end Steps

/-- A step makes a node that is loose, and leaves the nodes of `l` so. -/
def Plants (b : Lowering) (terms : List Leaf) (l : List Nat) (s : Lowering)
    (x : LoweringM Nat) : Prop :=
  Ends x s (fun i => Planted b terms (i :: l)) (Planted b terms [])

theorem Planted.add (h : Planted b terms (e.parts ++ l) s)
    (he : ∀ {x k}, e = .leaf x k → terms[k]? = some x) : Plants b terms l s (add e) :=
  h.push he

theorem Planted.pure (h : Planted b terms (i :: l) s) : Plants b terms l s (Pure.pure i) := h

/-! ## Copies -/

/-- A node of one part that has just been made. -/
theorem Plants.one {x : LoweringM Nat} {f : Nat → Expression} (hx : Plants b terms l s x)
    (hf : ∀ a, (f a).parts = [a]) : Plants b terms l s (do Lowering.add (f (← x))) := by
  refine hx.bind fun a s₁ ha => ?_
  refine Planted.add (hf a ▸ ha) fun hleaf => ?_
  exact nomatch (hf a).symm.trans (congrArg Expression.parts hleaf)

/-- A node of two loose nodes. -/
theorem Planted.two {f : Nat → Nat → Expression} (h : Planted b terms (i :: j :: l) s)
    (hf : ∀ a b, (f a b).parts = [a, b]) : Plants b terms l s (Lowering.add (f i j)) := by
  refine Planted.add (hf i j ▸ h) fun hleaf => ?_
  exact nomatch (hf i j).symm.trans (congrArg Expression.parts hleaf)

/-- A node of two parts that are made one after the other. -/
theorem Plants.two {x y : LoweringM Nat} {f : Nat → Nat → Expression}
    (hx : Plants b terms l s x)
    (hy : ∀ {l s}, Planted b terms l s → Plants b terms l s y)
    (hf : ∀ a b, (f a b).parts = [a, b]) :
    Plants b terms l s (do let a ← x; let b ← y; Lowering.add (f a b)) := by
  refine hx.bind fun a s₁ ha => ?_
  refine (hy ha).bind fun b s₂ hb => ?_
  exact (hb.perm (.swap _ _ _)).two hf

/-- A copy is made of new nodes. The leaves in it have been numbered before. -/
theorem Planted.copyWithin (h : Planted b terms l s) {fuel : Nat} :
    Plants b terms l s (copyWithin fuel i) := by
  induction fuel generalizing i l s with
  | zero => exact ends_throw h.nil
  | succ fuel ih =>
    refine ends_bind (ends_node (fun e he => ?_) h.nil)
    cases e with
    | empty => exact Planted.add h fun hleaf => nomatch hleaf
    | leaf x k =>
      refine Planted.add h fun hleaf => ?_
      obtain ⟨rfl, rfl⟩ := Expression.leaf.inj hleaf
      exact h.numbered he
    | choice a b => exact Plants.two (f := .choice) (ih h) (fun h => ih h) fun _ _ => rfl
    | sequence a b => exact Plants.two (f := .sequence) (ih h) (fun h => ih h) fun _ _ => rfl
    | optional a => exact Plants.one (f := .optional) (ih h) fun _ => rfl
    | zeroOrMore a => exact Plants.one (f := .zeroOrMore) (ih h) fun _ => rfl
    | oneOrMore a => exact Plants.one (f := .oneOrMore) (ih h) fun _ => rfl

/-- A step makes several loose nodes. -/
def PlantsAll (b : Lowering) (terms : List Leaf) (l : List Nat) (s : Lowering)
    (x : LoweringM (List Nat)) : Prop :=
  Ends x s (fun is => Planted b terms (is ++ l)) (Planted b terms [])

theorem Planted.copies (h : Planted b terms l s) : PlantsAll b terms l s (copies i n) := by
  induction n generalizing l s with
  | zero => exact h
  | succ n ih =>
    refine h.copyWithin.bind fun c s₁ hc => ?_
    refine (ih hc).bind fun cs s₂ hcs => ?_
    exact ends_pure (hcs.perm List.perm_middle)

/-! ## Groups -/

theorem parts_node (c : Compositor) (a b : Nat) : (combine.node c a b).parts = [a, b] := by
  unfold combine.node
  split <;> rfl

theorem Planted.combine (h : Planted b terms (is ++ l) s) (c : Compositor) :
    Plants b terms l s (combine c is) := by
  cases is with
  | nil => exact Planted.add h fun hleaf => nomatch hleaf
  | cons i is =>
    change Plants b terms l s (is.foldlM (fun a b => Lowering.add (combine.node c a b)) i)
    induction is generalizing i s with
    | nil => exact h
    | cons j is ih =>
      rw [List.foldlM_cons]
      exact (h.two (f := combine.node c) (parts_node c)).bind fun a s₁ ha => ih a ha

/-! ## Occurrence ranges -/

theorem Planted.optionalAround (h : Planted b terms (j :: l) s) :
    Plants b terms l s (optionalAround i j n) := by
  induction n generalizing j s with
  | zero => exact h
  | succ n ih =>
    refine h.copyWithin.bind fun c s₁ hc => ?_
    refine (hc.two (f := .sequence) fun _ _ => rfl).bind fun a s₂ ha => ?_
    refine (Plants.one (f := .optional) ha.pure fun _ => rfl).bind fun b s₃ hb => ?_
    exact ih hb

/-- The expression that is repeated, if it is not among the required repetitions. -/
def spare (required i : Nat) : List Nat := if required = 0 then [i] else []

variable {required : Nat}

theorem Planted.firsts (h : Planted b terms (i :: l) s) :
    PlantsAll b terms (spare required i ++ l) s (firsts required i) := by
  unfold Lowering.firsts spare
  split
  · exact h
  · rw [map_eq_pure_bind]
    refine (h.copies (i := i)).bind fun cs s₁ hcs => ?_
    exact ends_pure (hcs.perm List.perm_middle)

theorem Planted.last (h : Planted b terms (spare required i ++ l) s) :
    Plants b terms l s (last required i) := by
  unfold spare at h
  unfold Lowering.last
  split
  · rename_i h0
    rw [if_pos h0] at h
    exact h.pure
  · rename_i h0
    rw [if_neg h0] at h
    exact h.copyWithin

theorem Planted.optionalRest (h : Planted b terms (spare required i ++ l) s) (min : Nat)
    (max : Option Nat) : PlantsAll b terms l s
      (optionalRest (Lowering.last required i) i min max) := by
  cases max with
  | none =>
    refine h.last.bind fun a s₁ ha => ?_
    refine (Plants.one (f := .oneOrMore) ha.pure fun _ => rfl).bind fun b s₂ hb => ?_
    exact ends_pure (a := [b]) hb
  | some max =>
    unfold Lowering.optionalRest
    dsimp only
    split
    · refine h.last.bind fun a s₁ ha => ?_
      refine (Plants.one (f := .optional) ha.pure fun _ => rfl).bind fun b s₂ hb => ?_
      exact hb.optionalAround.bind fun c s₃ hc => ends_pure (a := [c]) hc
    · exact ends_pure (h.sublist (List.sublist_append_right _ _))

/-- The expression itself is used once: as the first repetition, or as the last one if there is no
other. All other repetitions are copies. -/
theorem Planted.expand (h : Planted b terms (i :: l) s) (min : Nat) (max : Option Nat) :
    Plants b terms l s (expand i min max) := by
  rw [expand_eq]
  refine h.firsts.bind fun fs s₁ hfs => ?_
  have hfs' : Planted b terms (spare (ExpressionTree.required min max) i ++ (fs ++ l)) s₁ := by
    refine hfs.perm ?_
    rw [← List.append_assoc, ← List.append_assoc]
    exact List.perm_append_comm.append_right l
  refine (hfs'.optionalRest min max).bind fun rs s₂ hrs => ?_
  refine Planted.combine (hrs.perm ?_) .sequence
  rw [← List.append_assoc]
  exact List.perm_append_comm.append_right l

theorem Planted.repeated (h : Planted b terms (i :: l) s) (limits : Limits) (o : Occurs) :
    Plants b terms l s (repeated limits i o) := by
  obtain ⟨min, max⟩ := o
  dsimp only [Lowering.repeated]
  split
  · exact h.pure
  · exact Plants.one (f := .optional) h.pure fun _ => rfl
  · exact Plants.one (f := .zeroOrMore) h.pure fun _ => rfl
  · exact Plants.one (f := .oneOrMore) h.pure fun _ => rfl
  · exact ends_bind (ends_require _ _ (h.expand _ _) h.nil)

end Lowering

/-! ## Particles -/

namespace Particle

mutual
/-- The leaves that are not prohibited, in document order. -/
def openLeaves : Particle → List Leaf
  | .leaf l o => if o.isEmpty then [] else [l]
  | .group _ ms o => if o.isEmpty then [] else openLeavesAll ms

/-- The same for several particles. -/
def openLeavesAll : List Particle → List Leaf
  | [] => []
  | p :: ps => p.openLeaves ++ openLeavesAll ps
end

end Particle

namespace Lowering

variable {b s : Lowering} {terms xs : List Leaf} {l : List Nat} {limits : Limits}

/-- The state after a failure, where the first of the leaves `xs` have been numbered. -/
def LeftOff (b : Lowering) (terms xs : List Leaf) (s : Lowering) : Prop :=
  ∃ given, given <+: xs ∧ Planted b (terms ++ given) [] s

theorem Planted.leftOff {given : List Leaf} (h : Planted b (terms ++ given) [] s)
    (hg : given <+: xs) : LeftOff b terms xs s := ⟨given, hg, h⟩

theorem Planted.leftOff_nil (h : Planted b terms l s) : LeftOff b terms xs s :=
  ⟨[], List.nil_prefix, (List.append_nil terms).symm ▸ h.nil⟩

mutual
/-- **Lowering a particle makes a loose node and numbers its leaves in document order.** If it
fails, no node is a part twice either, and the first leaves have been numbered. -/
theorem particle_plants (limits : Limits) : ∀ (p : Particle) {terms l s}, Planted b terms l s →
    Ends (particle limits p) s (fun i => Planted b (terms ++ p.openLeaves) (i :: l))
      (LeftOff b terms p.openLeaves)
  | .leaf x o, terms, l, s, h => by
    unfold particle Particle.openLeaves
    refine ends_bind (ends_require _ _ ?_ h.leftOff_nil)
    split
    · rw [List.append_nil]
      exact (Planted.add (e := .empty) h fun hleaf => nomatch hleaf).mono (fun _ _ => id)
        fun _ h => h.leftOff_nil
    · have hleaf : Plants b (terms ++ [x]) l s (do Lowering.add (.leaf x (← freshParticle))) :=
        h.pushLeaf x
      refine Ends.mono ?_ (fun _ _ => id) fun _ hs => Planted.leftOff hs (List.prefix_refl _)
      exact hleaf.bind fun i s₁ hi => hi.repeated limits o
  | .group c ms o, terms, l, s, h => by
    unfold particle Particle.openLeaves
    refine ends_bind (ends_require _ _ ?_ h.leftOff_nil)
    split
    · rw [List.append_nil]
      exact (Planted.add (e := .empty) h fun hleaf => nomatch hleaf).mono (fun _ _ => id)
        fun _ h => h.leftOff_nil
    · split
      · exact ends_throw h.leftOff_nil
      · refine (particles_plants limits ms h).bind fun is s₁ his => ?_
        refine Ends.mono ?_ (fun _ _ => id) fun _ hs => Planted.leftOff hs (List.prefix_refl _)
        exact (his.combine c).bind fun i s₂ hi => hi.repeated limits o

theorem particles_plants (limits : Limits) : ∀ (ps : List Particle) {terms l s},
    Planted b terms l s → Ends (particles limits ps) s
      (fun is => Planted b (terms ++ Particle.openLeavesAll ps) (is ++ l))
      (LeftOff b terms (Particle.openLeavesAll ps))
  | [], terms, l, s, h => ends_pure ((List.append_nil terms).symm ▸ h)
  | p :: ps, terms, l, s, h => by
    unfold particles Particle.openLeavesAll
    refine ((particle_plants limits p h).mono (fun _ _ => id) fun s₁ hs => ?_).bind
      fun i s₁ hi => ?_
    · obtain ⟨given, hg, hs⟩ := hs
      exact hs.leftOff (hg.trans (List.prefix_append _ _))
    · refine ((particles_plants limits ps hi).mono (fun _ _ => id) fun s₂ hs => ?_).bind
        fun is s₂ his => ?_
      · obtain ⟨given, hg, hs⟩ := hs
        rw [List.append_assoc] at hs
        exact hs.leftOff (List.prefix_append_right_inj _ |>.mpr hg)
      · rw [List.append_assoc] at his
        exact ends_pure (his.perm List.perm_middle)
end

end Lowering

end MarkupGrammar
