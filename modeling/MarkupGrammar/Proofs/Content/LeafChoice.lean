import MarkupGrammar.Proofs.Compilation
import MarkupGrammar.Proofs.Wildcard

/-! # Choices of leaves

The choice of leaves of which no two overlap compiles to an automaton, whatever the comparator, if
the table has room for its nodes and two states are allowed (`compiled_choiceOf`). The tree of the
choice has no position that follows another one, so all moves lead to the set of the end mark. The
wildcards of a namespace attribute are such leaves (`ofAttribute_exact`). -/

namespace MarkupGrammar

/-! ## Alternatives -/

namespace ExpressionTree

variable {ι κ : Type} {e : ExpressionTree ι} {x y : ι}

/-- The tree is a choice of leaves. -/
inductive IsAlternatives : ExpressionTree ι → Prop
  | leaf (x : ι) : IsAlternatives (.leaf x)
  | choice {a b : ExpressionTree ι} (ha : IsAlternatives a) (hb : IsAlternatives b) :
    IsAlternatives (.choice a b)

theorem IsAlternatives.not_follows (h : e.IsAlternatives) : ¬ e.Follows x y := by
  induction h with
  | leaf => exact id
  | choice _ _ iha ihb => exact not_or.mpr ⟨iha, ihb⟩

theorem IsAlternatives.isLast (h : e.IsAlternatives) (hx : x ∈ e.leaves) : e.IsLast x := by
  induction h with
  | leaf y => exact List.mem_singleton.mp hx
  | choice _ _ iha ihb => exact (List.mem_append.mp hx).imp iha ihb

theorem IsAlternatives.map (h : e.IsAlternatives) (f : ι → κ) : (e.map f).IsAlternatives := by
  induction h with
  | leaf y => exact .leaf (f y)
  | choice _ _ iha ihb => exact .choice iha ihb

theorem IsAlternatives.numbered (h : e.IsAlternatives) (b : Nat) :
    (e.numbered b).IsAlternatives := by
  induction h generalizing b with
  | leaf y => exact .leaf b
  | choice _ _ iha ihb => exact .choice (iha b) (ihb _)

theorem isAlternatives_combined {es : List (ExpressionTree ι)} (hne : es ≠ [])
    (h : ∀ e ∈ es, e.IsAlternatives) : (combined .choice es).IsAlternatives := by
  obtain ⟨first, rest, rfl⟩ := List.exists_cons_of_ne_nil hne
  unfold combined
  induction rest generalizing first with
  | nil => exact h first List.mem_cons_self
  | cons e rest ih =>
    obtain ⟨hfirst, he, hrest⟩ : first.IsAlternatives ∧ e.IsAlternatives ∧
        ∀ e ∈ rest, e.IsAlternatives := by simpa using h
    exact ih (join .choice first e) (by simp)
      (List.forall_mem_cons.mpr ⟨.choice hfirst he, hrest⟩)

end ExpressionTree

/-! ## Moves to the end mark -/

namespace NumberSet

variable {p : Nat} {s t : NumberSet}

/-- The set has no other member than one number, and is written in one way. -/
def AtMost (p : Nat) (s : NumberSet) : Prop := s = .empty ∨ s = .single p

theorem eq_empty_of_toList (h : s.toList = []) : s = .empty := by
  obtain ⟨runs⟩ := s
  cases runs with
  | nil => rfl
  | cons r runs =>
    have hstart : r.start ∈ r.toList := Run.mem_toList.mpr ⟨le_rfl, Nat.le_add_right _ _⟩
    have hr : r.start ∈ (⟨r :: runs⟩ : NumberSet).toList :=
      List.mem_flatMap.mpr ⟨r, List.mem_cons_self, hstart⟩
    rw [h] at hr
    exact absurd hr List.not_mem_nil

theorem AtMost.eq_single (h : AtMost p s) (hp : p ∈ s.toList) : s = .single p := by
  rcases h with rfl | h
  · exact absurd hp List.not_mem_nil
  · exact h

theorem single_union_single (p : Nat) : (single p).union (single p) = single p := by
  simp [union, single, mergeRuns, addRun, Run.join?]

theorem AtMost.union (hs : AtMost p s) (ht : AtMost p t) : AtMost p (s.union t) := by
  rcases hs with rfl | rfl
  · rwa [show empty.union t = t by simp [NumberSet.union, empty, mergeRuns]]
  · rcases ht with rfl | rfl
    · exact .inr (by simp [NumberSet.union, empty, single, mergeRuns])
    · exact .inr (single_union_single p)

theorem AtMost.foldl_union {α : Type} {g : α → NumberSet} (hg : ∀ x, AtMost p (g x)) (xs : List α)
    (hs : AtMost p s) : AtMost p (xs.foldl (fun t x => t.union (g x)) s) := by
  induction xs generalizing s with
  | nil => exact hs
  | cons x xs ih => exact ih (hs.union (hg x))

end NumberSet

namespace Construction

open NumberSet

variable {c : Option Comparator} {limits : Limits} {e : ExpressionTree Position} {f : Facts}
  {s : Survey} {k : Setup} {set : NumberSet} {x : Nat × NumberSet}

/-- The set that follows each position has no other member than the end mark. -/
def EndsAll (endMark : Nat) (follow : Array NumberSet) : Prop :=
  ∀ p : Nat, AtMost endMark (follow[p]?.getD .empty)

theorem EndsAll.foldl_modify {endMark : Nat} {follow : Array NumberSet} (ps : List Nat)
    (h : EndsAll endMark follow) : EndsAll endMark
      (ps.foldl (fun follow p => follow.modify p (·.union (.single endMark))) follow) := by
  induction ps generalizing follow with
  | nil => exact h
  | cons q ps ih =>
    refine ih fun p => ?_
    rw [Array.getElem?_modify]
    split
    · have hp := h p
      cases hf : follow[p]? with
      | none => exact .inl rfl
      | some t =>
        rw [hf] at hp
        exact hp.union (.inr rfl)
    · exact h p

theorem endsAll_setup (hs : Survey.Extends e {} s) (he : ∀ p q, ¬ (e.numbered 0).Follows p q) :
    EndsAll (setup f s).1.endMark (setup f s).1.follow := by
  refine EndsAll.foldl_modify _ fun p => .inl (eq_empty_of_toList ?_)
  refine List.eq_nil_iff_forall_not_mem.mpr fun q hq => ?_
  rcases (hs.follow p q).mp hq with h | h
  · simp [succs] at h
  · exact he p q h

theorem moves_eq_nil (h : members k set = []) : moves k set = [] := by
  simp [moves, h, NumberSet.empty, toList]

/-- Every move of positions in a choice leads to the end mark. -/
theorem move_eq_single (hk : Models k e) (he : e.IsAlternatives) (hf : EndsAll k.endMark k.follow)
    (hset : ∀ p ∈ members k set, p < e.leaves.length) (hx : x ∈ moves k set) :
    x.2 = .single k.endMark := by
  have hmost : AtMost k.endMark x.2 := by
    simp only [moves, List.mem_map] at hx
    obtain ⟨sym, -, rfl⟩ := hx
    exact AtMost.foldl_union hf _ (.inl rfl)
  refine hmost.eq_single ?_
  obtain ⟨p, hp, hsym⟩ := mem_moves_fst.mp (List.mem_map_of_mem hx)
  have hlt := hset p hp
  rw [mem_move hx]
  refine ⟨p, hp, hsym, (hk.follow p _ hlt).mpr (.inr ⟨hk.endMark, ?_⟩)⟩
  exact (he.numbered 0).isLast (ExpressionTree.mem_leaves_numbered.mpr hlt)

/-- The set of the end mark has no moves. -/
theorem moves_single : moves k (.single k.endMark) = [] := moves_eq_nil (by simp [members])

/-- No leaves of different particles overlap. -/
def LeavesApart (c : Option Comparator) (e : ExpressionTree Position) : Prop :=
  ∀ x ∈ e.leaves, ∀ y ∈ e.leaves, x.particle ≠ y.particle → x.leaf.overlaps c y.leaf = false

theorem LeavesApart.overlapIn (h : LeavesApart c e) (hk : Models k e) (set : NumberSet) :
    overlapIn c k set = none :=
  (overlapIn_eq_none hk).mpr fun _ _ _ _ x hx y hy =>
    h x (List.mem_of_getElem? hx) y (List.mem_of_getElem? hy)

variable {start : NumberSet}

/-- The construction for a choice finds two sets. -/
theorem explore_alternatives {fuel : Nat} (hk : Models k e) (he : e.IsAlternatives)
    (hf : EndsAll k.endMark k.follow) (hstart : ∀ p ∈ members k start, p < e.leaves.length)
    (hapart : LeavesApart c e) (hlim : 2 ≤ limits.maxStates) :
    ∃ states, explore c limits k fuel #[start] #[] = .ok states := by
  have hle : [start, .single k.endMark].length ≤ max 1 limits.maxStates := le_max_of_le_right hlim
  refine explore_ok hle (fun set hset => ?_) (among_first List.mem_cons_self)
  refine ⟨hapart.overlapIn hk set, fun x hx => ?_⟩
  rcases List.mem_pair.mp hset with rfl | rfl
  · exact List.mem_pair.mpr (.inr (move_eq_single hk he hf hstart hx))
  · rw [moves_single] at hx
    exact absurd hx List.not_mem_nil

/-- The construction for a tree without leaves finds one set. -/
theorem explore_empty {fuel : Nat} (hk : Models k .empty)
    (hstart : ∀ p ∈ members k start, p < 0) :
    ∃ states, explore c limits k fuel #[start] #[] = .ok states := by
  have hle : [start].length ≤ max 1 limits.maxStates := le_max_left _ _
  refine explore_ok hle (fun set hset => ?_) (among_first List.mem_cons_self)
  obtain rfl := List.mem_singleton.mp hset
  have hnil : members k set = [] :=
    List.eq_nil_iff_forall_not_mem.mpr fun p hp => absurd (hstart p hp) (Nat.not_lt_zero p)
  have hapart : LeavesApart c .empty := fun x hx => absurd hx List.not_mem_nil
  refine ⟨hapart.overlapIn hk set, fun x hx => ?_⟩
  rw [moves_eq_nil hnil] at hx
  exact absurd hx List.not_mem_nil

end Construction

section

open Construction

variable {c : Option Comparator} {limits : Limits} {e : ExpressionTree Position}

/-- The automaton of a choice of leaves, or of a tree without leaves. -/
theorem automaton_ok_of_apart {t : ExpressionTable} {i : Nat} {ns : List Nat} (h : t.Holds i e ns)
    (hn : ns.Nodup) (hapart : LeavesApart c e)
    (hlim : e = .empty ∨ (e.IsAlternatives ∧ 2 ≤ limits.maxStates)) :
    ∃ a, t.automaton c limits i = .ok a := by
  obtain ⟨f, s, hrun, hext, hdesc⟩ := Survey.run_tree h hn
  have hk := models_setup hext hdesc
  have hsound : Sound (Leaf.fits c) e [] (setup f s).2 := (exact_start hext hdesc).sound
  have hstart : ∀ p ∈ members (setup f s).1 (setup f s).2, p < e.leaves.length :=
    fun p => lt_length_of_mem_members hk hsound
  have hok : ∃ states, explore c limits (setup f s).1 (limits.maxStates + 1) #[(setup f s).2] #[] =
      .ok states := by
    rcases hlim with rfl | ⟨he, hlim⟩
    · exact explore_empty hk hstart
    · have hends : EndsAll (setup f s).1.endMark (setup f s).1.follow :=
        endsAll_setup hext fun p q => (he.numbered 0).not_follows
      exact explore_alternatives hk he hends hstart hapart hlim
  obtain ⟨states, hstates⟩ := hok
  rw [automaton_eq_of_run c limits hrun, hstates]
  exact ⟨_, rfl⟩

end

/-! ## Lowering -/

/-- The choice of leaves. -/
def Particle.choiceOf (ls : List Leaf) : Particle := .group .choice (ls.map (.leaf · .once)) .once

/-- The nodes of a choice of `n` leaves: those of the leaves, and one to add each leaf but the
first one. -/
def choiceNodes (n : Nat) : Nat := max 1 (2 * n - 1)

namespace Lowering

variable {limits : Limits} {s : Lowering} {ls : List Leaf}

/-- A leaf that occurs once has one node. -/
theorem particle_leaf_once (limits : Limits) (l : Leaf) (s : Lowering) :
    Ensures (particle limits (.leaf l .once)) s
      (fun _ s' => s'.table.size = s.table.size + 1) (fun _ => False) := by
  unfold particle
  refine ensures_bind (ensures_require (fun _ => ?_) fun e h => nomatch h)
  rw [if_neg (by decide)]
  refine ensures_bind (ensures_fresh (ensures_bind (ensures_add ?_)))
  exact ensures_pure (ExpressionTable.size_push _ _)

theorem particles_leaves_once (limits : Limits) (ls : List Leaf) (s : Lowering) :
    Ensures (particles limits (ls.map (.leaf · .once))) s
      (fun is s' => is.length = ls.length ∧ s'.table.size = s.table.size + ls.length)
      (fun _ => False) := by
  induction ls generalizing s with
  | nil => exact ensures_pure ⟨rfl, rfl⟩
  | cons l ls ih =>
    rw [List.map_cons]
    unfold particles
    refine ensures_bind ((particle_leaf_once limits l s).mono (fun i s₁ h₁ => ?_) fun _ => id)
    refine ensures_bind ((ih s₁).mono (fun is s₂ h₂ => ensures_pure ⟨?_, ?_⟩) fun _ => id)
    · rw [List.length_cons, List.length_cons, h₂.1]
    · rw [h₂.2, h₁, List.length_cons]
      omega

/-- Putting members together takes one node for each but the first one, or one for none. -/
theorem combine_size (c : Compositor) (is : List Nat) (s : Lowering) :
    Ensures (combine c is) s
      (fun _ s' => s'.table.size + is.length = s.table.size + max 1 (2 * is.length - 1))
      (fun _ => False) := by
  cases is with
  | nil => exact ensures_add (ExpressionTable.size_push _ _)
  | cons i is =>
    have hfold : ∀ i s, Ensures (is.foldlM (fun a b => add (combine.node c a b)) i) s
        (fun _ s' => s'.table.size = s.table.size + is.length) (fun _ => False) := by
      intro i s
      induction is generalizing i s with
      | nil => exact ensures_pure rfl
      | cons j is ih =>
        rw [List.foldlM_cons]
        refine ensures_bind (ensures_add ((ih _ _).mono (fun _ s' h => ?_) fun _ => id))
        rw [h, ExpressionTable.size_push, List.length_cons]
        omega
    refine (hfold i s).mono (fun _ s' h => ?_) fun _ => id
    rw [h, List.length_cons]
    omega

theorem particle_choiceOf (limits : Limits) (ls : List Leaf) (s : Lowering) :
    Ensures (particle limits (.choiceOf ls)) s
      (fun _ s' => s'.table.size = s.table.size + choiceNodes ls.length) (fun _ => False) := by
  unfold Particle.choiceOf particle
  refine ensures_bind (ensures_require (fun _ => ?_) fun e h => nomatch h)
  rw [if_neg (by decide), if_neg (by decide)]
  refine ensures_bind ((particles_leaves_once limits ls s).mono (fun is s₁ h₁ => ?_) fun _ => id)
  obtain ⟨hlen, hsize⟩ := h₁
  refine ensures_bind ((combine_size .choice is s₁).mono (fun i s₂ h₂ => ?_) fun _ => id)
  refine ensures_pure ?_
  unfold choiceNodes
  rw [hlen] at h₂
  omega

/-- The root of a choice of leaves is made if there is room for its nodes. -/
theorem root_choiceOf (h : s.table.size + choiceNodes ls.length ≤ limits.maxNodes) :
    Ensures (root limits (.choiceOf ls)) s (fun _ _ => True) (fun _ => False) := by
  unfold root
  refine ensures_bind ((particle_choiceOf limits ls s).mono (fun i s' hs => ?_) fun _ => id)
  refine ensures_bind (ensures_get (ensures_bind (ensures_require (fun _ => ?_) fun x hx => ?_)))
  · exact ensures_pure trivial
  · rw [Construction.check_eq_ok.mpr (hs ▸ h)] at hx
    exact nomatch hx

end Lowering

/-! ## Compilation -/

namespace Particle

variable {ls : List Leaf} {c : Option Comparator} {limits : Limits} {s : Lowering}

theorem isAlternatives_trees (k n : Nat) (ls : List Leaf) :
    ∀ e ∈ trees k n (ls.map (.leaf · .once)), e.IsAlternatives := by
  induction ls generalizing k n with
  | nil => exact fun e he => absurd he List.not_mem_nil
  | cons l ls ih => exact List.forall_mem_cons.mpr ⟨.leaf _, ih _ _⟩

/-- The leaves of the tree of a choice are numbered in order. -/
theorem getElem?_of_mem_trees {k n : Nat} {x : Source}
    (hx : x ∈ (trees k n (ls.map (.leaf · .once))).flatMap ExpressionTree.leaves) :
    ∃ i, ls[i]? = some x.leaf ∧ x.particle = n + i := by
  induction ls generalizing k n with
  | nil => exact absurd hx List.not_mem_nil
  | cons l ls ih =>
    rw [List.map_cons, trees, List.flatMap_cons, List.mem_append] at hx
    rcases hx with hx | hx
    · obtain rfl := List.mem_singleton.mp hx
      exact ⟨0, rfl, rfl⟩
    · obtain ⟨i, hi, hx⟩ := ih hx
      refine ⟨i + 1, hi, ?_⟩
      rw [hx, show (leaf l .once).leafCount = 1 from rfl]
      omega

theorem leaves_choiceOf (n : Nat) (ls : List Leaf) : ((choiceOf ls).tree n).leaves =
    (trees 0 n (ls.map (.leaf · .once))).flatMap ExpressionTree.leaves :=
  ExpressionTree.leaves_combined .choice _

theorem leavesApart_choiceOf (h : ls.Pairwise fun l l' => l.overlaps c l' = false) (n : Nat) :
    Construction.LeavesApart c ((choiceOf ls).positionTree n) := by
  have hne {i j : Nat} {l l' : Leaf} (hi : ls[i]? = some l) (hj : ls[j]? = some l') (hij : i < j) :
      l.overlaps c l' = false := by
    obtain ⟨hi', rfl⟩ := List.getElem?_eq_some_iff.mp hi
    obtain ⟨hj', rfl⟩ := List.getElem?_eq_some_iff.mp hj
    exact List.pairwise_iff_getElem.mp h i j hi' hj' hij
  unfold Construction.LeavesApart
  simp only [leaves_positionTree, leaves_choiceOf, List.mem_map]
  rintro _ ⟨x, hx, rfl⟩ _ ⟨y, hy, rfl⟩ hxy
  obtain ⟨i, hi, hxi⟩ := getElem?_of_mem_trees hx
  obtain ⟨j, hj, hyj⟩ := getElem?_of_mem_trees hy
  simp only [Source.position, hxi, hyj] at hxy ⊢
  rcases Nat.lt_or_gt_of_ne (show i ≠ j by omega) with hij | hij
  · exact hne hi hj hij
  · rw [Leaf.overlaps_comm]
    exact hne hj hi hij

theorem isAlternatives_choiceOf (n : Nat) (h : ls ≠ []) :
    ((choiceOf ls).positionTree n).IsAlternatives := by
  obtain ⟨l, ls, rfl⟩ := List.exists_cons_of_ne_nil h
  have hcombined := ExpressionTree.isAlternatives_combined (List.cons_ne_nil _ _)
    (isAlternatives_trees 0 n (l :: ls))
  exact hcombined.map Source.position

open Lowering in
theorem compileParticle_choiceOf (h : ls.Pairwise fun l l' => l.overlaps c l' = false)
    (hnodes : s.table.size + choiceNodes ls.length ≤ limits.maxNodes)
    (hstates : ls = [] ∨ 2 ≤ limits.maxStates) :
    Ensures (ContentDraft.compileParticle c limits (choiceOf ls)) s
      (fun r _ => ∃ a i, r = (.children a, some i)) (fun _ => False) := by
  unfold ContentDraft.compileParticle
  rw [if_neg (show ¬ (choiceOf ls).isAll from Bool.false_ne_true)]
  refine ensures_bind (((root_spec limits (choiceOf ls) s).and (root_choiceOf hnodes)).mono
    (fun i s' hi => ?_) fun _ => And.right)
  obtain ⟨⟨-, ns, hns, hnodup⟩, -⟩ := hi
  refine ensures_bind (ensures_get ?_)
  have hlim : (choiceOf ls).positionTree s.nextParticle = .empty ∨
      (((choiceOf ls).positionTree s.nextParticle).IsAlternatives ∧ 2 ≤ limits.maxStates) := by
    by_cases hnil : ls = []
    · subst hnil
      exact .inl rfl
    · exact .inr ⟨isAlternatives_choiceOf _ hnil, hstates.resolve_left hnil⟩
  obtain ⟨a, ha⟩ := automaton_ok_of_apart hns hnodup (leavesApart_choiceOf h s.nextParticle) hlim
  rw [ha]
  exact ensures_pure ⟨a, i, rfl⟩

open Lowering in
/-- **A choice of leaves of which no two overlap is compiled**, if there is room for its nodes and
for the two states that it has unless it is empty. -/
theorem compiled_choiceOf (h : ls.Pairwise fun l l' => l.overlaps c l' = false)
    (hnodes : s.table.size + choiceNodes ls.length ≤ limits.maxNodes)
    (hstates : ls = [] ∨ 2 ≤ limits.maxStates) :
    ∃ a i, (choiceOf ls).compiled c limits s = .ok ⟨.children, .children a, some i⟩ := by
  have hensures : Ensures (ContentDraft.compile c limits (.children (choiceOf ls))) s
      (fun content _ => ∃ a i, content = ⟨.children, .children a, some i⟩) (fun _ => False) := by
    refine ensures_bind ((compileParticle_choiceOf h hnodes hstates).mono (fun r s' hr => ?_)
      fun _ => id)
    obtain ⟨a, i, rfl⟩ := hr
    exact ensures_pure ⟨a, i, rfl⟩
  cases hc : (choiceOf ls).compiled c limits s with
  | error f => exact (err_of_compiled hensures hc).elim
  | ok content =>
    obtain ⟨-, a, i, rfl⟩ := ok_of_compiled hensures hc
    exact ⟨a, i, rfl⟩

end Particle

/-! ## Wildcards of a namespace attribute -/

namespace Wildcard

/-- **The wildcards read from a namespace attribute** allow the names of the namespaces that it
denotes, and their choice is compiled, as no two of them overlap. Only a list with a stray word is
not read. -/
theorem ofAttribute_exact (value : String) (target : Option String) (processing : Processing) :
    ((∃ f, ofAttribute value target processing = .error f) ↔ IsStrayList value) ∧
    ∀ ws, ofAttribute value target processing = .ok ws →
      (∀ w ∈ ws, w.processing = processing) ∧
      (∀ n : Name, (∃ w ∈ ws, w.allows n) ↔ Denotes target value n.space) ∧
      (ws.Pairwise fun v w => Leaf.overlaps none (.wildcard v) (.wildcard w) = false) ∧
      ∀ (limits : Limits) (s : Lowering),
        s.table.size + choiceNodes ws.length ≤ limits.maxNodes → ws = [] ∨ 2 ≤ limits.maxStates →
        ∃ a i, (Particle.choiceOf (ws.map .wildcard)).compiled none limits s =
          .ok ⟨.children, .children a, some i⟩ := by
  refine ⟨exists_error_iff, fun ws h => ?_⟩
  have hreads := readsAs_of_ofAttribute h
  refine ⟨fun w => hreads.processing_eq, hreads.allows_iff, hreads.pairwise,
    fun limits s hnodes hstates => ?_⟩
  refine Particle.compiled_choiceOf (List.pairwise_map.mpr hreads.pairwise) ?_ ?_
  · rwa [List.length_map]
  · rwa [List.map_eq_nil_iff]

/-- A list that names the target twice and the absent namespace twice. -/
theorem ofAttribute_exact_aliases :
    ∃ ws, ofAttribute " ##targetNamespace urn:a\n##local ##local" (some "urn:a") .lax = .ok ws ∧
      ws.length = 2 ∧
      (∀ n : Name, (∃ w ∈ ws, w.allows n) ↔
        Denotes (some "urn:a") " ##targetNamespace urn:a\n##local ##local" n.space) ∧
      (ws.Pairwise fun v w => Leaf.overlaps none (.wildcard v) (.wildcard w) = false) ∧
      ∃ a i, (Particle.choiceOf (ws.map .wildcard)).compiled none {} {} =
        .ok ⟨.children, .children a, some i⟩ := by
  have hok : ofAttribute " ##targetNamespace urn:a\n##local ##local" (some "urn:a") .lax =
      .ok [⟨.only (some "urn:a"), .lax⟩, ⟨.only none, .lax⟩] := by decide
  obtain ⟨-, hallows, hpair, hcompiled⟩ := (ofAttribute_exact _ _ _).2 _ hok
  exact ⟨_, hok, rfl, hallows, hpair, hcompiled {} {} (by decide) (.inr (by decide))⟩

end Wildcard

end MarkupGrammar
