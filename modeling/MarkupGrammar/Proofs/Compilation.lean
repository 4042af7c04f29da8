import MarkupGrammar.Content
import MarkupGrammar.Proofs.Automaton.Attribution
import MarkupGrammar.Proofs.Lowering.Spec
import MarkupGrammar.Proofs.Particle.Attribution

/-! # Compilation of element content

Compiling a particle other than an all-group makes the automaton of its tree. It fails where
lowering fails, for too many nodes or states, or for a set with an overlap (`compile_spec`). -/

namespace MarkupGrammar

section

open Construction

variable {c : Option Comparator} {limits : Limits} {e : ExpressionTree Position}

/-! ## The automaton of a tree -/

/-- The set of positions is one that the construction finds. -/
structure FindsOverlap (c : Option Comparator) (e : ExpressionTree Position) (k : Setup)
    (start set : NumberSet) : Prop where
  models : Models k e
  exact_start (fits : Leaf → Name → Prop) : Exact fits e [] start
  reached : Reached c k start set
  overlap : overlapIn c k set ≠ none

/-- How the construction of the automaton of a tree ends. -/
def AutomatonOutcome (c : Option Comparator) (e : ExpressionTree Position) :
    Except Failure Automaton → Prop
  | .ok a => ∃ k start found, a.Realizes c e k start found
  | .error f => f.HasKind .limitExceeded ∨
      (f.HasKind .ambiguousContentModel ∧ ∃ k start set, FindsOverlap c e k start set)

section

open Survey

variable (c : Option Comparator) (limits : Limits) {t : ExpressionTable} {i : Nat} {f : Facts}
  {s : Survey}

/-- The construction after a survey. -/
theorem automaton_eq_of_run (hrun : run t i = .ok (f, s)) : t.automaton c limits i =
    (explore c limits (setup f s).1 (limits.maxStates + 1) #[(setup f s).2] #[]).mapError
      Failure.ofCause >>= fun states =>
        .ok ⟨(setup f s).1.symbols.map fun l => ⟨l, none⟩, states⟩ := by
  unfold ExpressionTable.automaton
  rw [hrun]
  rfl

theorem automaton_of_run (hrun : run t i = .ok (f, s)) (hext : Extends e {} s)
    (hdesc : f.Describes (e.numbered 0)) : AutomatonOutcome c e (t.automaton c limits i) := by
  have hm := models_setup hext hdesc
  have hstart (fits : Leaf → Name → Prop) : Exact fits e [] (setup f s).2 :=
    exact_start hext hdesc
  have ho := explore_spec c limits (setup f s).1 (setup f s).2
  rw [automaton_eq_of_run c limits hrun]
  cases hx : explore c limits (setup f s).1 (limits.maxStates + 1) #[(setup f s).2] #[] with
  | ok states =>
    rw [hx] at ho
    obtain ⟨found, hfound⟩ := ho
    exact ⟨_, _, found, hm, hstart, hfound, rfl⟩
  | error cause =>
    rw [hx] at ho
    rcases ho with ⟨excess, rfl⟩ | ⟨set, l, l', hreached, hset, rfl⟩
    · exact .inl ⟨_, rfl, rfl⟩
    · exact .inr ⟨⟨_, rfl, rfl⟩, _, _, set, hm, hstart, hreached, by simp [hset]⟩

end

theorem automaton_spec (c : Option Comparator) (limits : Limits) {t : ExpressionTable} {i : Nat}
    {ns : List Nat} (h : t.Holds i e ns) (hn : ns.Nodup) :
    AutomatonOutcome c e (t.automaton c limits i) := by
  obtain ⟨f, s, hrun, hext, hdesc⟩ := Survey.run_tree h hn
  exact automaton_of_run c limits hrun hext hdesc

/-! ## The model of a particle -/

/-- What a particle compiles to as element content, or why it does not. -/
def Particle.compiled (c : Option Comparator) (limits : Limits) (p : Particle) (s : Lowering) :
    Except Failure Content :=
  ((ContentDraft.compile c limits (.children p)).run.run s).1

/-- What is compiled from a particle that is not an all-group. -/
def Compiles (c : Option Comparator) (p : Particle) (n : Nat) (m : Model) : Prop :=
  p.Lowerable ∧ ∃ a k start found, m = .children a ∧
    a.Realizes c (p.positionTree n) k start found

/-- Why a particle that is not an all-group is not compiled. -/
def Refuses (c : Option Comparator) (p : Particle) (n : Nat) (f : Failure) : Prop :=
  Lowering.Rejects p.containsAll f ∨
    (f.HasKind .ambiguousContentModel ∧ p.Lowerable ∧
      ∃ k start set, FindsOverlap c (p.positionTree n) k start set)

open Lowering in
theorem root_spec (limits : Limits) (p : Particle) (s : Lowering) :
    Ensures (root limits p) s
      (fun i s' => p.Lowerable ∧
        ∃ ns, s'.table.Holds i (p.positionTree s.nextParticle) ns ∧ ns.Nodup)
      (Rejects p.containsAll) := by
  unfold root
  refine ensures_bind ((particle_spec limits p (ExpressionTable.apart_nil _)).mono
    (fun i s' h => ?_) fun _ => id)
  obtain ⟨hp, hi⟩ := h
  refine ensures_bind (ensures_get ?_)
  refine ensures_bind (ensures_require (fun _ => ?_) fun excess _ => ?_)
  · exact ensures_pure ⟨hp, hi.apart.holds⟩
  · exact .inr (.inl ⟨.limit excess, rfl, rfl⟩)

open Lowering in
theorem compileParticle_spec (limits : Limits) {p : Particle} (hp : p.isAll = false)
    (s : Lowering) :
    Ensures (ContentDraft.compileParticle c limits p) s
      (fun r _ => Compiles c p s.nextParticle r.1) (Refuses c p s.nextParticle) := by
  unfold ContentDraft.compileParticle
  rw [if_neg (by simp [hp])]
  refine ensures_bind ((root_spec limits p s).mono (fun i s' h => ?_) fun _ => .inl)
  obtain ⟨hl, ns, hns, hnodup⟩ := h
  refine ensures_bind (ensures_get ?_)
  have ho := automaton_spec c limits hns hnodup
  split
  · rename_i a ha
    rw [ha] at ho
    obtain ⟨k, start, found, h⟩ := ho
    exact ensures_pure ⟨hl, a, k, start, found, rfl, h⟩
  · rename_i f hf
    rw [hf] at ho
    refine ensures_throw ?_
    rcases ho with h | ⟨hf, h⟩
    · exact .inl (.inr (.inl h))
    · exact .inr ⟨hf, hl, h⟩

/-- **Compiling element content makes the automaton of the tree of its particle.** -/
theorem compile_spec (c : Option Comparator) (limits : Limits) {p : Particle}
    (hp : p.isAll = false) (s : Lowering) :
    Lowering.Ensures (ContentDraft.compile c limits (.children p)) s
      (fun content _ => Compiles c p s.nextParticle content.model)
      (Refuses c p s.nextParticle) := by
  unfold ContentDraft.compile
  refine Lowering.ensures_bind ((compileParticle_spec limits hp s).mono (fun r s' h => ?_)
    fun _ => id)
  exact Lowering.ensures_pure h

variable {p : Particle} {s : Lowering} {content : Content} {f : Failure}

theorem ok_of_compiled {ok : Content → Lowering → Prop} {err : Failure → Prop}
    (hs : Lowering.Ensures (ContentDraft.compile c limits (.children p)) s ok err)
    (h : p.compiled c limits s = .ok content) : ∃ s', ok content s' := by
  unfold Lowering.Ensures at hs
  unfold Particle.compiled at h
  split at hs
  · rename_i content' s' hr
    rw [hr] at h
    obtain rfl := Except.ok.inj h
    exact ⟨s', hs⟩
  · rename_i hr
    rw [hr] at h
    exact absurd h (by simp)

theorem err_of_compiled {ok : Content → Lowering → Prop} {err : Failure → Prop}
    (hs : Lowering.Ensures (ContentDraft.compile c limits (.children p)) s ok err)
    (h : p.compiled c limits s = .error f) : err f := by
  unfold Lowering.Ensures at hs
  unfold Particle.compiled at h
  split at hs
  · rename_i hr
    rw [hr] at h
    exact absurd h (by simp)
  · rename_i f' s' hr
    rw [hr] at h
    obtain rfl := Except.error.inj h
    exact hs

theorem compiles_of_compiled (hp : p.isAll = false) (h : p.compiled c limits s = .ok content) :
    Compiles c p s.nextParticle content.model := by
  obtain ⟨-, h⟩ := ok_of_compiled (compile_spec c limits hp s) h
  exact h

theorem refuses_of_compiled (hp : p.isAll = false) (h : p.compiled c limits s = .error f) :
    Refuses c p s.nextParticle f :=
  err_of_compiled (compile_spec c limits hp s) h

end

/-! ## The language of element content

Without a comparator, the model compiled from a particle admits the words that satisfy the particle
(`admits_iff_mem_words`). No two positions that can come next match one name there: where two leaves
of different particles do, they overlap, and the particle is not compiled. -/

open Construction

variable {c : Option Comparator} {limits : Limits} {p : Particle} {n : Nat} {s : Lowering}
  {content : Content}

theorem oneLeaf_positionTree (h : p.Lowerable) : OneLeaf (p.positionTree n) := by
  unfold OneLeaf
  simp only [Particle.leaves_positionTree, List.mem_map]
  rintro _ ⟨x, hx, rfl⟩ _ ⟨y, hy, rfl⟩ hxy
  rw [Particle.distinct_tree n p h x hx y hy (.inr hxy)]

theorem uniqueRuns_of_consistent {a : Automaton} {e : ExpressionTree Position} {k : Setup}
    {start : NumberSet} {found : Array NumberSet} (h : a.Realizes c e k start found)
    (hcons : Consistent c e)
    (hc : ∀ (n : Name) (l l' : Leaf), l.fits c n → l'.fits c n → l.overlaps c l' = true) :
    a.UniqueRuns c e k found := by
  intro u i set _ hi n
  obtain ⟨st, -, hw⟩ := h.state hi
  exact unique_of_consistent h.models hcons hw.overlap (hc n)

theorem uniqueRuns_of_overlaps {a : Automaton} {e : ExpressionTree Position} {k : Setup}
    {start : NumberSet} {found : Array NumberSet} (h : a.Realizes c e k start found)
    (hone : OneLeaf e)
    (hc : ∀ (n : Name) (l l' : Leaf), l.fits c n → l'.fits c n → l.overlaps c l' = true) :
    a.UniqueRuns c e k found :=
  uniqueRuns_of_consistent h hone.consistent hc

/-- **The compiled model admits the words of the particle.** -/
theorem admits_iff_mem_words (hp : p.isAll = false)
    (h : p.compiled none limits s = .ok content) (w : List Name) :
    content.model.Admits none w ↔ w ∈ p.words fun l n => l.accepts n := by
  obtain ⟨hl, a, k, start, found, hm, ha⟩ := compiles_of_compiled hp h
  have hu := uniqueRuns_of_overlaps ha (oneLeaf_positionTree hl) fun _ _ _ => overlaps_of_fits_none
  rw [hm, Automaton.admits_iff ha hu, Particle.words_eq (k := s.nextParticle) hl]
  simp only [Leaf.fits_none]

/-- One or more groups of two to three elements and perhaps an element of another namespace. -/
def repeatedGroup : Particle :=
  .group .sequence
    [.leaf (.element (.unqualified "a")) ⟨2, some 3⟩,
      .leaf (.wildcard ⟨.other none, .lax⟩) .optional]
    .oneOrMore

theorem admits_iff_mem_words_repeatedGroup :
    ∃ content, repeatedGroup.compiled none {} {} = .ok content ∧ ∀ w,
      content.model.Admits none w ↔ w ∈ repeatedGroup.words fun l n => l.accepts n := by
  have hok : (repeatedGroup.compiled none {} {}).isOk := by decide +kernel
  cases h : repeatedGroup.compiled none {} {} with
  | error f =>
    rw [h] at hok
    exact absurd hok Bool.noConfusion
  | ok content => exact ⟨content, rfl, admits_iff_mem_words rfl h⟩

end MarkupGrammar
