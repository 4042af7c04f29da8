import MarkupGrammar.Proofs.Compilation

/-! # Unique attribution

Without a comparator, a particle without all-groups is refused as ambiguous if and only if it is
ambiguous (`ambiguous_iff_isAmbiguous`): every set with an overlap is exact for some word, and
overlapping leaves match a name in common.

With a comparator, the model attributes children uniquely if and only if the particle is not
ambiguous where leaves also match the names that they are related to
(`attributesUniquely_children_iff`). Compilation does not see to this, as overlaps are not all found
then. -/

namespace MarkupGrammar

open Construction

variable {c : Option Comparator} {limits : Limits} {p : Particle} {n : Nat} {s : Lowering}
  {content : Content} {e : ExpressionTree Position} {k : Setup} {start set : NumberSet}
  {found : Array NumberSet} {a : Automaton}

/-! ## Sources of positions -/

theorem mem_leaves_source {q : Nat} {x : Position} (hx : x ∈ (p.positionTree n).leaves[q]?) :
    ∃ y ∈ (p.tree n).leaves[q]?, y.position = x := by
  rw [Particle.getElem?_positionTree] at hx
  exact Option.map_eq_some_iff.mp hx

theorem position_mem_leaves {q : Nat} {y : Source} (hy : y ∈ (p.tree n).leaves[q]?) :
    y.position ∈ (p.positionTree n).leaves[q]? := by
  rw [Particle.getElem?_positionTree]
  exact Option.map_eq_some_iff.mpr ⟨y, hy, rfl⟩

theorem particle_ne (h : p.Lowerable) {q q' : Nat} {x y : Source}
    (hx : x ∈ (p.tree n).leaves[q]?) (hy : y ∈ (p.tree n).leaves[q']?) (hne : x ≠ y) :
    x.position.particle ≠ y.position.particle := fun hp =>
  hne (Particle.distinct_tree n p h x (List.mem_of_getElem? hx) y (List.mem_of_getElem? hy)
    (.inr hp))

theorem exists_fits (l : Leaf) : ∃ n, l.fits c n :=
  l.exists_accepts.imp fun _ => Leaf.fits_of_accepts

/-! ## Attribution without a comparator -/

/-- A set with an overlap makes the particle ambiguous. -/
theorem isAmbiguous_of_overlap (hp : p.Lowerable)
    (h : FindsOverlap none (p.positionTree n) k start set) : p.IsAmbiguous (Leaf.fits none) := by
  obtain ⟨u, hu⟩ := exact_of_reached h.models (oneLeaf_positionTree hp) (h.exact_start _) h.reached
  obtain ⟨q, hq, q', hq', x, hx, y, hy, hne, ho⟩ := exists_of_overlapIn h.models h.overlap
  obtain ⟨x, hx', rfl⟩ := mem_leaves_source hx
  obtain ⟨y, hy', rfl⟩ := mem_leaves_source hy
  obtain ⟨name, hxn, hyn⟩ := (Leaf.overlaps_none_iff _ _).mp ho
  refine (Particle.isAmbiguous_iff hp exists_fits).mpr
    ⟨u, name, q, q', hu.sound q hq, hu.sound q' hq', x, hx', y, hy', fun hxy => hne (hxy ▸ rfl),
      ?_, ?_⟩
  · exact Leaf.fits_of_accepts hxn
  · exact Leaf.fits_of_accepts hyn

/-- Where runs are unique, an ambiguous particle has overlapping leaves in the set of a state. -/
theorem exists_overlap_of_isAmbiguous (hp : p.Lowerable)
    (ha : a.Realizes c (p.positionTree n) k start found)
    (hu : a.UniqueRuns c (p.positionTree n) k found) (h : p.IsAmbiguous (Leaf.fits c)) :
    ∃ (i : Nat) (set : NumberSet), found[i]? = some set ∧ ∃ q ∈ set.toList, ∃ q' ∈ set.toList,
      ∃ x ∈ (p.tree n).leaves[q]?, ∃ y ∈ (p.tree n).leaves[q']?, x ≠ y ∧ x.leaf = y.leaf := by
  obtain ⟨u, name, q, q', hq, hq', x, hx, y, hy, hne, hxn, hyn⟩ :=
    (Particle.isAmbiguous_iff (k := n) hp exists_fits).mp h
  rcases Automaton.run_exact ha hu u with ⟨i, set, hrun, hi, he⟩ | ⟨-, hno⟩
  · have hmq := (he q).mpr hq
    have hmq' := (he q').mpr hq'
    have hsym := hu u i set hrun hi name q hmq q' hmq'
      ⟨_, position_mem_leaves hx, hxn⟩ ⟨_, position_mem_leaves hy, hyn⟩
    have hsx := symbols_symbol ha.models (position_mem_leaves hx)
    have hsy := symbols_symbol ha.models (position_mem_leaves hy)
    rw [hsym] at hsx
    exact ⟨i, set, hi, q, hmq, q', hmq', x, hx, y, hy, hne, Option.some.inj (hsx.symm.trans hsy)⟩
  · exact absurd hq (hno q)

/-- In a compiled automaton with unique runs no particle is ambiguous, as a leaf overlaps itself. -/
theorem not_isAmbiguous_of_uniqueRuns (hp : p.Lowerable)
    (ha : a.Realizes c (p.positionTree n) k start found)
    (hu : a.UniqueRuns c (p.positionTree n) k found) : ¬ p.IsAmbiguous (Leaf.fits c) := by
  intro h
  obtain ⟨i, set, hi, q, hq, q', hq', x, hx, y, hy, hne, hxy⟩ :=
    exists_overlap_of_isAmbiguous hp ha hu h
  obtain ⟨st, -, hw⟩ := ha.state hi
  have hno := (overlapIn_eq_none ha.models).mp hw.overlap q hq q' hq' _ (position_mem_leaves hx) _
    (position_mem_leaves hy) (particle_ne hp hx hy hne)
  have hself : x.position.leaf.overlaps c y.position.leaf = true := by
    rw [show y.position.leaf = x.position.leaf from hxy.symm]
    exact Leaf.overlaps_self c _
  rw [hself] at hno
  exact Bool.noConfusion hno

theorem isAll_eq_false (h : p.containsAll = false) : p.isAll = false := by
  cases p with
  | leaf l o => rfl
  | group c ms o =>
    cases c with
    | all => simp [Particle.containsAll] at h
    | sequence | choice => rfl

/-- **Without a comparator exactly the ambiguous particles are refused as ambiguous.** -/
theorem ambiguous_iff_isAmbiguous (hp : p.containsAll = false)
    (hf : ∀ f, p.compiled none limits s = .error f →
      ¬ f.HasKind .invalidOccurs ∧ ¬ f.HasKind .limitExceeded) :
    (∃ f, p.compiled none limits s = .error f ∧ f.HasKind .ambiguousContentModel) ↔
      p.IsAmbiguous fun l n => l.accepts n := by
  have hall := isAll_eq_false hp
  have hfits : (fun (l : Leaf) n => (l.accepts n : Prop)) = Leaf.fits none := by
    funext l n
    exact propext (l.fits_none n).symm
  rw [hfits]
  cases h : p.compiled none limits s with
  | ok content =>
    obtain ⟨hl, a, k, start, found, -, ha⟩ := compiles_of_compiled hall h
    have hu := uniqueRuns_of_overlaps ha (oneLeaf_positionTree hl) fun _ _ _ =>
      overlaps_of_fits_none
    refine iff_of_false ?_ (not_isAmbiguous_of_uniqueRuns hl ha hu)
    rintro ⟨f, hf, -⟩
    exact absurd hf (by simp)
  | error f =>
    obtain ⟨ho, hlim⟩ := hf f h
    rcases refuses_of_compiled hall h with (h' | h' | ⟨h', -⟩) | ⟨hamb, hl, k, start, set, hset⟩
    · exact absurd h' ho
    · exact absurd h' hlim
    · rw [hp] at h'
      exact absurd h' Bool.noConfusion
    · exact iff_of_true ⟨f, rfl, hamb⟩ (isAmbiguous_of_overlap hl hset)

/-- A choice between two elements of one name. -/
def sameChoice : Particle :=
  .group .choice
    [.leaf (.element (.unqualified "a")) .once, .leaf (.element (.unqualified "a")) .oneOrMore]
    .once

theorem isAmbiguous_sameChoice : sameChoice.IsAmbiguous fun l n => l.accepts n := by
  have h : sameChoice.compiled none {} {} = .error (.ofCause (.ambiguousModel
      (.element (.unqualified "a")) (.element (.unqualified "a")))) := by decide +kernel
  refine (ambiguous_iff_isAmbiguous (by decide) fun f hf => ?_).mp ⟨_, h, _, rfl, rfl⟩
  obtain rfl := Except.error.inj (h.symm.trans hf)
  constructor <;> exact fun h => absurd (h.unique ⟨_, rfl, rfl⟩) (by decide)

/-! ## Attribution with a comparator -/

/-- Unique attribution makes the runs of an automaton unique. -/
theorem uniqueRuns_of_attributesUniquely (ha : a.Realizes c e k start found)
    (h : (Model.children a).AttributesUniquely c) : a.UniqueRuns c e k found := by
  rintro u i set hrun hi n q hq q' hq' ⟨x, hx, hxn⟩ ⟨y, hy, hyn⟩
  have offer {q : Nat} {x : Position} (hq : q ∈ set.toList) (hx : x ∈ e.leaves[q]?)
      (hxn : x.leaf.fits c n) : (⟨x.leaf, none⟩, symbol k q) ∈ a.outgoing i := by
    have ht : e.Takes (Leaf.fits c) q n := ⟨x, hx, hxn⟩
    have hm := (mem_members_of_takes ha.models ht).mpr hq
    exact (ha.mem_outgoing hi).mpr ⟨⟨q, hm, rfl⟩, symbols_symbol ha.models hx, rfl⟩
  have heq := h u (.children i) hrun n _ (offer hq hx hxn) _ (offer hq' hy hyn)
    (Symbol.isSome_rank?.mpr hxn) (Symbol.isSome_rank?.mpr hyn)
  exact congrArg Prod.snd heq

/-- Two offers that fit a name make the particle ambiguous. -/
theorem attributesUniquely_of_not_isAmbiguous (hp : p.Lowerable)
    (ha : a.Realizes c (p.positionTree n) k start found) (h : ¬ p.IsAmbiguous (Leaf.fits c)) :
    (Model.children a).AttributesUniquely c := by
  intro u st hrun name x hx y hy hrx hry
  obtain ⟨i, set, rfl, hi, hs⟩ := Automaton.run_sound ha hrun
  obtain ⟨⟨q, hq, hqx⟩, hlx, hdx⟩ := (ha.mem_outgoing hi).mp hx
  obtain ⟨⟨q', hq', hqy⟩, hly, hdy⟩ := (ha.mem_outgoing hi).mp hy
  rw [Symbol.isSome_rank?] at hrx hry
  obtain ⟨_, hX, hXn⟩ := takes_of_symbol ha.models hs hq (hqx ▸ hlx) hrx
  obtain ⟨_, hY, hYn⟩ := takes_of_symbol ha.models hs hq' (hqy ▸ hly) hry
  obtain ⟨X, hX', rfl⟩ := mem_leaves_source hX
  obtain ⟨Y, hY', rfl⟩ := mem_leaves_source hY
  by_contra hne
  refine h ((Particle.isAmbiguous_iff hp exists_fits).mpr ⟨u, name, q, q',
    hs q (mem_members.mp hq).1, hs q' (mem_members.mp hq').1, X, hX', Y, hY', fun hXY => hne ?_,
    hXn, hYn⟩)
  -- positions of one source have one symbol
  subst hXY
  have hsym := symbol_inj ha.models (symbols_symbol ha.models hX) (symbols_symbol ha.models hY)
  rw [hqx, hqy] at hsym
  rw [hsym, hly] at hlx
  obtain ⟨⟨l, d⟩, q⟩ := x
  obtain ⟨⟨l', d'⟩, q'⟩ := y
  simp_all

/-- **A compiled automaton attributes children uniquely if the particle is not ambiguous.** -/
theorem attributesUniquely_children_iff (hp : p.Lowerable)
    (ha : a.Realizes c (p.positionTree n) k start found) :
    (Model.children a).AttributesUniquely c ↔ ¬ p.IsAmbiguous (Leaf.fits c) :=
  ⟨fun h => not_isAmbiguous_of_uniqueRuns hp ha (uniqueRuns_of_attributesUniquely ha h),
    attributesUniquely_of_not_isAmbiguous hp ha⟩

/-- **The compiled model of a particle that is not ambiguous admits its words.** -/
theorem admits_iff_of_not_isAmbiguous (hp : p.isAll = false)
    (h : p.compiled c limits s = .ok content) (hno : ¬ p.IsAmbiguous (Leaf.fits c))
    (w : List Name) : content.model.Admits c w ↔ w ∈ p.words (Leaf.fits c) := by
  obtain ⟨hl, a, k, start, found, hm, ha⟩ := compiles_of_compiled hp h
  have hu := uniqueRuns_of_attributesUniquely ha ((attributesUniquely_children_iff hl ha).mpr hno)
  rw [hm, Automaton.admits_iff ha hu, Particle.words_eq (k := s.nextParticle) hl]

end MarkupGrammar
