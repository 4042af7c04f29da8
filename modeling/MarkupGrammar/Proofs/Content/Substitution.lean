import MarkupGrammar.Proofs.Content.AllGroup
import MarkupGrammar.Proofs.Content.Attribution
import MarkupGrammar.Proofs.Particle.Use
import MarkupGrammar.Proofs.Substitution
import Mathlib

/-! # Element content with substitution groups

With a table of substitution groups, compilation does not find all overlaps, and a symbol fits the
heads of its element as well as the members. So two properties that one may expect hold under
conditions, which are exact.

* A compiled model attributes children uniquely if its particle is not ambiguous, where related
  names count as equal. All models of a table do if relatedness is an equivalence within namespaces
  (`attributesUniquely_iff_not_isAmbiguous`).
* A compiled model admits the words where members stand for heads, and no others, if the leaves in
  use have no heads but those that stand for them too; this is for particles that are not ambiguous.
  All models of a table do if substitution is symmetric within namespaces
  (`follows_iff_isSymmetric`). -/

namespace MarkupGrammar

variable {s : Substitutions} {l l' : Leaf} {a b e n : Name}

namespace Substitutions

/-! ## Leaves that fit a name -/

/-- The leaf matches the name, where a member may stand for its head. -/
def permits (s : Substitutions) : Leaf → Name → Prop
  | .element e, n => s.canSubstitute e n
  | .wildcard w, n => w.allows n

theorem Related.refl : s.Related n n := .inl canSubstitute_self

theorem Related.symm (hab : s.Related a b) : s.Related b a := Or.symm hab

theorem fits_element : (Leaf.element e).fits (some s.comparator) n ↔ s.Related e n := by
  simp only [Leaf.fits, isRelated_iff]
  constructor
  · rintro (rfl | h)
    · exact .refl
    · exact h
  · exact .inr

theorem fits_of_permits (h : s.permits l n) : l.fits (some s.comparator) n := by
  cases l with
  | element e => exact fits_element.mpr (.inl h)
  | wildcard w => exact h

theorem overlaps_element :
    (Leaf.element a).overlaps (some s.comparator) (.element b) = true ↔ s.Related a b := by
  simp only [Leaf.overlaps, Bool.or_eq_true, beq_iff_eq, isRelated_iff]
  constructor
  · rintro ((rfl | h) | h)
    · exact .refl
    · exact h
    · exact h.symm
  · exact fun h => .inl (.inr h)

/-! ## Overlaps -/

/-- Relatedness is an equivalence within namespaces. -/
structure IsEquivalence (s : Substitutions) : Prop where
  trans : ∀ a b c, s.Related a b → s.Related b c → s.Related a c
  space : ∀ a b, s.Related a b → a.space = b.space

theorem overlaps_wildcard (hs : s.IsEquivalence) {w : Wildcard} (ha : s.Related a n)
    (hn : w.allows n) : w.overlapsElement (some s.comparator) a = true := by
  obtain ⟨range, _⟩ := w
  have hspace := hs.space a n ha
  cases range with
  | any => rfl
  | only space =>
    have heq : space = n.space := by simpa [Wildcard.allows, Wildcard.Range.contains] using hn
    simp [Wildcard.overlapsElement, Name.isIn, hspace, heq]
  | other space =>
    have hne : space ≠ n.space := by simpa [Wildcard.allows, Wildcard.Range.contains] using hn
    simpa [Wildcard.overlapsElement, Name.isIn, hspace] using hne.symm

/-- Leaves that fit a name in common overlap if relatedness is an equivalence within namespaces. -/
theorem overlaps_of_fits (hs : s.IsEquivalence) (hl : l.fits (some s.comparator) n)
    (hl' : l'.fits (some s.comparator) n) : l.overlaps (some s.comparator) l' = true := by
  cases l with
  | element a =>
    have ha := fits_element.mp hl
    cases l' with
    | element b => exact overlaps_element.mpr (hs.trans a n b ha (fits_element.mp hl').symm)
    | wildcard w => exact overlaps_wildcard hs ha hl'
  | wildcard v =>
    cases l' with
    | element b => exact overlaps_wildcard hs (fits_element.mp hl') hl
    | wildcard w =>
      refine (Wildcard.Range.overlaps_iff v.range w.range).mpr ⟨n.space, ?_, ?_⟩
      · exact hl
      · exact hl'

end Substitutions

/-! ## Unique attribution -/

section Attribution

variable {c : Option Comparator} {limits : Limits} {p : Particle} {st : Lowering}
  {content : Content}

/-- A compiled model attributes children uniquely if and only if the particle is not ambiguous. -/
theorem attributesUniquely_compiled_iff (h : p.compiled c limits st = .ok content) :
    content.model.AttributesUniquely c ↔ ¬ p.IsAmbiguous (Leaf.fits c) := by
  cases hp : p.isAll with
  | false =>
    obtain ⟨hl, a, k, start, found, hm, ha⟩ := compiles_of_compiled hp h
    rw [hm]
    exact attributesUniquely_children_iff hl ha
  | true =>
    obtain ⟨ms, o, g, rfl, hm, hmin, hmax, hms, -⟩ := compiled_all hp h
    rw [hm, Particle.isAmbiguous_all_iff hms ⟨hmin, hmax⟩ exists_fits]
    exact attributesUniquely_all_iff hms

/-- An all-group of two leaves. -/
def allOfTwo (l l' : Leaf) : Particle := .group .all [.leaf l .once, .leaf l' .once] .once

/-- An all-group of two leaves that do not overlap is compiled. -/
theorem compiled_allOfTwo (ho : l.overlaps c l' = false) :
    ∃ content, (allOfTwo l l').compiled c {} {} = .ok content := by
  have hg : AllGroup.ofParticle c (allOfTwo l l') =
      .ok ⟨[⟨⟨l, none⟩, .once⟩, ⟨⟨l', none⟩, .once⟩], false⟩ := by
    simp [AllGroup.ofParticle, allOfTwo, AllGroup.addMember, Occurs.once, Occurs.check,
      Occurs.isBasic, ho, bind, Except.bind, pure, Except.pure, Except.mapError]
  have hall : (allOfTwo l l').isAll = true := rfl
  unfold Particle.compiled ContentDraft.compile
  simp only [ContentDraft.compileParticle, if_pos hall, hg]
  exact ⟨_, rfl⟩

theorem isAmbiguous_allOfTwo {fits : Leaf → Name → Prop} (hf : ∀ l : Leaf, ∃ n, fits l n)
    (hl : fits l n) (hl' : fits l' n) : (allOfTwo l l').IsAmbiguous fits := by
  have hms : List.Forall₂ IsMember [.leaf l .once, .leaf l' .once]
      [⟨⟨l, none⟩, .once⟩, ⟨⟨l', none⟩, .once⟩] := by
    refine .cons ⟨rfl, ?_⟩ (.cons ⟨rfl, ?_⟩ .nil) <;> simp [Occurs.once]
  exact (Particle.isAmbiguous_all_iff hms (by decide) hf).mpr
    ⟨n, 0, 1, by decide, _, rfl, _, rfl, hl, hl'⟩

/-- If leaves that fit a name in common overlap, all compiled models attribute children uniquely. -/
theorem attributesUniquely_of_overlaps (h : p.compiled c limits st = .ok content)
    (hc : ∀ (n : Name) (l l' : Leaf), l.fits c n → l'.fits c n → l.overlaps c l' = true) :
    content.model.AttributesUniquely c := by
  cases hp : p.isAll with
  | false =>
    obtain ⟨hl, a, k, start, found, hm, ha⟩ := compiles_of_compiled hp h
    have hu := uniqueRuns_of_overlaps ha (oneLeaf_positionTree hl) hc
    rw [hm]
    exact (attributesUniquely_children_iff hl ha).mpr (not_isAmbiguous_of_uniqueRuns hl ha hu)
  | true =>
    obtain ⟨ms, o, g, rfl, hm, -, -, hms, hd⟩ := compiled_all hp h
    rw [hm]
    exact (attributesUniquely_all_iff hms).mpr (not_hasAmbiguousMembers hd hc)

/-- If all compiled models attribute children uniquely, leaves that fit a name in common overlap. -/
theorem overlaps_of_attributesUniquely
    (h : ∀ (p : Particle) (limits : Limits) (st : Lowering) (content : Content),
      p.compiled c limits st = .ok content → content.model.AttributesUniquely c)
    (hl : l.fits c n) (hl' : l'.fits c n) : l.overlaps c l' = true := by
  by_contra ho
  obtain ⟨content, hc⟩ := compiled_allOfTwo (by simpa using ho)
  exact (attributesUniquely_compiled_iff hc).mp (h _ _ _ _ hc)
    (isAmbiguous_allOfTwo exists_fits hl hl')

end Attribution

theorem Substitutions.isEquivalence_of_overlaps (h : ∀ (n : Name) (l l' : Leaf),
    l.fits (some s.comparator) n → l'.fits (some s.comparator) n →
      l.overlaps (some s.comparator) l' = true) : s.IsEquivalence where
  trans a b c hab hbc := overlaps_element.mp
    (h b _ _ (fits_element.mpr hab) (fits_element.mpr hbc.symm))
  space a b hab := by
    by_contra hne
    have ho := h b _ (.wildcard ⟨.other a.space, .lax⟩) (fits_element.mpr hab)
      (by simpa [Leaf.fits, Wildcard.allows, Wildcard.Range.contains] using hne)
    simp [Leaf.overlaps, Wildcard.overlapsElement, Name.isIn] at ho

/-- **A compiled model attributes children uniquely if and only if its particle is not ambiguous,
and all models of a table do if and only if relatedness is an equivalence within namespaces.** -/
theorem attributesUniquely_iff_not_isAmbiguous (s : Substitutions) :
    (∀ (p : Particle) (limits : Limits) (st : Lowering) (content : Content),
      p.compiled (some s.comparator) limits st = .ok content →
        (content.model.AttributesUniquely (some s.comparator) ↔
          ¬ p.IsAmbiguous (Leaf.fits (some s.comparator)))) ∧
    ((∀ (p : Particle) (limits : Limits) (st : Lowering) (content : Content),
      p.compiled (some s.comparator) limits st = .ok content →
        content.model.AttributesUniquely (some s.comparator)) ↔ s.IsEquivalence) := by
  refine ⟨fun p limits st content => attributesUniquely_compiled_iff, fun h => ?_, fun hs => ?_⟩
  · exact Substitutions.isEquivalence_of_overlaps fun n l l' =>
      overlaps_of_attributesUniquely h
  · exact fun p limits st content h => attributesUniquely_of_overlaps h fun n l l' =>
      Substitutions.overlaps_of_fits hs

/-- A head whose group has a member in another namespace. -/
def foreignMember : Substitutions := .ofPairs [(.unqualified "head", .qualified "urn:x" "m")]

/-- The head, or an element in some namespace. -/
def headOrOther : Particle :=
  .group .choice [.leaf (.element (.unqualified "head")) .once,
    .leaf (.wildcard ⟨.other none, .strict⟩) .once] .once

/-- The head and the wildcard both fit the member. -/
theorem not_attributesUniquely_headOrOther : ∃ content,
    headOrOther.compiled (some foreignMember.comparator) {} {} = .ok content ∧
      ¬ content.model.AttributesUniquely (some foreignMember.comparator) := by
  let head : Symbol := ⟨.element (.unqualified "head"), none⟩
  let other : Symbol := ⟨.wildcard ⟨.other none, .strict⟩, none⟩
  refine ⟨⟨.children, .children ⟨#[head, other], #[⟨[(0, 1), (1, 1)], false⟩, ⟨[], true⟩]⟩, some 2⟩,
    by decide +kernel, fun h => ?_⟩
  have heq := h [] _ rfl (.qualified "urn:x" "m") (head, 0) (by decide) (other, 1) (by decide)
    (by decide) (by decide)
  exact absurd heq (by decide)

/-! ## Words -/

section Words

variable {limits : Limits} {p : Particle} {st : Lowering} {content : Content}

/-- The model admits the words of the particle, where members may stand for heads. -/
def Model.Follows (m : Model) (s : Substitutions) (p : Particle) : Prop :=
  ∀ w, m.Admits (some s.comparator) w ↔ w ∈ p.words s.permits

/-- Without ambiguity, a model follows the table if leaves in use have no heads but those that may
stand for them. -/
theorem follows_iff (hp : p.containsAll = false)
    (h : p.compiled (some s.comparator) limits st = .ok content)
    (hno : ¬ p.IsAmbiguous (Leaf.fits (some s.comparator))) :
    content.model.Follows s p ↔
      ∀ e, p.Uses (.element e) → ∀ a, s.canSubstitute a e → s.canSubstitute e a := by
  have hall := isAll_eq_false hp
  have hl := (compiles_of_compiled hall h).1
  have hle : ∀ w ∈ p.words s.permits, w ∈ p.words (Leaf.fits (some s.comparator)) :=
    Particle.words_mono hl fun _ _ _ => Substitutions.fits_of_permits
  have heq : content.model.Follows s p ↔
      ∀ w ∈ p.words (Leaf.fits (some s.comparator)), w ∈ p.words s.permits := by
    unfold Model.Follows
    simp only [admits_iff_of_not_isAmbiguous hall h hno]
    exact ⟨fun h w => (h w).mp, fun h w => ⟨h w, hle w⟩⟩
  rw [heq, Particle.words_subset_iff hl exists_fits (fun l n => Substitutions.fits_of_permits) hno]
  constructor
  · intro h e he a ha
    exact h (.element e) he a (Substitutions.fits_element.mpr (.inr ha))
  · intro h l hl n hn
    cases l with
    | element e => exact (Substitutions.fits_element.mp hn).elim id (h e hl n)
    | wildcard w => exact hn

/-- A head may stand where its member is declared. -/
theorem admits_leaf (h : s.canSubstitute a e) : ∃ content,
    (Particle.leaf (.element e) .once).compiled (some s.comparator) {} {} = .ok content ∧
      content.model.Admits (some s.comparator) [a] := by
  refine ⟨⟨.children, .children ⟨#[⟨.element e, none⟩], #[⟨[(0, 1)], false⟩, ⟨[], true⟩]⟩, some 0⟩,
    ?_, ?_⟩
  · cbv
  · have hr := Substitutions.isRelated_iff.mpr (.inr h : s.Related e a)
    refine ⟨.children 1, ?_, rfl⟩
    by_cases hea : e = a <;>
      simp [Model.run?, Model.start, Model.offer?_children, Automaton.step?, Automaton.choices,
        firstLeast?, Symbol.rank?, hr, hea]

theorem permits_of_mem_words_leaf (h : [a] ∈ (Particle.leaf l .once).words s.permits) :
    s.permits l a := by
  rw [Particle.words, Particle.language, Occurs.once, Occurs.language_once] at h
  obtain ⟨b, hb, heq⟩ := h
  rwa [List.singleton_inj.mp heq]

/-- Perhaps an element, then one of another namespace. -/
def elementThenOther (e : Name) : Particle :=
  .group .sequence [.leaf (.element e) .optional, .leaf (.wildcard ⟨.other e.space, .lax⟩) .once]
    .once

/-- A member in another namespace is taken for the head that is optional. -/
theorem not_admits_elementThenOther (h : s.canSubstitute e n) (hne : e.space ≠ n.space) : ∃ content,
    (elementThenOther e).compiled (some s.comparator) {} {} = .ok content ∧
      ¬ content.model.Admits (some s.comparator) [n] := by
  refine ⟨⟨.children, .children ⟨#[⟨.element e, none⟩, ⟨.wildcard ⟨.other e.space, .lax⟩, none⟩],
    #[⟨[(0, 1), (1, 2)], false⟩, ⟨[(1, 2)], false⟩, ⟨[], true⟩]⟩, some 3⟩, ?_, ?_⟩
  · obtain ⟨space, localPart⟩ := e
    cases space <;> cbv
  · have hr := Substitutions.isRelated_iff.mpr (.inl h : s.Related e n)
    have hen : e ≠ n := fun heq => hne (congrArg Name.space heq)
    rintro ⟨st, hrun, hfin⟩
    have hw : (Wildcard.mk (.other e.space) .lax).allows n = true := by
      simpa [Wildcard.allows, Wildcard.Range.contains] using hne
    obtain rfl : ModelState.children 1 = st := by
      simpa [Model.run?, Model.start, Model.offer?_children, Automaton.step?, Automaton.choices,
        firstLeast?, Symbol.rank?, hr, hen, hw] using hrun
    simp [Model.finish, Automaton.isAccepting] at hfin

theorem words_elementThenOther (fits : Leaf → Name → Prop) :
    (elementThenOther e).words fits = Occurs.optional.language (letters (fits (.element e))) *
      letters (fits (.wildcard ⟨.other e.space, .lax⟩)) := by
  rw [Particle.words, elementThenOther, Particle.language, Occurs.once, Occurs.language_once]
  simp only [Particle.languages, Particle.language, Compositor.language_sequence, List.prod_cons,
    List.prod_nil, mul_one, Occurs.language_once]

theorem mem_words_elementThenOther (hne : e.space ≠ n.space) :
    [n] ∈ (elementThenOther e).words s.permits := by
  have hn : s.permits (.wildcard ⟨.other e.space, .lax⟩) n := by
    simpa [Substitutions.permits, Wildcard.allows, Wildcard.Range.contains] using hne
  rw [words_elementThenOther]
  exact Language.append_mem_mul (a := []) ⟨0, le_rfl, fun _ _ => Nat.zero_le _, rfl⟩ ⟨n, hn, rfl⟩

end Words

/-- Substitution goes both ways, within namespaces. -/
structure Substitutions.IsSymmetric (s : Substitutions) : Prop where
  symm : ∀ a b, s.canSubstitute a b → s.canSubstitute b a
  space : ∀ a b, s.canSubstitute a b → a.space = b.space

theorem Substitutions.IsSymmetric.isEquivalence (hs : s.IsSymmetric) : s.IsEquivalence where
  trans a b c hab hbc := by
    have one {a b : Name} (h : s.Related a b) : s.canSubstitute a b := h.elim id (hs.symm b a)
    exact .inl (canSubstitute_trans (one hab) (one hbc))
  space a b hab := by
    rcases hab with h | h
    · exact hs.space a b h
    · exact (hs.space b a h).symm

/-- **A compiled model admits the words where members stand for heads if and only if leaves in use
have no heads but those that may stand for them, unless the particle is ambiguous; all models of a
table do if and only if substitution goes both ways, within namespaces.** -/
theorem follows_iff_isSymmetric (s : Substitutions) :
    (∀ (p : Particle) (limits : Limits) (st : Lowering) (content : Content),
      p.containsAll = false → p.compiled (some s.comparator) limits st = .ok content →
        ¬ p.IsAmbiguous (Leaf.fits (some s.comparator)) → (content.model.Follows s p ↔
          ∀ e, p.Uses (.element e) → ∀ a, s.canSubstitute a e → s.canSubstitute e a)) ∧
    ((∀ (p : Particle) (limits : Limits) (st : Lowering) (content : Content),
      p.containsAll = false → p.compiled (some s.comparator) limits st = .ok content →
        content.model.Follows s p) ↔ s.IsSymmetric) := by
  refine ⟨fun p limits st content => follows_iff, fun h => ⟨fun a e hae => ?_, fun e n hen => ?_⟩,
    fun hs p limits st content hp h => ?_⟩
  · obtain ⟨content, hc, hadmits⟩ := admits_leaf hae
    exact permits_of_mem_words_leaf ((h _ _ _ _ rfl hc [a]).mp hadmits)
  · by_contra hne
    obtain ⟨content, hc, hno⟩ := not_admits_elementThenOther hen hne
    exact hno ((h _ _ _ _ rfl hc [n]).mpr (mem_words_elementThenOther hne))
  · have hu := attributesUniquely_of_overlaps h fun n l l' =>
      Substitutions.overlaps_of_fits hs.isEquivalence
    refine (follows_iff hp h ((attributesUniquely_compiled_iff h).mp hu)).mpr ?_
    exact fun e _ a hae => hs.symm a e hae

/-- A head whose group has one member. -/
def oneMember : Substitutions := .ofPairs [(.unqualified "head", .unqualified "member")]

/-- The head is admitted where its member is declared. -/
theorem admits_head_for_member : ∃ content,
    (Particle.leaf (.element (.unqualified "member")) .once).compiled
      (some oneMember.comparator) {} {} = .ok content ∧ ¬ content.model.Follows oneMember
        (.leaf (.element (.unqualified "member")) .once) := by
  obtain ⟨content, hc, hadmits⟩ := admits_leaf (s := oneMember) (a := .unqualified "head")
    (e := .unqualified "member") (by decide)
  refine ⟨content, hc, fun h => ?_⟩
  have hperm : oneMember.canSubstitute (.unqualified "member") (.unqualified "head") = true :=
    permits_of_mem_words_leaf ((h _).mp hadmits)
  exact absurd hperm (by decide)

end MarkupGrammar
