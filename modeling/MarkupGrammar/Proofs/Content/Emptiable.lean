import MarkupGrammar.Proofs.Content.Counts
import MarkupGrammar.Proofs.Lowering.Source

/-! # Content without children

A compiled model may end at its start if and only if the empty word satisfies the particle, with or
without a comparator. The test for emptiable particles agrees with this up to choices without
members, which it takes for particles that need a child (`finish_start_iff_isEmptiable`). -/

namespace MarkupGrammar

/-! ## The empty word

A group without members denotes the empty word, also where it is a choice. The test for emptiable
particles looks for an emptiable member of a choice, though, and there is none. So the empty word
satisfies a particle if and only if the particle is emptiable with its choices without members
written as sequences (`nil_mem_language_iff`). -/

/-! ## Languages with the empty word -/

section Languages

variable {α : Type} {L L' : Language α} {Ls : List (Language α)}

theorem nil_mem_mul : [] ∈ L * L' ↔ [] ∈ L ∧ [] ∈ L' := by
  simp [Language.mem_mul]

theorem nil_mem_pow {k : Nat} : [] ∈ L ^ k ↔ k = 0 ∨ [] ∈ L := by
  induction k with
  | zero => simp
  | succ k ih =>
    rw [pow_succ, nil_mem_mul, ih]
    tauto

theorem nil_mem_prod : [] ∈ Ls.prod ↔ ∀ L ∈ Ls, [] ∈ L := by
  induction Ls with
  | nil => simp
  | cons L Ls ih => rw [List.prod_cons, nil_mem_mul, ih, List.forall_mem_cons]

/-- A range in order allows the empty word if no repetition is required, or if it may be
repeated. -/
theorem Occurs.nil_mem_language {o : Occurs} (ho : o.check = .ok ()) :
    [] ∈ o.language L ↔ o.min = 0 ∨ [] ∈ L := by
  have hle : ∀ max ∈ o.max, o.min ≤ max := by
    obtain ⟨min, max⟩ := o
    rintro max rfl
    exact Occurs.check_some.mp ho
  constructor
  · rintro ⟨k, hk, -, hw⟩
    exact (nil_mem_pow.mp hw).imp_left fun h => by omega
  · exact fun h => ⟨o.min, le_rfl, hle, nil_mem_pow.mpr h⟩

end Languages

namespace Particle

/-! ## Choices without members -/

mutual
/-- The particle with its choices without members written as sequences. -/
def withEmptySequences : Particle → Particle
  | .leaf l o => .leaf l o
  | .group c ms o =>
    .group (if c == .choice && ms.isEmpty then .sequence else c) (allWithEmptySequences ms) o

/-- The same for several particles. -/
def allWithEmptySequences : List Particle → List Particle
  | [] => []
  | p :: ps => p.withEmptySequences :: allWithEmptySequences ps
end

/-- Some group in the particle is a choice without members. -/
inductive HasEmptyChoice : Particle → Prop
  | here {o : Occurs} : HasEmptyChoice (.group .choice [] o)
  | member {c : Compositor} {ms : List Particle} {o : Occurs} {p : Particle} :
    p ∈ ms → HasEmptyChoice p → HasEmptyChoice (.group c ms o)

mutual
theorem withEmptySequences_eq_self : ∀ p : Particle, ¬ p.HasEmptyChoice → p.withEmptySequences = p
  | .leaf _ _, _ => rfl
  | .group c ms o, h => by
    have hc : (c == .choice && ms.isEmpty) = false := by
      by_contra hc
      obtain ⟨rfl, rfl⟩ : c = .choice ∧ ms = [] := by simpa using hc
      exact h .here
    rw [withEmptySequences, hc, allWithEmptySequences_eq_self ms fun p hp h' => h (.member hp h')]
    rfl

theorem allWithEmptySequences_eq_self : ∀ ps : List Particle, (∀ p ∈ ps, ¬ p.HasEmptyChoice) →
    allWithEmptySequences ps = ps
  | [], _ => rfl
  | p :: ps, h => by
    obtain ⟨hp, hps⟩ := List.forall_mem_cons.mp h
    rw [allWithEmptySequences, withEmptySequences_eq_self p hp,
      allWithEmptySequences_eq_self ps hps]
end

mutual
/-- An emptiable particle stays so. -/
theorem isEmptiable_withEmptySequences : ∀ p : Particle, p.isEmptiable →
    p.withEmptySequences.isEmptiable
  | .leaf _ _, h => h
  | .group c ms o, h => by
    unfold isEmptiable at h
    unfold withEmptySequences isEmptiable
    simp only [Bool.or_eq_true] at h ⊢
    refine h.imp_right fun h => ?_
    cases c with
    | choice =>
      cases ms with
      | nil => exact absurd h Bool.noConfusion
      | cons p ps => exact (allWithEmptySequences_imp (p :: ps)).1 h
    | sequence | all => exact (allWithEmptySequences_imp ms).2 h

theorem allWithEmptySequences_imp : ∀ ps : List Particle,
    (anyEmptiable ps → anyEmptiable (allWithEmptySequences ps)) ∧
      (allEmptiable ps → allEmptiable (allWithEmptySequences ps))
  | [] => ⟨id, id⟩
  | p :: ps => by
    have hp := isEmptiable_withEmptySequences p
    have hps := allWithEmptySequences_imp ps
    simp only [allWithEmptySequences, anyEmptiable, allEmptiable, Bool.or_eq_true,
      Bool.and_eq_true]
    exact ⟨Or.imp hp hps.1, And.imp hp hps.2⟩
end

/-! ## The empty word of a particle -/

/-- Where a range is in order, one that prohibits also requires nothing. -/
theorem isEmptiable_or_isEmpty_iff {o : Occurs} (ho : o.check = .ok ()) :
    (o.isEmptiable || o.isEmpty) = true ↔ o.min = 0 := by
  obtain ⟨min, max⟩ := o
  simp only [Occurs.isEmptiable, Occurs.isEmpty, Bool.or_eq_true, beq_iff_eq]
  constructor
  · rintro (h | rfl)
    · exact h
    · exact Nat.le_zero.mp (Occurs.check_some.mp ho)
  · exact .inl

mutual
/-- **The empty word satisfies a particle if it is emptiable** with its choices without members
written as sequences. -/
theorem nil_mem_language_iff {α : Type} (m : Place → Leaf → α → Prop) :
    ∀ p : Particle, p.Lowerable → ([] ∈ p.language m ↔ p.withEmptySequences.isEmptiable)
  | .leaf l o, h => by
    have hletters : [] ∉ letters (m [] l) := by
      rintro ⟨a, -, ha⟩
      exact List.cons_ne_nil _ _ ha.symm
    unfold language withEmptySequences isEmptiable
    rw [Occurs.nil_mem_language h, isEmptiable_or_isEmpty_iff h]
    exact or_iff_left hletters
  | .group c ms o, h => by
    unfold language withEmptySequences isEmptiable
    rw [Occurs.nil_mem_language h.1, Bool.or_eq_true, isEmptiable_or_isEmpty_iff h.1]
    by_cases hmin : o.min = 0
    · exact iff_of_true (.inl hmin) (.inl hmin)
    · refine or_congr_right ?_
      have ho : o.isEmpty = false := by
        by_contra ho
        have ho : o.isEmpty = true := by simpa using ho
        exact hmin ((isEmptiable_or_isEmpty_iff h.1).mp (by simp [ho]))
      obtain ⟨hc, hms⟩ := h.2 ho
      obtain ⟨hany, hall⟩ := nil_mem_languages_iff m 0 ms hms
      cases c with
      | sequence => exact nil_mem_prod.trans hall
      | choice =>
        cases ms with
        | nil => exact iff_of_true Language.nil_mem_one rfl
        | cons p ps => exact (Compositor.mem_language_choice (List.cons_ne_nil _ _)).trans hany
      | all => exact absurd rfl hc

theorem nil_mem_languages_iff {α : Type} (m : Place → Leaf → α → Prop) (k : Nat) :
    ∀ ps : List Particle, LowerableAll ps →
      ((∃ L ∈ languages m k ps, [] ∈ L) ↔ anyEmptiable (allWithEmptySequences ps)) ∧
        ((∀ L ∈ languages m k ps, [] ∈ L) ↔ allEmptiable (allWithEmptySequences ps))
  | [], _ => by simp [languages, allWithEmptySequences, anyEmptiable, allEmptiable]
  | p :: ps, h => by
    have hp := nil_mem_language_iff (fun place => m (k :: place)) p h.1
    obtain ⟨hany, hall⟩ := nil_mem_languages_iff m (k + 1) ps h.2
    simp only [languages, allWithEmptySequences, anyEmptiable, allEmptiable, Bool.or_eq_true,
      Bool.and_eq_true, List.exists_mem_cons_iff, List.forall_mem_cons, hp, hany, hall, and_self]
end

end Particle

/-! ## Models that may end at their start -/

open Construction

variable {c : Option Comparator} {limits : Limits} {p : Particle} {s : Lowering}
  {content : Content}

/-- An automaton that was constructed for a tree may end at its start if the empty word is in the
language. -/
theorem Automaton.finish_start_iff {a : Automaton} {e : ExpressionTree Position} {k : Setup}
    {start : NumberSet} {found : Array NumberSet} (h : a.Realizes c e k start found) :
    (Model.children a).finish (Model.children a).start = .ok () ↔
      [] ∈ e.language fun x n => x.leaf.fits c n :=
  (finish_iff h h.explored.first).trans
    ((h.exact_start (Leaf.fits c) _).trans ExpressionTree.next_length)

/-- An all-group may end at its start if it is optional or requires none of its members. -/
theorem AllGroup.finish_start_iff {g : AllGroup} :
    (Model.all g).finish (Model.all g).start = .ok () ↔
      g.emptiable ∨ ∀ m ∈ g.members, m.occurs.min = 0 := by
  refine (AllGroup.finish_all (w := [])).trans ?_
  simp [AllMember.counter, AllMember.count]

/-- The members of an all-group are emptiable if none is required. -/
theorem allEmptiable_of_isMember {ms : List Particle} {members : List AllMember}
    (h : List.Forall₂ IsMember ms members) :
    Particle.allEmptiable (Particle.allWithEmptySequences ms) ↔
      ∀ m ∈ members, m.occurs.min = 0 := by
  induction h with
  | nil => simp [Particle.allWithEmptySequences, Particle.allEmptiable]
  | @cons p m ms members hm _ ih =>
    obtain ⟨rfl, hmin, hmax⟩ := hm
    have ho : m.occurs.check = .ok () := by
      unfold Occurs.check
      split
      · rename_i max hm
        rw [if_neg (by rw [hmax max hm]; omega)]
      · rfl
    simp only [Particle.allWithEmptySequences, Particle.allEmptiable, Bool.and_eq_true, ih,
      List.forall_mem_cons]
    exact and_congr_left fun _ => Particle.isEmptiable_or_isEmpty_iff ho

/-- A compiled model may end at its start if its particle is emptiable with its choices without
members written as sequences. -/
theorem finish_start_iff_withEmptySequences (h : p.compiled c limits s = .ok content) :
    content.model.finish content.model.start = .ok () ↔ p.withEmptySequences.isEmptiable := by
  cases hp : p.isAll with
  | false =>
    obtain ⟨hl, a, k, start, found, hm, ha⟩ := compiles_of_compiled hp h
    rw [hm, Automaton.finish_start_iff ha, ← Particle.words_eq hl]
    exact Particle.nil_mem_language_iff _ p hl
  | true =>
    obtain ⟨g, hm, hg⟩ := exists_ofParticle_of_compiled hp h
    obtain ⟨ms, o, rfl⟩ := Particle.exists_eq_all hp
    obtain ⟨hmin, hmax, hms, -⟩ := ofParticle_spec hg
    have ho : o.check = .ok () := by
      obtain ⟨min, max⟩ := o
      obtain rfl : max = some 1 := hmax
      exact Occurs.check_some.mpr hmin
    rw [hm, AllGroup.finish_start_iff, emptiable_of_ofParticle hg, ← allEmptiable_of_isMember hms,
      ← Particle.isEmptiable_or_isEmpty_iff ho, ← Bool.or_eq_true]
    rfl

/-- **An emptiable particle is one whose content may have no children**, up to choices without
members: the model may end at its start if the particle is emptiable with such choices written as
sequences. So it may where the particle itself is emptiable, and nowhere else if there are no such
choices. -/
theorem finish_start_iff_isEmptiable (h : p.compiled c limits s = .ok content) :
    (content.model.finish content.model.start = .ok () ↔ p.withEmptySequences.isEmptiable) ∧
      (p.isEmptiable → content.model.finish content.model.start = .ok ()) ∧
      (¬ p.HasEmptyChoice →
        (content.model.finish content.model.start = .ok () ↔ p.isEmptiable)) := by
  have hiff := finish_start_iff_withEmptySequences h
  refine ⟨hiff, fun hp => hiff.mpr (p.isEmptiable_withEmptySequences hp), fun hno => ?_⟩
  rw [hiff, Particle.withEmptySequences_eq_self p hno]

/-- Up to three notes or nothing, behind a prohibited all-group and any number of remarks. -/
def optionalNotes : Particle :=
  .group .sequence
    [.group .all [.leaf (.element (.unqualified "title")) .once] ⟨0, some 0⟩,
      .leaf (.element (.unqualified "remark")) .zeroOrMore,
      .group .choice
        [.leaf (.element (.unqualified "note")) ⟨2, some 3⟩, .group .sequence [] .oneOrMore]
        .once]
    .once

theorem finish_start_optionalNotes :
    let c := (Substitutions.ofPairs [(.unqualified "note", .unqualified "warning")]).comparator
    ∃ content, optionalNotes.compiled (some c) {} {} = .ok content ∧ optionalNotes.isEmptiable ∧
      content.model.finish content.model.start = .ok () := by
  intro c
  have hok : (optionalNotes.compiled (some c) {} {}).isOk := by decide +kernel
  have hp : optionalNotes.isEmptiable := by decide
  obtain ⟨content, h⟩ := exists_of_isOk hok
  exact ⟨content, h, hp, (finish_start_iff_isEmptiable h).2.1 hp⟩

/-- A choice without members is not emptiable, while its content may have no children. -/
theorem exists_not_isEmptiable_ends :
    let p : Particle := .group .choice [] .once
    ∃ content, p.compiled none {} {} = .ok content ∧ p.isEmptiable = false ∧
      content.model.finish content.model.start = .ok () := by
  intro p
  have hok : (p.compiled none {} {}).isOk := by decide +kernel
  obtain ⟨content, h⟩ := exists_of_isOk hok
  exact ⟨content, h, rfl, (finish_start_iff_withEmptySequences h).mpr rfl⟩

end MarkupGrammar
