import MarkupGrammar.Proofs.Content.Attribution
import MarkupGrammar.Proofs.Content.Earlier
import MarkupGrammar.Proofs.Numbering
import MarkupGrammar.Proofs.Particle.Use

/-! # Names in mixed content

The particle of mixed content is compiled as one of element content and then only its leaves are
kept, those that a range prohibits with the others. So without a comparator the model of the mixed
content allows the names that occur in the element content, and those that a prohibited leaf matches
(`allows_mixed_iff`); they are the same names if and only if the leaves in use match all that the
prohibited ones match. -/

namespace MarkupGrammar

open Construction

variable {c : Option Comparator} {limits : Limits} {p : Particle} {s : Lowering}
  {content mixed : Content} {n : Name}

/-! ## Names of element content -/

/-- **The names that occur in admitted words** are those that the leaves in use match. -/
theorem exists_admits_iff (hp : p.isAll = false) (h : p.compiled none limits s = .ok content) :
    (∃ w, content.model.Admits none w ∧ n ∈ w) ↔ ∃ l, p.Uses l ∧ l.accepts n := by
  obtain ⟨hl, a, k, start, found, -, ha⟩ := compiles_of_compiled hp h
  have hu := uniqueRuns_of_overlaps ha (oneLeaf_positionTree hl) fun _ _ _ => overlaps_of_fits_none
  have hno := not_isAmbiguous_of_uniqueRuns hl ha hu
  simp only [admits_iff_of_not_isAmbiguous hp h hno]
  rw [Particle.exists_mem_words_iff hl exists_fits]
  simp only [Leaf.fits_none]

/-! ## Mixed content -/

theorem Symbol.mem_ofLeaves {ls : List Leaf} {x : Symbol} :
    x ∈ Symbol.ofLeaves ls ↔ ∃ l ∈ ls, x = ⟨l, none⟩ := by
  have hmem := (foldl_distinct [] ls List.nodup_nil).2
  simp only [ofLeaves, List.mem_map, hmem, List.not_mem_nil, false_or, eq_comm (b := x)]

/-- What a particle compiles to as mixed content, or why it does not. -/
def Particle.compiledMixed (c : Option Comparator) (limits : Limits) (p : Particle) (s : Lowering) :
    Except Failure Content :=
  ((ContentDraft.compile c limits (.mixedComplex (some p))).run.run s).1

/-- Mixed content compiles where element content does, and keeps the leaves of the particle. -/
theorem of_compiledMixed (h : p.compiledMixed c limits s = .ok mixed) :
    mixed.model = .mixed (Symbol.ofLeaves p.leaves) ∧
      ∃ content, p.compiled c limits s = .ok content := by
  have hmixed : p.compiledMixed c limits s =
      ((ContentDraft.compileParticle c limits p).run.run s).1.map fun r =>
        { category := .mixedComplex, model := .mixed (Symbol.ofLeaves p.leaves),
          expression? := r.2 } :=
    congrArg Prod.fst (ContentDraft.run_map _ _ s)
  have hchildren : p.compiled c limits s =
      ((ContentDraft.compileParticle c limits p).run.run s).1.map fun r =>
        { category := .children, model := r.1, expression? := r.2 } :=
    congrArg Prod.fst (ContentDraft.run_map _ _ s)
  rw [hmixed] at h
  rw [hchildren]
  obtain ⟨r, hr, rfl⟩ := of_map_eq_ok h
  rw [hr]
  exact ⟨rfl, _, rfl⟩

/-- A name is allowed in mixed content if a leaf of its particle matches it. -/
theorem isSome_offer?_compiledMixed (h : p.compiledMixed none limits s = .ok mixed) :
    (mixed.model.offer? none mixed.model.start n).isSome ↔ ∃ l ∈ p.leaves, l.accepts n := by
  rw [(of_compiledMixed h).1, Model.isSome_offer?_mixed]
  simp only [Symbol.mem_ofLeaves, Leaf.fits_none]
  constructor
  · rintro ⟨_, ⟨l, hl, rfl⟩, hn⟩
    exact ⟨l, hl, hn⟩
  · rintro ⟨l, hl, hn⟩
    exact ⟨_, ⟨l, hl, rfl⟩, hn⟩

/-- **Mixed content allows the names of the element content and those that are prohibited**, and no
others; these are the names of the element content alone if and only if each prohibited name is also
one that a leaf in use matches. -/
theorem allows_mixed_iff (hp : p.isAll = false) (h : p.compiledMixed none limits s = .ok mixed) :
    ∃ content, p.compiled none limits s = .ok content ∧
      (∀ n, (mixed.model.offer? none mixed.model.start n).isSome ↔
        (∃ w, content.model.Admits none w ∧ n ∈ w) ∨ ∃ l, p.Prohibits l ∧ l.accepts n) ∧
      ((∀ n, (mixed.model.offer? none mixed.model.start n).isSome ↔
          ∃ w, content.model.Admits none w ∧ n ∈ w) ↔
        ∀ l, p.Prohibits l → ∀ n, l.accepts n → ∃ l', p.Uses l' ∧ l'.accepts n) := by
  obtain ⟨-, content, hcontent⟩ := of_compiledMixed h
  have hallows (n : Name) : (mixed.model.offer? none mixed.model.start n).isSome ↔
      (∃ w, content.model.Admits none w ∧ n ∈ w) ∨ ∃ l, p.Prohibits l ∧ l.accepts n := by
    rw [isSome_offer?_compiledMixed h, exists_admits_iff hp hcontent]
    simp only [Particle.mem_leaves_iff, or_and_right, exists_or]
  refine ⟨content, hcontent, hallows, ?_⟩
  simp only [hallows, exists_admits_iff hp hcontent]
  constructor
  · intro hsame l hl n hn
    exact (hsame n).mp (.inr ⟨l, hl, hn⟩)
  · intro hused n
    refine ⟨?_, .inl⟩
    rintro (hn | ⟨l, hl, hn⟩)
    · exact hn
    · exact hused l hl n hn

/-- A title with perhaps some notes, in which a further title and an all-group with an appendix are
prohibited. -/
def titleWithNotes : Particle :=
  .group .sequence
    [.leaf (.element (.unqualified "title")) .once,
      .leaf (.element (.unqualified "title")) ⟨0, some 0⟩,
      .group .choice [.leaf (.element (.unqualified "note")) ⟨2, some 3⟩] .optional,
      .group .all [.leaf (.element (.unqualified "appendix")) .once] ⟨0, some 0⟩]
    .once

theorem allows_mixed_titleWithNotes : ∃ mixed content,
    titleWithNotes.compiledMixed none {} {} = .ok mixed ∧
      titleWithNotes.compiled none {} {} = .ok content ∧
      ∀ n, (mixed.model.offer? none mixed.model.start n).isSome ↔
        (∃ w, content.model.Admits none w ∧ n ∈ w) ∨
          ∃ l, titleWithNotes.Prohibits l ∧ l.accepts n := by
  have hok : (titleWithNotes.compiledMixed none {} {}).isOk := by decide +kernel
  obtain ⟨mixed, h⟩ := exists_of_isOk hok
  obtain ⟨content, hcontent, hallows, -⟩ := allows_mixed_iff rfl h
  exact ⟨mixed, content, h, hcontent, hallows⟩

/-- An element behind which another one is prohibited. -/
def prohibitedElement : Particle :=
  .group .sequence
    [.leaf (.element (.unqualified "a")) .once, .leaf (.element (.unqualified "b")) ⟨0, some 0⟩]
    .once

/-- A prohibited name that no leaf in use matches is allowed in mixed content, while it occurs in no
word of the element content. -/
theorem exists_prohibited_allowed : ∃ mixed content,
    prohibitedElement.compiledMixed none {} {} = .ok mixed ∧
      prohibitedElement.compiled none {} {} = .ok content ∧
      (mixed.model.offer? none mixed.model.start (.unqualified "b")).isSome ∧
      ¬ ∃ w, content.model.Admits none w ∧ .unqualified "b" ∈ w := by
  have hok : (prohibitedElement.compiledMixed none {} {}).isOk := by decide +kernel
  obtain ⟨mixed, h⟩ := exists_of_isOk hok
  obtain ⟨-, content, hcontent⟩ := of_compiledMixed h
  refine ⟨mixed, content, h, hcontent, ?_, fun hw => ?_⟩
  · exact (isSome_offer?_compiledMixed h).mpr ⟨.element (.unqualified "b"), by decide, by decide⟩
  · obtain ⟨l, hl, hn⟩ := (exists_admits_iff rfl hcontent).mp hw
    cases hl with
    | group _ hq hl =>
      simp only [List.mem_cons, List.not_mem_nil, or_false] at hq
      rcases hq with rfl | rfl
      · cases hl with
        | leaf _ => exact absurd hn (by decide)
      · cases hl with
        | leaf ho => exact absurd ho (by decide)

end MarkupGrammar
