import MarkupGrammar.Proofs.Pattern.Anchors
import MarkupGrammar.Proofs.SimpleType.FacetOrder

/-! # Pattern facets

The patterns of a type are compiled from its pattern facets and count as one facet
(`TypeDraft.exists_patterns_of_compile`). Under the engine for regular expressions a literal passes
it if one of the notations matches the treated literal as a whole, as long as none of them closes
the group between its anchors (`TypeDraft.regular_patterns`). -/

namespace MarkupGrammar

open Pattern

/-! ## Patterns of a type -/

/-- The notation of a pattern facet. -/
def FacetDraft.source? : FacetDraft → Option String
  | pattern source => some source
  | enumeration _ | length _ _ | bound _ _ | spacing _ | assertion _ => none

/-- The facet is the one of all patterns. -/
def Facet.IsPatterns (f : Facet) : Prop := ∃ ps, f = .patterns ps

namespace TypeDraft

variable {engine : PatternEngine} {t : TypeDraft} {base : SimpleType} {ctx : ValueContext}
  {d : Definition} {p p' : Progress} {f : FacetDraft} {fs : List FacetDraft}
  {read : Spacing → String → Except Fault Value}

/-- The notations of the pattern facets. -/
def sources (t : TypeDraft) : List String := t.facets.filterMap FacetDraft.source?

/-- The patterns are the compiled notations. -/
def Compiled (engine : PatternEngine) : List String → List CompiledPattern → Prop :=
  List.Forall₂ fun source c => engine.compile source = .ok c

/-- Compiling some facets adds the patterns of their notations, and facets of other kinds. -/
structure Adds (engine : PatternEngine) (sources : List String) (p p' : Progress) : Prop where
  patterns : ∃ cs, Compiled engine sources cs ∧ p'.patterns = p.patterns ++ cs
  facets : ∀ g ∈ p'.facets, g ∈ p.facets ∨ ¬ g.IsPatterns

theorem Adds.refl (engine : PatternEngine) (p : Progress) : Adds engine [] p p :=
  ⟨⟨[], .nil, (List.append_nil _).symm⟩, fun _ hg => .inl hg⟩

theorem Adds.trans {ss ss' : List String} {p'' : Progress} (h : Adds engine ss p p')
    (h' : Adds engine ss' p' p'') : Adds engine (ss ++ ss') p p'' := by
  obtain ⟨⟨cs, hcs, hp⟩, hfacets⟩ := h
  obtain ⟨⟨cs', hcs', hp'⟩, hfacets'⟩ := h'
  refine ⟨⟨cs ++ cs', List.rel_append hcs hcs', ?_⟩, fun g hg => ?_⟩
  · rw [hp', hp, List.append_assoc]
  · rcases hfacets' g hg with hg | hg
    · exact hfacets g hg
    · exact .inr hg

/-- Another facet adds itself. -/
theorem adds_facet {g : Facet} (hg : ¬ g.IsPatterns) :
    Adds engine [] p { p with facets := p.facets ++ [g] } := by
  refine ⟨⟨[], .nil, (List.append_nil _).symm⟩, fun g' hg' => ?_⟩
  rcases List.mem_append.mp hg' with hg' | hg'
  · exact .inl hg'
  · rw [List.mem_singleton.mp hg']
    exact .inr hg

theorem adds_of_add (h : p.add engine read f = .ok p') : Adds engine f.source?.toList p p' := by
  cases f with
  | spacing w =>
    obtain rfl := Except.ok.inj h
    exact ⟨⟨[], .nil, (List.append_nil _).symm⟩, fun g hg => .inl hg⟩
  | pattern source =>
    rw [Progress.add] at h
    split at h
    · rename_i c hc
      obtain rfl := Except.ok.inj h
      exact ⟨⟨[c], .cons hc .nil, rfl⟩, fun g hg => .inl hg⟩
    · simp at h
  | enumeration literals =>
    obtain ⟨values, -, h⟩ := of_bind_eq_ok h
    obtain rfl := Except.ok.inj h
    exact adds_facet (by simp [Facet.IsPatterns])
  | bound side literal =>
    obtain ⟨value, -, h⟩ := of_bind_eq_ok h
    obtain rfl := Except.ok.inj h
    exact adds_facet (by simp [Facet.IsPatterns])
  | length kind n =>
    obtain rfl := Except.ok.inj h
    exact adds_facet (by simp [Facet.IsPatterns])
  | assertion expression =>
    obtain rfl := Except.ok.inj h
    exact adds_facet (by simp [Facet.IsPatterns])

theorem adds_of_foldlM (h : fs.foldlM (Progress.add engine read) p = .ok p') :
    Adds engine (fs.filterMap FacetDraft.source?) p p' := by
  induction fs generalizing p with
  | nil =>
    obtain rfl := Except.ok.inj h
    exact Adds.refl engine p
  | cons f fs ih =>
    rw [List.foldlM_cons] at h
    obtain ⟨p₁, hp₁, h⟩ := of_bind_eq_ok h
    have hadds := (adds_of_add hp₁).trans (ih h)
    cases hf : f.source? with
    | none =>
      rw [List.filterMap_cons_none hf]
      rwa [hf] at hadds
    | some source =>
      rw [List.filterMap_cons_some hf]
      rwa [hf] at hadds

/-- **The patterns of a type** are compiled from its pattern facets and make one facet, the last
one; without them there is no such facet. -/
theorem exists_patterns_of_compile (h : t.compile base engine ctx = .ok d) :
    ∃ cs others, Compiled engine t.sources cs ∧
      d.facets = others ++ (if cs.isEmpty then [] else [.patterns cs]) ∧
        ∀ g ∈ others, ¬ g.IsPatterns := by
  have hcompile := compile_withFacets t t.facets base engine ctx
  change t.compile base engine ctx = _ at hcompile
  rw [h] at hcompile
  obtain ⟨p, hp, hd⟩ := of_bind_eq_ok hcompile.symm
  obtain rfl := Except.ok.inj hd
  obtain ⟨⟨cs, hcs, hpatterns⟩, hfacets⟩ := adds_of_foldlM hp
  refine ⟨cs, p.facets, hcs, ?_, fun g hg => ?_⟩
  · rw [List.nil_append] at hpatterns
    rw [finished, hpatterns]
  · exact (hfacets g hg).resolve_left List.not_mem_nil

/-- A value passes the facets if it passes those of other kinds and one of the patterns, if there
are any, accepts its literal. -/
theorem forall_check_iff {cs : List CompiledPattern} {others : List Facet} {name : Name}
    {literal : String} {v : Value} (hothers : ∀ g ∈ others, ¬ g.IsPatterns) :
    (∀ g ∈ others ++ (if cs.isEmpty then [] else [Facet.patterns cs]),
        g.check name ctx literal v = .ok ()) ↔
      (∀ g ∈ others ++ (if cs.isEmpty then [] else [Facet.patterns cs]),
        ¬ g.IsPatterns → g.check name ctx literal v = .ok ()) ∧
        (cs = [] ∨ ∃ c ∈ cs, c.accepts literal) := by
  have hcheck : (Facet.patterns cs).check name ctx literal v = .ok () ↔
      ∃ c ∈ cs, c.accepts literal := by
    rw [Facet.check]
    split
    · rename_i hany
      simpa using hany
    · rename_i hany
      simpa using hany
  constructor
  · intro h
    refine ⟨fun g hg _ => h g hg, ?_⟩
    by_cases hcs : cs = []
    · exact .inl hcs
    · refine .inr (hcheck.mp (h _ ?_))
      rw [if_neg (by simpa using hcs)]
      exact List.mem_append_right _ (List.mem_singleton.mpr rfl)
  · rintro ⟨h, hcs⟩ g hg
    rcases List.mem_append.mp hg with hg' | hg'
    · exact h g hg (hothers g hg')
    · split at hg'
      · exact absurd hg' List.not_mem_nil
      · rename_i hne
        rw [List.mem_singleton.mp hg']
        exact hcheck.mpr (hcs.resolve_left (by simpa using hne))

/-! ## Regular expressions -/

theorem compile_regular_eq_ok_iff {source : String} {c : CompiledPattern} :
    PatternEngine.regular.compile source = .ok c ↔
      ∃ a, anchored source = .ok a ∧ c = ⟨source, a.accepts⟩ := by
  simp only [PatternEngine.regular]
  split
  · rename_i a ha
    simp [ha, eq_comm]
  · rename_i fault hfault
    simp [hfault]

/-- A notation matches a literal as a whole. -/
def Matches (source literal : String) : Prop :=
  ∃ p, read? source.toList = some p ∧ p.MatchesWhole literal.toList

theorem exists_accepts_iff {sources : List String} {cs : List CompiledPattern} {literal : String}
    (h : Compiled .regular sources cs) (hvalid : ∀ s ∈ sources, ¬ ClosesGroup s.toList) :
    (∃ c ∈ cs, c.accepts literal) ↔ ∃ s ∈ sources, Matches s literal := by
  induction h with
  | nil => simp
  | @cons source c sources cs hc _ ih =>
    obtain ⟨hsource, hsources⟩ := List.forall_mem_cons.mp hvalid
    obtain ⟨a, ha, rfl⟩ := compile_regular_eq_ok_iff.mp hc
    obtain ⟨p, hp⟩ := Option.ne_none_iff_exists'.mp ((read?_eq_none_iff ha).not.mpr hsource)
    have hmatches : Matches source literal ↔ a.accepts literal := by
      rw [accepts_iff ha hp, Matches]
      simp [hp]
    rw [List.exists_mem_cons_iff, List.exists_mem_cons_iff, ih hsources, hmatches]

/-- **Patterns as regular expressions.** A notation that compiles is a regular expression by itself,
and its automaton is not too large, unless it closes the group between its anchors; it accepts the
literals that it matches as a whole. A type whose patterns do not close the group accepts what its
base can read, its other facets let pass and, if it has patterns, one of them matches as a whole
after the treatment of white space. -/
theorem regular_patterns {source : String} {compiled : CompiledPattern}
    (hsource : PatternEngine.regular.compile source = .ok compiled)
    (ht : t.compile base .regular ctx = .ok d) :
    ((∃ p, read? source.toList = some p ∧ p.isTooLarge = false) ↔ ¬ ClosesGroup source.toList) ∧
    (∀ p, read? source.toList = some p →
      ∀ literal, compiled.accepts literal ↔ p.MatchesWhole literal.toList) ∧
    ((∀ s ∈ t.sources, ¬ ClosesGroup s.toList) → ∀ ctx literal v,
      (SimpleType.derived d base).validate ctx literal = .ok v ↔
        SimpleType.readByBase (base.validate ctx) d.variety (d.spacing.normalize literal) = .ok v ∧
        (∀ g ∈ d.facets, ¬ g.IsPatterns →
          g.check d.name ctx (d.spacing.normalize literal) v = .ok ()) ∧
        (t.sources = [] ∨ ∃ s ∈ t.sources, Matches s (d.spacing.normalize literal))) := by
  obtain ⟨a, ha, rfl⟩ := compile_regular_eq_ok_iff.mp hsource
  refine ⟨?_, fun p hp => accepts_iff ha hp, fun hvalid ctx' literal v => ?_⟩
  · rw [← read?_eq_none_iff ha]
    constructor
    · rintro ⟨p, hp, -⟩ hnone
      rw [hnone] at hp
      exact nomatch hp
    · intro hne
      obtain ⟨p, hp⟩ := Option.ne_none_iff_exists'.mp hne
      exact ⟨p, hp, isTooLarge_eq_false ha hp⟩
  · obtain ⟨cs, others, hcs, hfacets, hothers⟩ := exists_patterns_of_compile ht
    have hempty : cs = [] ↔ t.sources = [] := by
      rw [← List.length_eq_zero_iff, ← List.length_eq_zero_iff, hcs.length_eq]
    rw [SimpleType.validate_eq_ok_iff, hfacets, forall_check_iff hothers, hempty,
      exists_accepts_iff hcs hvalid]

/-- A type with the pattern "ab*": it accepts "abb", which the pattern matches as a whole. -/
theorem regular_patterns_star :
    let t : TypeDraft := { name := .unqualified "code", base := .unqualified "string",
                           facets := [.pattern "ab*"] }
    let string := SimpleType.builtin ⟨"string", some "anySimpleType", .preserve, .atomic .text⟩
    let p := cat (text ['a']) (repeated (text ['b']) 0 none)
    read? "ab*".toList = some p ∧ p.MatchesWhole "abb".toList ∧
      ∃ d, t.compile string .regular {} = .ok d ∧
        (SimpleType.derived d string).validate {} "abb" = .ok (.string "abb") := by
  intro t string p
  have hread : read? "ab*".toList = some p := rfl
  have hsource : PatternEngine.regular.compile "ab*" = .ok _ := rfl
  have ht : t.compile string .regular {} = .ok _ := rfl
  obtain ⟨hvalid, haccepts, hvalues⟩ := regular_patterns hsource ht
  have hgroup : ¬ ClosesGroup "ab*".toList := hvalid.mp ⟨p, hread, by decide⟩
  have hmatches : p.MatchesWhole "abb".toList :=
    (haccepts p hread "abb").mp (by decide +kernel)
  refine ⟨hread, hmatches, _, rfl, (hvalues ?_ {} "abb" _).mpr ⟨rfl, ?_, .inr ?_⟩⟩
  · intro s hs
    rw [List.mem_singleton.mp hs]
    exact hgroup
  · intro g hg hother
    exact absurd ⟨_, List.mem_singleton.mp hg⟩ hother
  · exact ⟨"ab*", List.mem_singleton.mpr rfl, p, hread, hmatches⟩

/-- A notation that closes the group between its anchors compiles although it is no regular
expression by itself, and accepts what begins with its first part. -/
theorem exists_regular_closingGroup :
    ∃ compiled, PatternEngine.regular.compile "a)|(?:b" = .ok compiled ∧
      read? "a)|(?:b".toList = none ∧ compiled.accepts "ax" :=
  ⟨_, rfl, rfl, by decide +kernel⟩

end TypeDraft

end MarkupGrammar
