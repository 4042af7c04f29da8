import MarkupGrammar.Proofs.Outcome
import MarkupGrammar.Proofs.SimpleType.Spacing

/-! # The order of facets

A literal of a facet is read after the treatment of white space that is in force where the facet
stands, and the treatment that is declared last counts for the type. Nothing else depends on the
order of facets: if the last treatment is the same and each facet has the same values, all orders
compile or none does, and the types that result have the same values (`compile_reordered`). -/

namespace MarkupGrammar

/-! ## Facets by themselves -/

namespace FacetDraft

/-- The treatment of white space that a facet declares. -/
def spacing? : FacetDraft → Option Spacing
  | spacing w => some w
  | enumeration _ | pattern _ | length _ _ | bound _ _ | assertion _ => none

/-- The literals of a facet that are read as values. -/
def literals : FacetDraft → List String
  | enumeration literals => literals
  | bound _ literal => [literal]
  | pattern _ | length _ _ | spacing _ | assertion _ => []

/-- The treatment of white space that is declared last. -/
def lastSpacing? (fs : List FacetDraft) : Option Spacing := (fs.filterMap spacing?).getLast?

/-- Facets, each with the values of its literals, which are read after the treatment of white space
in force where they stand. -/
def readings (read? : Spacing → String → Option Value) (w : Spacing) :
    List FacetDraft → List (FacetDraft × Option (List Value))
  | [] => []
  | f :: fs => (f, f.literals.mapM (read? w)) :: readings read? (f.spacing?.getD w) fs

/-- The facet, or the pattern, that a facet with the given values is compiled to. -/
def compiled? (engine : PatternEngine) (values : List Value) :
    FacetDraft → Option (List Facet × List CompiledPattern)
  | enumeration _ => some ([.enumeration values], [])
  | pattern source => (engine.compile source).toOption.map fun compiled => ([], [compiled])
  | length kind n => some ([.length kind n], [])
  | bound side _ => some (values.map (.bound side), [])
  | spacing _ => some ([], [])
  | assertion expression => some ([.assertion expression], [])

/-- What a facet is compiled to if its literals have values. -/
def part? (engine : PatternEngine) (reading : FacetDraft × Option (List Value)) :
    Option (List Facet × List CompiledPattern) :=
  reading.2.bind fun values => reading.1.compiled? engine values

end FacetDraft

namespace TypeDraft

variable {engine : PatternEngine} {p : Progress} {f : FacetDraft} {fs gs : List FacetDraft}
  {t : TypeDraft} {base : SimpleType} {ctx : ValueContext}

open FacetDraft

/-- What has been compiled, with the treatment and the parts that come next. -/
def Progress.extend (p : Progress) (spacing : Spacing)
    (parts : List (List Facet × List CompiledPattern)) : Progress :=
  ⟨spacing, p.facets ++ parts.flatMap (·.1), p.patterns ++ parts.flatMap (·.2)⟩

theorem Progress.toOption_add (read : Spacing → String → Except Fault Value) :
    (p.add engine read f).toOption =
      (part? engine (f, f.literals.mapM fun l => (read p.spacing l).toOption)).map fun part =>
        p.extend (f.spacing?.getD p.spacing) [part] := by
  rw [part?]
  cases f with
  | enumeration literals =>
    rw [add, toOption_bind, toOption_mapM, FacetDraft.literals]
    cases literals.mapM fun l => (read p.spacing l).toOption <;>
      simp [extend, compiled?, spacing?, pure, Except.pure, Except.toOption]
  | pattern source =>
    rw [add]
    cases hcompile : engine.compile source <;>
      simp [extend, literals, compiled?, hcompile, spacing?, Except.toOption]
  | length kind n => simp [add, literals, compiled?, extend, spacing?, Except.toOption]
  | bound side literal =>
    rw [add, toOption_bind, literals, List.mapM_cons]
    cases (read p.spacing literal).toOption <;>
      simp [extend, compiled?, spacing?, pure, Except.pure, Except.toOption]
  | spacing w => simp [add, literals, compiled?, extend, spacing?, Except.toOption]
  | assertion expression => simp [add, literals, compiled?, extend, spacing?, Except.toOption]

/-- **Facets are compiled each by itself**, from their values. -/
theorem toOption_foldlM_add (read : Spacing → String → Except Fault Value) (p : Progress)
    (fs : List FacetDraft) :
    (fs.foldlM (Progress.add engine read) p).toOption =
      let rs := readings (fun w l => (read w l).toOption) p.spacing fs
      if ∀ r ∈ rs, (part? engine r).isSome then
        some (p.extend ((lastSpacing? fs).getD p.spacing) (rs.filterMap (part? engine)))
      else none := by
  induction fs generalizing p with
  | nil => simp [lastSpacing?, readings, Progress.extend, pure, Except.pure, Except.toOption]
  | cons f fs ih =>
    have hlast : (lastSpacing? (f :: fs)).getD p.spacing =
        (lastSpacing? fs).getD (f.spacing?.getD p.spacing) := by
      rw [lastSpacing?, List.filterMap_cons]
      cases f.spacing? with
      | none => rfl
      | some w =>
        dsimp only
        rw [List.getLast?_cons]
        rfl
    rw [List.foldlM_cons, toOption_bind, Progress.toOption_add, readings, hlast]
    cases hpart : part? engine (f, f.literals.mapM fun l => (read p.spacing l).toOption) with
    | none => simp [hpart]
    | some part =>
      rw [Option.map_some, Option.bind_some, ih]
      refine if_congr ?_ ?_ rfl
      · rw [List.forall_mem_cons, hpart]
        exact (and_iff_right rfl).symm
      · simp [hpart, Progress.extend]

/-! ## Definitions -/

/-- The treatment of white space before any facet. -/
def start (t : TypeDraft) (base : SimpleType) : Spacing :=
  match t.variety with
  | .restriction => base.spacing
  | .list => .collapse

/-- Reads a literal that stands behind a treatment of white space. -/
def readBehind (t : TypeDraft) (base : SimpleType) (ctx : ValueContext) (w : Spacing)
    (literal : String) : Except Fault Value :=
  (SimpleType.readByBase (base.validate ctx) t.variety (w.normalize literal)).mapError
    (.invalidLiteral literal)

/-- The value of a literal that stands behind a treatment of white space. -/
def value? (t : TypeDraft) (base : SimpleType) (ctx : ValueContext) (w : Spacing)
    (literal : String) : Option Value :=
  (t.readBehind base ctx w literal).toOption

/-- The type with other facets. -/
def withFacets (t : TypeDraft) (facets : List FacetDraft) : TypeDraft := { t with facets }

/-- The definition that has been compiled: its patterns come last. -/
def finished (t : TypeDraft) (p : Progress) : Definition :=
  ⟨t.name, t.base, t.variety, p.spacing,
    p.facets ++ if p.patterns.isEmpty then [] else [.patterns p.patterns]⟩

/-- The definition with the given parts. -/
def assembled (t : TypeDraft) (spacing : Spacing)
    (parts : List (List Facet × List CompiledPattern)) : Definition :=
  t.finished ⟨spacing, parts.flatMap (·.1), parts.flatMap (·.2)⟩

theorem compile_withFacets (t : TypeDraft) (fs : List FacetDraft) (base : SimpleType)
    (engine : PatternEngine) (ctx : ValueContext) :
    (t.withFacets fs).compile base engine ctx =
      fs.foldlM (Progress.add engine (t.readBehind base ctx)) ⟨t.start base, [], []⟩ >>=
        fun p => .ok (t.finished p) :=
  rfl

/-- A type is compiled if its facets are, and consists of what they are compiled to. -/
theorem toOption_compile (t : TypeDraft) (fs : List FacetDraft) (base : SimpleType)
    (engine : PatternEngine) (ctx : ValueContext) :
    ((t.withFacets fs).compile base engine ctx).toOption =
      let rs := readings (t.value? base ctx) (t.start base) fs
      if ∀ r ∈ rs, (part? engine r).isSome then
        some (t.assembled ((lastSpacing? fs).getD (t.start base)) (rs.filterMap (part? engine)))
      else none := by
  have hread : (fun w l => (t.readBehind base ctx w l).toOption) = t.value? base ctx := rfl
  rw [compile_withFacets, toOption_bind, toOption_foldlM_add, hread]
  by_cases hall : ∀ r ∈ readings (t.value? base ctx) (t.start base) fs, (part? engine r).isSome
  · dsimp only
    rw [if_pos hall, if_pos hall]
    rfl
  · dsimp only
    rw [if_neg hall, if_neg hall]
    rfl

/-- None of the treatments of white space among some facets makes a difference to how a literal of
them is read. -/
def ReadsAlike (t : TypeDraft) (fs : List FacetDraft) (base : SimpleType) (ctx : ValueContext) :
    Prop :=
  ∀ w ∈ fs.filterMap spacing?, ∀ l ∈ fs.flatMap literals,
    t.value? base ctx w l = t.value? base ctx (t.start base) l

/-- Two outcomes come to the same: a definition in both cases, with the same values in whatever
context, or a fault in both. -/
structure SameOutcome (x y : Except Fault Definition) : Prop where
  isOk_eq : x.isOk = y.isOk
  value_iff : ∀ d d', x = .ok d → y = .ok d' → ∀ base ctx s v,
    (SimpleType.derived d base).validate ctx s = .ok v ↔
      (SimpleType.derived d' base).validate ctx s = .ok v

/-- The parts of a definition may stand in any order. -/
theorem assembled_perm {ps qs : List (List Facet × List CompiledPattern)} (h : ps.Perm qs)
    (w : Spacing) (base : SimpleType) (ctx : ValueContext) (s : String) (v : Value) :
    (SimpleType.derived (t.assembled w ps) base).validate ctx s = .ok v ↔
      (SimpleType.derived (t.assembled w qs) base).validate ctx s = .ok v := by
  have hfacets : (ps.flatMap (·.1)).Perm (qs.flatMap (·.1)) := h.flatMap_right _
  have hpatterns : (ps.flatMap (·.2)).Perm (qs.flatMap (·.2)) := h.flatMap_right _
  rw [SimpleType.validate_eq_ok_iff, SimpleType.validate_eq_ok_iff]
  refine and_congr_right fun _ => ?_
  dsimp only [assembled, finished]
  rw [List.forall_mem_append, List.forall_mem_append]
  refine and_congr (by simp only [hfacets.mem_iff]) ?_
  rw [hpatterns.isEmpty_eq]
  split
  · exact Iff.rfl
  · rw [List.forall_mem_singleton, List.forall_mem_singleton, Facet.check, Facet.check,
      hpatterns.any_eq]
    split <;> simp

variable {x y : Except Fault Definition} {d d' : Definition}

theorem sameOutcome_of_some (hx : x.toOption = some d) (hy : y.toOption = some d')
    (h : ∀ base ctx s v, (SimpleType.derived d base).validate ctx s = .ok v ↔
      (SimpleType.derived d' base).validate ctx s = .ok v) : SameOutcome x y := by
  rw [eq_ok_of_toOption hx, eq_ok_of_toOption hy]
  refine ⟨rfl, fun e e' he he' => ?_⟩
  obtain rfl := Except.ok.inj he
  obtain rfl := Except.ok.inj he'
  exact h

theorem sameOutcome_of_none (hx : x.toOption = none) (hy : y.toOption = none) :
    SameOutcome x y := by
  cases x with
  | error e =>
    cases y with
    | error e' =>
      refine ⟨rfl, fun d d' hd => ?_⟩
      cases hd
    | ok d' => exact nomatch hy
  | ok d => exact nomatch hx

theorem sameOutcome_of_readings (hlast : lastSpacing? fs = lastSpacing? gs)
    (hperm : (readings (t.value? base ctx) (t.start base) fs).Perm
      (readings (t.value? base ctx) (t.start base) gs)) (engine : PatternEngine) :
    SameOutcome ((t.withFacets fs).compile base engine ctx)
      ((t.withFacets gs).compile base engine ctx) := by
  have hx := t.toOption_compile fs base engine ctx
  have hy := t.toOption_compile gs base engine ctx
  dsimp only at hx hy
  by_cases hall : ∀ r ∈ readings (t.value? base ctx) (t.start base) fs, (part? engine r).isSome
  · rw [if_pos hall] at hx
    rw [if_pos fun r hr => hall r (hperm.mem_iff.mpr hr), ← hlast] at hy
    exact sameOutcome_of_some hx hy (assembled_perm (hperm.filterMap _) _)
  · rw [if_neg hall] at hx
    rw [if_neg fun h => hall fun r hr => h r (hperm.mem_iff.mp hr)] at hy
    exact sameOutcome_of_none hx hy

/-! ## Literals that are read alike -/

theorem readings_eq_map {read? : Spacing → String → Option Value} {r : String → Option Value}
    {w : Spacing} (h : ∀ w' ∈ w :: fs.filterMap spacing?, ∀ l ∈ fs.flatMap literals,
      read? w' l = r l) :
    readings read? w fs = fs.map fun f => (f, f.literals.mapM r) := by
  induction fs generalizing w with
  | nil => rfl
  | cons f fs ih =>
    have hvalues : f.literals.mapM (read? w) = f.literals.mapM r :=
      mapM_congr_left fun l hl => h w (.head _) l (by simp [hl])
    rw [readings, hvalues, List.map_cons, ih]
    intro w' hw' l hl
    refine h w' ?_ l (by rw [List.flatMap_cons]; exact List.mem_append_right _ hl)
    rw [List.filterMap_cons]
    cases hspacing : f.spacing? with
    | none =>
      rw [hspacing] at hw'
      exact hw'
    | some v =>
      rw [hspacing] at hw'
      exact .tail _ hw'

theorem sameOutcome_of_perm (hperm : fs.Perm gs) (hlast : lastSpacing? fs = lastSpacing? gs)
    (hread : t.ReadsAlike fs base ctx) (engine : PatternEngine) :
    SameOutcome ((t.withFacets fs).compile base engine ctx)
      ((t.withFacets gs).compile base engine ctx) := by
  have hread' : t.ReadsAlike gs base ctx := fun w hw l hl =>
    hread w ((hperm.filterMap _).mem_iff.mpr hw) l ((hperm.flatMap_right _).mem_iff.mpr hl)
  refine sameOutcome_of_readings hlast ?_ engine
  rw [readings_eq_map (List.forall_mem_cons.mpr ⟨fun _ _ => rfl, hread⟩),
    readings_eq_map (List.forall_mem_cons.mpr ⟨fun _ _ => rfl, hread'⟩)]
  exact hperm.map _

/-- Treatments make no difference for lists, which are read word by word, and where the base undoes
them. -/
theorem readsAlike (h : t.variety = .list ∨
      ∀ w ∈ fs.filterMap spacing?, ∀ l ∈ fs.flatMap literals,
        base.spacing.normalize (w.normalize l) = base.spacing.normalize l) :
    t.ReadsAlike fs base ctx := by
  intro w hw l hl
  rw [value?, value?, readBehind, readBehind]
  cases hvariety : t.variety with
  | list =>
    rw [SimpleType.readByBase, SimpleType.readByBase, Spacing.words_normalize,
      Spacing.words_normalize]
  | restriction =>
    have hbase : base.spacing.normalize (w.normalize l) = base.spacing.normalize l :=
      h.resolve_left (by simp [hvariety]) w hw l hl
    have hstart : base.spacing.normalize ((t.start base).normalize l) =
        base.spacing.normalize l := by
      rw [start, hvariety]
      exact Spacing.normalize_of_le le_rfl l
    rw [SimpleType.readByBase, SimpleType.readByBase,
      SimpleType.validate_congr (hbase.trans hstart.symm)]

/-! ## Literals that are read differently -/

theorem SameOutcome.isSome_eq (h : SameOutcome x y) : x.toOption.isSome = y.toOption.isSome := by
  have hok := h.isOk_eq
  cases x <;> cases y <;> exact hok

theorem toOption_compile_enumeration_spacing (t : TypeDraft) (base : SimpleType)
    (engine : PatternEngine) (ctx : ValueContext) (w : Spacing) (l : String) :
    ((t.withFacets [.enumeration [l], .spacing w]).compile base engine ctx).toOption =
      (t.value? base ctx (t.start base) l).map fun v =>
        t.assembled w [([.enumeration [v]], [])] := by
  rw [toOption_compile]
  simp only [readings, literals, List.mapM_cons, List.mapM_nil, spacing?]
  cases t.value? base ctx (t.start base) l <;> rfl

theorem toOption_compile_spacing_enumeration (t : TypeDraft) (base : SimpleType)
    (engine : PatternEngine) (ctx : ValueContext) (w : Spacing) (l : String) :
    ((t.withFacets [.spacing w, .enumeration [l]]).compile base engine ctx).toOption =
      (t.value? base ctx w l).map fun v => t.assembled w [([.enumeration [v]], [])] := by
  rw [toOption_compile]
  simp only [readings, literals, List.mapM_cons, List.mapM_nil, spacing?, Option.getD_some]
  cases t.value? base ctx w l <;> rfl

/-- A type with an enumeration of one value has no other. -/
theorem validate_assembled_enumeration {w : Spacing} {s : String} {v v' : Value} :
    (SimpleType.derived (t.assembled w [([.enumeration [v]], [])]) base).validate ctx s = .ok v' ↔
      t.value? base ctx w s = some v' ∧ v' = v := by
  have hread : SimpleType.readByBase (base.validate ctx) t.variety (w.normalize s) = .ok v' ↔
      t.value? base ctx w s = some v' := by
    rw [value?, readBehind]
    cases SimpleType.readByBase (base.validate ctx) t.variety (w.normalize s) <;>
      simp [Except.mapError, Except.toOption]
  have hcheck : (∀ f ∈ (t.assembled w [([.enumeration [v]], [])]).facets,
      f.check t.name ctx (w.normalize s) v' = .ok ()) ↔ v' = v := by
    simp [assembled, finished, Facet.check]
  exact SimpleType.validate_eq_ok_iff.trans (and_congr hread hcheck)

/-- An enumeration before and behind a treatment. -/
theorem sameOutcome_enumeration_iff (t : TypeDraft) (base : SimpleType) (ctx : ValueContext)
    (engine : PatternEngine) (w : Spacing) (l : String) :
    SameOutcome ((t.withFacets [.enumeration [l], .spacing w]).compile base engine ctx)
        ((t.withFacets [.spacing w, .enumeration [l]]).compile base engine ctx) ↔
      t.value? base ctx w l = t.value? base ctx (t.start base) l := by
  have hbefore := t.toOption_compile_enumeration_spacing base engine ctx w l
  have hbehind := t.toOption_compile_spacing_enumeration base engine ctx w l
  constructor
  · intro h
    have hsome := h.isSome_eq
    rw [hbefore, hbehind, Option.isSome_map, Option.isSome_map] at hsome
    cases hw : t.value? base ctx w l with
    | none =>
      rw [hw] at hsome
      exact (Option.not_isSome_iff_eq_none.mp (by simp [hsome])).symm
    | some v' =>
      obtain ⟨v, hv⟩ := Option.isSome_iff_exists.mp (hsome.trans (by rw [hw]; rfl))
      rw [hv] at hbefore
      rw [hw] at hbehind
      -- behind the treatment the literal has the value in the enumeration
      have hvalid := (h.value_iff _ _ (eq_ok_of_toOption hbefore) (eq_ok_of_toOption hbehind)
        base ctx l v').mpr (validate_assembled_enumeration.mpr ⟨hw, rfl⟩)
      rw [hv, (validate_assembled_enumeration.mp hvalid).2]
  · intro h
    rw [← h] at hbefore
    cases hw : t.value? base ctx w l with
    | none =>
      rw [hw] at hbefore hbehind
      exact sameOutcome_of_none hbefore hbehind
    | some v =>
      rw [hw] at hbefore hbehind
      exact sameOutcome_of_some hbefore hbehind fun _ _ _ _ => Iff.rfl

/-- Two treatments. -/
theorem sameOutcome_spacing_iff {b : Builtin} (hb : b.spacing = .preserve)
    (hkind : b.kind = .atomic .text) (ht : t.variety = .restriction)
    (ctx : ValueContext) (engine : PatternEngine) (w w' : Spacing) :
    SameOutcome ((t.withFacets [.spacing w, .spacing w']).compile (.builtin b) engine ctx)
        ((t.withFacets [.spacing w', .spacing w]).compile (.builtin b) engine ctx) ↔
      w = w' := by
  have hcompile (w w' : Spacing) :
      (t.withFacets [.spacing w, .spacing w']).compile (.builtin b) engine ctx =
        .ok (t.assembled w' []) := rfl
  have hvalid (w : Spacing) (s : String) :
      (SimpleType.derived (t.assembled w []) (.builtin b)).validate {} s =
        .ok (.string (w.normalize s)) := by
    refine SimpleType.validate_eq_ok_iff.mpr ⟨?_, by simp [assembled, finished]⟩
    simp only [assembled, finished]
    rw [ht, SimpleType.readByBase, SimpleType.validate, Builtin.validate, hb, Builtin.read, hkind]
    rfl
  constructor
  · intro h
    have htab := (h.value_iff _ _ (hcompile w w') (hcompile w' w) (.builtin b) {} "\t"
      (.string (w'.normalize "\t"))).mp (hvalid w' "\t")
    have htab : w'.normalize "\t" = w.normalize "\t" := by
      have hvalues := htab.symm.trans (hvalid w "\t")
      simpa [Value.string] using hvalues
    revert htab
    cases w <;> cases w' <;> decide +kernel
  · rintro rfl
    rw [hcompile]
    exact sameOutcome_of_some rfl rfl fun _ _ _ _ => Iff.rfl

/-- **The order of facets** makes a difference only to how literals are read and to which treatment
of white space comes last. So it makes none if that treatment stays the last one and the treatments
make no difference to the literals, as in lists, or if the base undoes what they do. For two facets
this is exact: an enumeration and a treatment may change places if the treatment makes no difference
to the literal, two treatments of texts only if they are the same. -/
theorem compile_reordered (t : TypeDraft) (base : SimpleType) (engine : PatternEngine)
    (ctx : ValueContext) :
    (∀ fs gs, lastSpacing? fs = lastSpacing? gs →
      (readings (t.value? base ctx) (t.start base) fs).Perm
        (readings (t.value? base ctx) (t.start base) gs) →
      SameOutcome ((t.withFacets fs).compile base engine ctx)
        ((t.withFacets gs).compile base engine ctx)) ∧
    (∀ fs gs, fs.Perm gs → lastSpacing? fs = lastSpacing? gs → t.ReadsAlike fs base ctx →
      SameOutcome ((t.withFacets fs).compile base engine ctx)
        ((t.withFacets gs).compile base engine ctx)) ∧
    (∀ fs : List FacetDraft, (t.variety = .list ∨
        ∀ w ∈ fs.filterMap spacing?, ∀ l ∈ fs.flatMap literals,
          base.spacing.normalize (w.normalize l) = base.spacing.normalize l) →
      t.ReadsAlike fs base ctx) ∧
    (∀ w l, SameOutcome
        ((t.withFacets [.enumeration [l], .spacing w]).compile base engine ctx)
        ((t.withFacets [.spacing w, .enumeration [l]]).compile base engine ctx) ↔
      t.value? base ctx w l = t.value? base ctx (t.start base) l) ∧
    (∀ b : Builtin, b.spacing = .preserve → b.kind = .atomic .text → t.variety = .restriction →
      ∀ w w', SameOutcome
        ((t.withFacets [.spacing w, .spacing w']).compile (.builtin b) engine ctx)
        ((t.withFacets [.spacing w', .spacing w]).compile (.builtin b) engine ctx) ↔ w = w') :=
  ⟨fun _ _ hlast hperm => sameOutcome_of_readings hlast hperm engine,
    fun _ _ hperm hlast hread => sameOutcome_of_perm hperm hlast hread engine,
    fun _ => readsAlike,
    sameOutcome_enumeration_iff t base ctx engine,
    fun _ hb hkind ht => sameOutcome_spacing_iff hb hkind ht ctx engine⟩

/-- A restriction of texts with facets in one order, and the other way round: its literal has no
blanks to treat. -/
theorem compile_reordered_noBlanks :
    let t : TypeDraft := { name := .unqualified "size", base := .unqualified "string" }
    let string := SimpleType.builtin ⟨"string", some "anySimpleType", .preserve, .atomic .text⟩
    let fs : List FacetDraft :=
      [.enumeration ["large"], .length .atMost 9, .pattern "large", .spacing .collapse]
    t.ReadsAlike fs string {} ∧
    SameOutcome ((t.withFacets fs).compile string .literal {})
      ((t.withFacets fs.reverse).compile string .literal {}) ∧
    ((t.withFacets fs).compile string .literal {}).isOk := by
  intro t string fs
  have hread : t.ReadsAlike fs string {} := readsAlike (.inr (by decide))
  have hlast : lastSpacing? fs = lastSpacing? fs.reverse := by decide
  have hsame := (compile_reordered t string .literal {}).2.1 fs fs.reverse fs.reverse_perm.symm
    hlast hread
  exact ⟨hread, hsame, by decide⟩

/-- A type whose enumeration is declared before its treatment of white space does not accept the
enumerated literal; the other way round it does. -/
theorem reordered_enumeration_differs :
    let t : TypeDraft := { name := .unqualified "size", base := .unqualified "string" }
    let string := SimpleType.builtin ⟨"string", some "anySimpleType", .preserve, .atomic .text⟩
    let outcome (fs : List FacetDraft) :=
      ((t.withFacets fs).compile string .literal {}).toOption.map fun d =>
        ((SimpleType.derived d string).validate {} " x ").toOption
    outcome [.enumeration [" x "], .spacing .collapse] = some none ∧
    outcome [.spacing .collapse, .enumeration [" x "]] = some (some (.string "x")) := by
  decide

end TypeDraft

end MarkupGrammar
