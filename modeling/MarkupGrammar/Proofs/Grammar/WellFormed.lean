import MarkupGrammar.Proofs.Grammar.Assembly
import MarkupGrammar.Proofs.Grammar.Contents

/-! # Grammars without loose ends

Declarations refer to each other, to the constraints and to the expressions by numbers. In a grammar
that has been compiled there is something at each of these numbers
(`GrammarDraft.wellFormed_of_compile`): attributes and constraints are numbered as they are put
together, a name is resolved to a declaration that a look-up has found, and a keyref to a constraint
that it fits. -/

namespace MarkupGrammar

/-- What the numbers in an element declaration refer to is there. -/
structure ElementDeclaration.WellFormed (g : Grammar) (d : ElementDeclaration) : Prop where
  attribute_lt : ∀ i ∈ d.attributes, i < g.attributes.size
  constraint_lt : ∀ i ∈ d.constraints, i < g.constraints.size
  root_lt : ∀ i, d.content.expression? = some i → i < g.expressions.size
  model : d.content.model.WellFormed
  symbol_lt : ∀ s ∈ d.content.model.symbols, ∀ i, s.decl? = some i → i < g.elements.size

/-- What the numbers in a constraint refer to is there: a keyref, and no other constraint, refers to
a constraint that is no keyref and has as many fields. -/
structure Constraint.WellFormed (g : Grammar) (c : Constraint) : Prop where
  element_lt : c.element < g.elements.size
  keyref_iff : c.kind = .keyref ↔ c.refer?.isSome
  target : ∀ i, c.refer? = some i → ∃ t, g.constraints[i]? = some t ∧ t.kind ≠ .keyref ∧
    t.fields.length = c.fields.length

/-- What the numbers in a grammar refer to is there, and parts of expressions precede wholes. -/
structure Grammar.WellFormed (g : Grammar) : Prop where
  elements : ∀ d ∈ g.elements, d.WellFormed g
  attributes : ∀ a ∈ g.attributes, a.element < g.elements.size
  constraints : ∀ c ∈ g.constraints, c.WellFormed g
  expressions : g.expressions.Ordered
  lookup_lt : ∀ scope name i, Grammar.lookup g.elements scope name = some i → i < g.elements.size
  find_lt : ∀ name i, g.findConstraint name = some i → i < g.constraints.size

namespace GrammarDraft

variable {draft : GrammarDraft} {limits : Limits} {types : TypeTable} {ds : List ElementDraft}
  {contents : List Content} {expressions : ExpressionTable}

/-! ## Attributes -/

theorem lt_of_mem_numbersFrom {α : Type} {first i : Nat} {ls : List (List α)} {numbers : List Nat}
    (h : numbers ∈ numbersFrom first ls) (hi : i ∈ numbers) : i < first + ls.flatten.length := by
  induction ls generalizing first with
  | nil => exact absurd h List.not_mem_nil
  | cons l ls ih =>
    rw [List.flatten_cons, List.length_append]
    rcases List.mem_cons.mp h with rfl | h
    · have hlt := (List.mem_range'_1.mp hi).2
      omega
    · have hlt := ih h
      omega

/-- The element of an attribute does not matter for its declaration. -/
theorem declare_eq_map (d : AttributeDraft) (types : TypeTable) (element : Nat) :
    d.declare types element = (d.declare types 0).map fun a => { a with element } := by
  unfold AttributeDraft.declare
  dsimp only
  cases d.presence.value? with
  | none =>
    split
    · split <;> rfl
    · rfl
  | some value =>
    dsimp only
    cases d.type.check types {} value with
    | error reason =>
      split
      · split <;> rfl
      · rfl
    | ok treated =>
      split
      · split <;> rfl
      · rfl

/-- The elements of attributes do not matter for their faults. -/
theorem declareAll_eq_map (types : TypeTable) (element : Nat) (seen : List Name)
    (as : List AttributeDraft) : AttributeDraft.declareAll types element seen as =
      ((AttributeDraft.declareAll types 0 seen as).1.map fun a => { a with element },
        (AttributeDraft.declareAll types 0 seen as).2) := by
  induction as generalizing seen with
  | nil => rfl
  | cons d as ih =>
    unfold AttributeDraft.declareAll
    dsimp only
    rw [ih, declare_eq_map]
    split
    · rfl
    · cases d.declare types 0 <;> rfl

/-- Attributes belong to the elements that they are declared for. -/
theorem element_of_mem_declareAttributes {element : Nat} {l : List AttributeDeclaration}
    {a : AttributeDeclaration} (h : l ∈ (declareAttributes types element ds).1) (ha : a ∈ l) :
    a.element < element + ds.length := by
  induction ds generalizing element with
  | nil => exact absurd h List.not_mem_nil
  | cons d ds ih =>
    unfold declareAttributes at h
    rw [List.length_cons]
    rcases List.mem_cons.mp h with rfl | h
    · rw [declareAll_eq_map] at ha
      obtain ⟨a, -, rfl⟩ := List.mem_map.mp ha
      dsimp only
      omega
    · have hlt := ih h
      omega

/-! ## Constraints -/

/-- The element of a constraint does not matter for its compilation. -/
theorem compile_eq_map (d : ConstraintDraft) (element : Nat) :
    d.compile element = (d.compile 0).map fun c => { c with element } := by
  unfold ConstraintDraft.compile
  cases (PathExpression.read d.bindings .selector d.selector).mapError
    fun fault => [Fault.Cause.invalidSelector d.selector fault] with
  | error causes => rfl
  | ok selector =>
    dsimp only [bind, Except.bind]
    split
    · rfl
    · split
      · rfl
      · split <;> rfl

theorem element_of_compile {d : ConstraintDraft} {element : Nat} {c : Constraint}
    (h : d.compile element = .ok c) : c.element = element := by
  rw [compile_eq_map] at h
  obtain ⟨c, -, rfl⟩ := of_map_eq_ok h
  rfl

theorem Constraints.element_add {element count : Nat} {cs : Constraints} (d : ConstraintDraft)
    (he : element < count) (h : ∀ c ∈ cs.compiled, c.1.element < count) :
    ∀ c ∈ (cs.add element d).compiled, c.1.element < count := by
  unfold add
  dsimp only
  split
  · exact h
  · split
    · exact h
    · rename_i c hc
      intro x hx
      rcases Array.mem_push.mp hx with hx | rfl
      · exact h x hx
      · exact (element_of_compile hc).trans_lt he

theorem element_compileConstraints (ds : List ElementDraft) :
    ∀ c ∈ (compileConstraints ds).compiled, c.1.element < ds.length := by
  unfold compileConstraints
  refine List.foldlRecOn (motive := fun cs : Constraints => ∀ c ∈ cs.compiled,
    c.1.element < ds.length) _ _ (fun c hc => absurd hc (Array.not_mem_empty c))
    fun cs hcs x hx => ?_
  obtain ⟨d, i⟩ := x
  have hi : i < ds.length := (List.getElem?_eq_some_iff.mp (List.mem_zipIdx_iff_getElem?.mp hx)).1
  exact List.foldlRecOn (motive := fun cs : Constraints => ∀ c ∈ cs.compiled,
    c.1.element < ds.length) _ _ hcs fun cs hcs d _ => Constraints.element_add d hi hcs

/-- What a keyref refers to fits it. -/
theorem of_referent_eq_ok {all : Array Constraint} {c : Constraint} {refer : Name} {i : Nat}
    (h : c.referent all refer = .ok i) : Constraint.find? all refer = some i ∧
      ∃ t, all[i]? = some t ∧ t.kind ≠ .keyref ∧ t.fields.length = c.fields.length := by
  unfold Constraint.referent at h
  split at h
  · exact nomatch h
  · rename_i j hj
    split at h
    · exact nomatch h
    · rename_i t ht
      split at h
      · exact nomatch h
      · rename_i hk
        split at h
        · exact nomatch h
        · rename_i hfields
          obtain rfl := Except.ok.inj h
          refine ⟨hj, t, ht, hk, ?_⟩
          simpa using hfields

/-- Resolving a reference changes nothing else. -/
theorem resolveReference_fst (all : Array Constraint) (c : OpenConstraint) :
    (resolveReference all c).1 =
      { c.1 with refer? := (resolveReference all c).1.refer? } := by
  unfold resolveReference
  split
  · rfl
  · split <;> rfl

/-- Where the reference is no fault, it is to a constraint that fits. -/
theorem target_of_resolveReference {all : Array Constraint} {c : OpenConstraint}
    (hc : c.WellFormed) (h : (resolveReference all c).2 = []) {i : Nat}
    (hi : (resolveReference all c).1.refer? = some i) :
    ∃ t, all[i]? = some t ∧ t.kind ≠ .keyref ∧ t.fields.length = c.1.fields.length := by
  obtain ⟨c, refer?⟩ := c
  cases refer? with
  | none => exact nomatch hc.unresolved.symm.trans hi
  | some refer =>
    unfold resolveReference at h hi
    dsimp only at h hi
    cases hr : c.referent all refer with
    | error cause =>
      rw [hr] at h
      exact nomatch h
    | ok j =>
      rw [hr] at hi
      obtain rfl := Option.some.inj hi
      exact (of_referent_eq_ok hr).2

theorem mem_constraintsOf {cs : Array Constraint} {element i : Nat} :
    i ∈ constraintsOf cs element ↔ ∃ c, cs[i]? = some c ∧ c.element = element := by
  unfold constraintsOf
  rw [List.mem_filter, List.mem_range]
  constructor
  · rintro ⟨-, h⟩
    cases hc : cs[i]? with
    | none =>
      rw [hc] at h
      exact nomatch h
    | some c =>
      rw [hc] at h
      exact ⟨c, rfl, beq_iff_eq.mp h⟩
  · rintro ⟨c, hc, rfl⟩
    refine ⟨(Array.getElem?_eq_some_iff.mp hc).1, ?_⟩
    rw [hc]
    exact beq_iff_eq.mpr rfl

/-! ## Grammars -/

theorem constraints_assembled : (draft.assembled contents expressions).constraints =
    (resolvedConstraints draft.elements).map (·.1) := rfl

/-- A constraint of a grammar comes from one that has been compiled. -/
theorem mem_constraints_assembled {c : Constraint}
    (hc : c ∈ (draft.assembled contents expressions).constraints) :
    ∃ o ∈ (compileConstraints draft.elements).compiled,
      c = (resolveReference ((compileConstraints draft.elements).compiled.map (·.1)) o).1 := by
  rw [constraints_assembled, resolvedConstraints, Array.map_map] at hc
  obtain ⟨o, ho, rfl⟩ := Array.mem_map.mp hc
  exact ⟨o, ho, rfl⟩

/-- The constraint at a number differs from the compiled one in its reference at most. -/
theorem getElem?_constraints_assembled {i : Nat} {t : Constraint}
    (h : ((compileConstraints draft.elements).compiled.map (·.1))[i]? = some t) :
    ∃ refer?, (draft.assembled contents expressions).constraints[i]? = some { t with refer? } := by
  rw [Array.getElem?_map] at h
  obtain ⟨o, ho, rfl⟩ := Option.map_eq_some_iff.mp h
  refine ⟨(resolveReference ((compileConstraints draft.elements).compiled.map (·.1)) o).1.refer?,
    ?_⟩
  rw [constraints_assembled, resolvedConstraints, Array.map_map, Array.getElem?_map, ho,
    ← resolveReference_fst]
  rfl

theorem wellFormed_constraint (h : draft.Faultless limits contents expressions) {c : Constraint}
    (hc : c ∈ (draft.assembled contents expressions).constraints) :
    c.WellFormed (draft.assembled contents expressions) := by
  obtain ⟨o, ho, rfl⟩ := mem_constraints_assembled hc
  have hwf := wellFormed_compileConstraints draft.elements o ho
  have hreference : (resolveReference
      ((compileConstraints draft.elements).compiled.map (·.1)) o).2 = [] :=
    List.flatMap_eq_nil_iff.mp h.references _
      (Array.mem_toList_iff.mpr (Array.mem_map_of_mem ho))
  refine ⟨?_, (of_resolveReference hwf hreference).2.1, fun i hi => ?_⟩
  · rw [resolveReference_fst, size_assembled h]
    exact element_compileConstraints draft.elements o ho
  · obtain ⟨t, ht, hkind, hfields⟩ := target_of_resolveReference hwf hreference hi
    obtain ⟨refer?, hrefer⟩ := getElem?_constraints_assembled ht
    refine ⟨_, hrefer, hkind, ?_⟩
    rw [resolveReference_fst]
    exact hfields

theorem wellFormed_element (h : draft.Faultless limits contents expressions)
    {d : ElementDeclaration} (hd : d ∈ (draft.assembled contents expressions).elements) :
    d.WellFormed (draft.assembled contents expressions) := by
  obtain ⟨i, hi⟩ := Array.mem_iff_getElem?.mp hd
  obtain ⟨source, content, numbers, -, hcontent, hnumbers, rfl⟩ := getElem?_assembled.mp hi
  have hsound := (sound_compileContents .empty h.contents).2.2 content
    (List.mem_of_getElem? hcontent)
  refine ⟨fun j hj => ?_, fun j hj => ?_, hsound.root_lt, hsound.wellFormed.bind _,
    fun s hs j hj => ?_⟩
  · have hlt := lt_of_mem_numbersFrom (List.mem_of_getElem? hnumbers) hj
    rwa [Nat.zero_add] at hlt
  · obtain ⟨c, hc, -⟩ := mem_constraintsOf.mp hj
    exact (Array.getElem?_eq_some_iff.mp hc).1
  · have hs : s ∈ (content.model.bind (Grammar.lookupChild
        (draft.elements.map declared).toArray source.childScope)).symbols := hs
    rw [Model.symbols_bind] at hs
    obtain ⟨u, hu, rfl⟩ := List.mem_map.mp hs
    obtain ⟨n, hn⟩ := Symbol.decl?_bind (hsound.unbound u hu) hj
    have hlt := Grammar.lookupChild_lt hn
    rwa [List.size_toArray, List.length_map, ← size_assembled h] at hlt

theorem wellFormed_assembled (h : draft.Faultless limits contents expressions) :
    (draft.assembled contents expressions).WellFormed where
  elements _ hd := wellFormed_element h hd
  attributes a ha := by
    obtain ⟨l, hl, hal⟩ := List.mem_flatten.mp (List.mem_toArray.mp ha)
    have hlt := element_of_mem_declareAttributes hl hal
    rwa [Nat.zero_add, ← size_assembled h] at hlt
  constraints _ hc := wellFormed_constraint h hc
  expressions := (sound_compileContents .empty h.contents).1
  lookup_lt _ _ _ hi := Grammar.lookup_lt hi
  find_lt _ _ hi := (Array.findIdx?_eq_some_iff_getElem.mp hi).1

/-- **A compiled grammar has no loose ends.** -/
theorem wellFormed_of_compile {g : Grammar} (h : draft.compile limits = .ok g) : g.WellFormed := by
  obtain ⟨contents, expressions, hfaultless, rfl⟩ := compile_eq_ok_iff.mp h
  exact wellFormed_assembled hfaultless

end GrammarDraft

end MarkupGrammar
