import MarkupGrammar.Grammar.Draft
import MarkupGrammar.Proofs.Model
import MarkupGrammar.Proofs.Outcome
import MarkupGrammar.Proofs.Path.Reading

/-! # Compiled grammars

What a grammar that has been compiled is like. Selectors do not select attributes, a keyref refers
to a constraint that is no keyref (`constraints_of_compile`), and the declarations that content
models refer to are there (`closed_of_compile`). -/

namespace MarkupGrammar

/-! ## Constraints -/

/-- The selector does not select attributes. -/
def Constraint.SelectsElements (c : Constraint) : Prop :=
  ∀ p ∈ c.selector.paths, p.attribute? = none

theorem ConstraintDraft.of_compile_eq_ok {d : ConstraintDraft} {element : Nat} {c : Constraint}
    (h : d.compile element = .ok c) : c.SelectsElements ∧ c.kind = d.kind ∧ c.refer? = none ∧
      (d.kind = .keyref → d.refer? ≠ none) := by
  unfold compile at h
  obtain ⟨selector, hs, h⟩ := of_bind_eq_ok h
  cases hr : PathExpression.read d.bindings .selector d.selector with
  | error fault => rw [hr] at hs; exact nomatch hs
  | ok e =>
    rw [hr] at hs
    obtain rfl := Except.ok.inj hs
    have hsel := (PathExpression.read_eq_ok_iff.mp hr).2.2 rfl
    dsimp only at h
    split at h
    · exact nomatch h
    · split at h
      · exact nomatch h
      · split at h
        · exact nomatch h
        · rename_i hrefer
          obtain rfl := Except.ok.inj h
          exact ⟨hsel, rfl, rfl, fun hk hnone => hrefer ⟨hk, hnone⟩⟩

namespace GrammarDraft

/-- What holds of a constraint that has been compiled, and of the name that it refers to. -/
structure OpenConstraint.WellFormed (c : OpenConstraint) : Prop where
  selectsElements : c.1.SelectsElements
  unresolved : c.1.refer? = none
  keyref_iff : c.1.kind = .keyref ↔ c.2.isSome

theorem Constraints.wellFormed_add {element : Nat} {cs : Constraints} (d : ConstraintDraft)
    (h : ∀ c ∈ cs.compiled, c.WellFormed) : ∀ c ∈ (cs.add element d).compiled, c.WellFormed := by
  unfold add
  dsimp only
  split
  · exact h
  · split
    · exact h
    · rename_i c hc
      obtain ⟨hsel, hkind, hrefer, hname⟩ := ConstraintDraft.of_compile_eq_ok hc
      intro x hx
      rcases Array.mem_push.mp hx with hx | rfl
      · exact h x hx
      · refine ⟨hsel, hrefer, ?_⟩
        dsimp only
        rw [hkind]
        split
        · rename_i hk
          exact iff_of_true hk (Option.isSome_iff_ne_none.mpr (hname hk))
        · rename_i hk
          exact iff_of_false hk Bool.noConfusion

theorem wellFormed_compileConstraints (ds : List ElementDraft) :
    ∀ c ∈ (compileConstraints ds).compiled, c.WellFormed := by
  unfold compileConstraints
  refine List.foldlRecOn (motive := fun cs : Constraints => ∀ c ∈ cs.compiled, c.WellFormed) _ _
    (fun c hc => absurd hc (Array.not_mem_empty c)) fun cs hcs x _ => ?_
  exact List.foldlRecOn (motive := fun cs : Constraints => ∀ c ∈ cs.compiled, c.WellFormed) _ _ hcs
    fun cs hcs d _ => Constraints.wellFormed_add d hcs

/-- A reference is resolved to a constraint that is no keyref. -/
theorem of_resolveReference {all : Array Constraint} {c : OpenConstraint} (hc : c.WellFormed)
    (h : (resolveReference all c).2 = []) : (resolveReference all c).1.SelectsElements ∧
      ((resolveReference all c).1.kind = .keyref ↔ (resolveReference all c).1.refer?.isSome) ∧
      ∀ i, (resolveReference all c).1.refer? = some i →
        ∃ target, all[i]? = some target ∧ target.kind ≠ .keyref := by
  obtain ⟨hsel, hnone, hkeyref⟩ := hc
  obtain ⟨c, refer?⟩ := c
  cases refer? with
  | none =>
    refine ⟨hsel, ?_, fun i hi => ?_⟩
    · change c.kind = .keyref ↔ c.refer?.isSome
      rw [hkeyref, hnone]
      exact Iff.rfl
    · change c.refer? = some i at hi
      rw [hnone] at hi
      exact nomatch hi
  | some refer =>
    unfold resolveReference at h ⊢
    dsimp only at h ⊢
    cases hr : c.referent all refer with
    | error cause => rw [hr] at h; exact nomatch h
    | ok i =>
      refine ⟨hsel, iff_of_true (hkeyref.mpr rfl) rfl, fun j hj => ?_⟩
      obtain rfl := Option.some.inj hj
      unfold Constraint.referent at hr
      split at hr
      · exact nomatch hr
      · split at hr
        · exact nomatch hr
        · rename_i target htarget
          split at hr
          · exact nomatch hr
          · rename_i hk
            split at hr
            · exact nomatch hr
            · obtain rfl := Except.ok.inj hr
              exact ⟨target, htarget, hk⟩

/-- Resolving a reference changes nothing else. -/
theorem kind_resolveReference (all : Array Constraint) (c : OpenConstraint) :
    (resolveReference all c).1.kind = c.1.kind := by
  unfold resolveReference
  split
  · rfl
  · split <;> rfl

/-! ## Grammars -/

theorem length_numbersFrom {α : Type} (first : Nat) (ls : List (List α)) :
    (numbersFrom first ls).length = ls.length := by
  induction ls generalizing first with
  | nil => rfl
  | cons l ls ih => rw [numbersFrom, List.length_cons, ih, List.length_cons]

theorem length_declareAttributes (types : TypeTable) (element : Nat) (ds : List ElementDraft) :
    (declareAttributes types element ds).1.length = ds.length := by
  induction ds generalizing element with
  | nil => rfl
  | cons d ds ih =>
    rw [declareAttributes]
    dsimp only
    rw [List.length_cons, ih, List.length_cons]

theorem length_compileContents {c : Option Comparator} {limits : Limits}
    {table table' : ExpressionTable} {ds : List ElementDraft} {contents : List Content}
    {faults : List Fault} (h : compileContents c limits table ds = .ok (contents, table', faults)) :
    contents.length = ds.length := by
  induction ds generalizing table table' contents faults with
  | nil =>
    obtain ⟨rfl, -⟩ := Prod.mk.inj (Except.ok.inj h)
    rfl
  | cons d ds ih =>
    rw [compileContents] at h
    split at h
    split at h
    · obtain ⟨_, -, h⟩ := of_bind_eq_ok h
      obtain ⟨⟨others, _, _⟩, hothers, h⟩ := of_bind_eq_ok h
      obtain ⟨rfl, -⟩ := Prod.mk.inj (Except.ok.inj h)
      rw [List.length_cons, ih hothers, List.length_cons]
    · obtain ⟨_, -, h⟩ := of_bind_eq_ok h
      obtain ⟨⟨others, _, _⟩, hothers, h⟩ := of_bind_eq_ok h
      obtain ⟨rfl, -⟩ := Prod.mk.inj (Except.ok.inj h)
      rw [List.length_cons, ih hothers, List.length_cons]
    · obtain ⟨_, h, -⟩ := of_bind_eq_ok h
      exact nomatch h

/-- A draft that compiles gives a grammar. -/
theorem exists_compile_eq_ok {draft : GrammarDraft} {limits : Limits}
    (h : (draft.compile limits).isOk) : ∃ g, draft.compile limits = .ok g :=
  exists_of_isOk h

/-- What a grammar is made of. -/
theorem of_compile_eq_ok {draft : GrammarDraft} {limits : Limits} {g : Grammar}
    (h : draft.compile limits = .ok g) : ∃ (kept : List ElementDraft) (contents : List Content)
      (expressions : ExpressionTable) (attributes : List (List Nat)),
      compileContents g.comparator limits {} kept = .ok (contents, expressions, []) ∧
      attributes.length = kept.length ∧
      ((compileConstraints kept).compiled.map (resolveReference
        ((compileConstraints kept).compiled.map (·.1)))).toList.flatMap (·.2) = [] ∧
      g.constraints = ((compileConstraints kept).compiled.map
        (resolveReference ((compileConstraints kept).compiled.map (·.1)))).map (·.1) ∧
      g.elements = (((kept.zip contents).zip attributes).zipIdx.map fun x =>
        { declared x.1.1.1 with
          content := { x.1.1.2 with
            model := x.1.1.2.model.bind
              (Grammar.lookupChild (kept.map declared).toArray x.1.1.1.childScope) }
          attributes := x.1.2
          constraints := constraintsOf g.constraints x.2 }).toArray := by
  unfold compile at h
  dsimp only at h
  obtain ⟨⟨contents, expressions, contentFaults⟩, hc, h⟩ := of_bind_eq_ok h
  dsimp only at h
  split at h
  · exact nomatch h
  · rename_i hfaults
    obtain rfl := Except.ok.inj h
    rw [Bool.not_eq_true, Bool.not_eq_false', List.isEmpty_iff] at hfaults
    obtain ⟨hfaults, hresolved⟩ := List.append_eq_nil_iff.mp hfaults
    obtain ⟨hfaults, -⟩ := List.append_eq_nil_iff.mp hfaults
    obtain ⟨-, hcontents⟩ := List.append_eq_nil_iff.mp hfaults
    rw [hcontents] at hc
    refine ⟨_, contents, expressions, _, hc, ?_, hresolved, rfl, rfl⟩
    rw [length_numbersFrom, length_declareAttributes]

/-- **Constraints of a compiled grammar.** Selectors do not select attributes; a keyref, and no
other constraint, refers to a constraint that is no keyref. -/
theorem constraints_of_compile {draft : GrammarDraft} {limits : Limits} {g : Grammar}
    (h : draft.compile limits = .ok g) : ∀ c ∈ g.constraints, c.SelectsElements ∧
      (c.kind = .keyref ↔ c.refer?.isSome) ∧
      ∀ i, c.refer? = some i → ∃ target, g.constraints[i]? = some target ∧
        target.kind ≠ .keyref := by
  obtain ⟨kept, _, _, _, -, -, hresolved, hg, -⟩ := of_compile_eq_ok h
  rw [hg]
  intro c hc
  obtain ⟨_, hr, rfl⟩ := Array.mem_map.mp hc
  obtain ⟨o, ho, rfl⟩ := Array.mem_map.mp hr
  have hwf := wellFormed_compileConstraints kept o ho
  have hnil := List.flatMap_eq_nil_iff.mp hresolved _ (Array.mem_toList_iff.mpr hr)
  obtain ⟨hsel, hkeyref, hrefer⟩ := of_resolveReference hwf hnil
  refine ⟨hsel, hkeyref, fun i hi => ?_⟩
  obtain ⟨target, htarget, hk⟩ := hrefer i hi
  rw [Array.getElem?_map] at htarget
  obtain ⟨o', ho', rfl⟩ := Option.map_eq_some_iff.mp htarget
  refine ⟨(resolveReference ((compileConstraints kept).compiled.map (·.1)) o').1, ?_, ?_⟩
  · rw [Array.getElem?_map, Array.getElem?_map, ho']
    rfl
  · rw [kind_resolveReference]
    exact hk

end GrammarDraft

/-! ## Declarations referred to -/

theorem Grammar.lookup_lt {elements : Array ElementDeclaration} {scope : Scope} {name : Name}
    {i : Nat} (h : lookup elements scope name = some i) : i < elements.size := by
  obtain ⟨hi, -⟩ := Array.findIdx?_eq_some_iff_getElem.mp h
  exact hi

theorem Grammar.lookupChild_lt {elements : Array ElementDeclaration} {scope : Scope} {name : Name}
    {i : Nat} (h : lookupChild elements scope name = some i) : i < elements.size := by
  unfold lookupChild at h
  split at h
  · exact lookup_lt h
  · rcases Option.or_eq_some_iff.mp h with h | ⟨-, h⟩
    · exact lookup_lt h
    · exact lookup_lt h

/-- An answer names a declaration only if the symbol taken refers to it. -/
theorem Symbol.of_answer_bind {resolve : Name → Option Nat} {s : Symbol} {bound : Nat}
    {wildcard? : Option Processing}
    (h : (s.bind resolve).answer = .matched (some bound) wildcard?) :
    ∃ n, resolve n = some bound := by
  obtain ⟨leaf, decl?⟩ := s
  cases leaf with
  | element n =>
    obtain ⟨hn, -⟩ := Match.matched.inj h
    exact ⟨n, hn⟩
  | wildcard w =>
    obtain ⟨hnone, -⟩ := Match.matched.inj h
    exact nomatch hnone

theorem Automaton.mem_choices_bind {resolve : Name → Option Nat} (a : Automaton) {state : Nat}
    {x : Symbol × Nat} (h : x ∈ (a.bind resolve).choices state) :
    ∃ s : Symbol, x.1 = s.bind resolve := by
  unfold choices at h
  split at h
  · obtain ⟨⟨symbol, target⟩, -, hx⟩ := List.mem_filterMap.mp h
    obtain ⟨t, ht, rfl⟩ := Option.map_eq_some_iff.mp hx
    rw [bind, Array.getElem?_map] at ht
    obtain ⟨s, -, rfl⟩ := Option.map_eq_some_iff.mp ht
    exact ⟨s, rfl⟩
  · exact absurd h List.not_mem_nil

/-- A content model only answers with declarations that its names refer to. -/
theorem Model.of_accept_bind {resolve : Name → Option Nat} {m : Model} {c : Option Comparator}
    {s : ModelState} {name : Name} {bound : Nat} {wildcard? : Option Processing}
    (h : ((m.bind resolve).accept c s name).1 = .matched (some bound) wildcard?) :
    ∃ n, resolve n = some bound := by
  have hof {s' : Symbol} {t : Symbol} (ht : t = s'.bind resolve)
      (ha : t.answer = .matched (some bound) wildcard?) : ∃ n, resolve n = some bound := by
    rw [ht] at ha
    exact Symbol.of_answer_bind ha
  cases m with
  | empty => cases s <;> cases h
  | any => cases (Match.matched.inj h).1
  | simple => cases h
  | mixed symbols =>
    rw [bind, accept] at h
    split at h
    · rename_i t ht
      obtain ⟨u, -, hu⟩ := List.mem_map.mp (firstLeast?_eq_some ht).1
      exact hof hu.symm h
    · cases h
  | children a =>
    cases s with
    | children state =>
      rw [bind, accept] at h
      split at h
      · rename_i t target ht
        obtain ⟨u, hu⟩ := a.mem_choices_bind (firstLeast?_eq_some ht).1
        exact hof hu h
      · cases h
    | _ => cases h
  | all group =>
    cases s with
    | all counts =>
      rw [bind, accept, AllGroup.accept] at h
      dsimp only at h
      split at h
      · rename_i t i ht
        have hmem := (firstLeast?_eq_some ht).1
        have hmember := List.fst_mem_of_mem_zipIdx (List.mem_filter.mp hmem).1
        obtain ⟨u, -, hu⟩ := List.mem_map.mp hmember
        have hsymbol : t.symbol = u.symbol.bind resolve := congrArg AllMember.symbol hu.symm
        exact hof hsymbol h
      · cases h
    | _ => cases h

/-- The declarations that content models answer with are there. -/
def Grammar.Closed (g : Grammar) : Prop :=
  ∀ d ∈ g.elements, ∀ c s name bound wildcard?,
    (d.content.model.accept c s name).1 = .matched (some bound) wildcard? → bound < g.elements.size

theorem GrammarDraft.closed_of_compile {draft : GrammarDraft} {limits : Limits} {g : Grammar}
    (h : draft.compile limits = .ok g) : g.Closed := by
  obtain ⟨kept, contents, expressions, attributes, hc, hattributes, -, -, hg⟩ := of_compile_eq_ok h
  have hsize : g.elements.size = kept.length := by
    have hcontents := length_compileContents hc
    rw [hg, List.size_toArray, List.length_map, List.length_zipIdx, List.length_zip,
      List.length_zip, hcontents, hattributes, Nat.min_self, Nat.min_self]
  intro d hd c s name bound wildcard? hmatched
  rw [hg, List.mem_toArray] at hd
  obtain ⟨x, -, rfl⟩ := List.mem_map.mp hd
  obtain ⟨n, hn⟩ := Model.of_accept_bind hmatched
  have hlt := Grammar.lookupChild_lt hn
  rw [List.size_toArray, List.length_map] at hlt
  rw [hsize]
  exact hlt

end MarkupGrammar
