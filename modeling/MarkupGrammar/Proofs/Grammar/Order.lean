import MarkupGrammar.Proofs.Grammar.Attributes
import MarkupGrammar.Proofs.Grammar.Constraints
import MarkupGrammar.Proofs.Grammar.Renumbering
import MarkupGrammar.Proofs.Numbering
import MarkupGrammar.Proofs.Substitution.Declared

/-! # Declarations in another order

Whether a part of a draft is at fault does not depend on the order of the elements: elements are
told apart by their scopes and names (`faults_distinctElements_iff`), constraints by their names
(`faults_compileConstraints_perm`), attributes are compared with those of the same element
(`faults_declareAttributes_iff`), and the contents of all elements have to fit into one table
(`Reordered.exists_compileContents`). So a draft is without faults in any order if it is in one
(`Reordered.faultless`). The grammars that it compiles to in two orders are then renumberings of
each other (`Reordered.renumbered`). -/

namespace MarkupGrammar

namespace GrammarDraft

variable {types : TypeTable} {ds ds' : List ElementDraft} {seen : List (Scope × Name)} {n : Nat}

/-! ## Elements and attributes -/

/-- What tells elements apart. -/
def elementKey (d : ElementDraft) : Scope × Name := (d.scope, d.name)

theorem faults_distinctElements_iff : (distinctElements types seen ds).2 = [] ↔
    (∀ d ∈ ds, elementFaults types d = []) ∧ (ds.map elementKey).Nodup ∧
      ∀ d ∈ ds, elementKey d ∉ seen := by
  induction ds generalizing seen with
  | nil => exact iff_of_true rfl ⟨fun _ h => (nomatch h), List.nodup_nil, fun _ h => (nomatch h)⟩
  | cons d ds ih =>
    have hothers : (∀ e ∈ ds, elementKey e ∉ (d.scope, d.name) :: seen) ↔
        elementKey d ∉ ds.map elementKey ∧ ∀ e ∈ ds, elementKey e ∉ seen := by
      simp only [List.mem_cons, not_or, List.mem_map, not_exists, not_and, forall_and]
      rfl
    unfold distinctElements
    dsimp only
    rw [List.forall_mem_cons, List.forall_mem_cons, List.map_cons, List.nodup_cons]
    by_cases hseen : seen.contains (d.scope, d.name) = true
    · rw [if_pos hseen]
      exact iff_of_false (List.cons_ne_nil _ _) fun h => h.2.2.1 (List.contains_iff_mem.mp hseen)
    · rw [if_neg hseen, List.append_eq_nil_iff, ih, hothers]
      have hnew : elementKey d ∉ seen := fun h => hseen (List.contains_iff_mem.mpr h)
      tauto

theorem faults_declareAttributes_iff : (declareAttributes types n ds).2 = [] ↔
    ∀ d ∈ ds, (AttributeDraft.declareAll types 0 [] d.attributes).2 = [] := by
  induction ds generalizing n with
  | nil => exact iff_of_true rfl fun _ h => (nomatch h)
  | cons d ds ih =>
    unfold declareAttributes
    dsimp only
    rw [List.forall_mem_cons, List.append_eq_nil_iff, List.map_eq_nil_iff, ih, declareAll_eq_map]

/-- The attributes of an element, with the numbers of their element. -/
theorem getElem?_declareAttributes (types : TypeTable) (n : Nat) (ds : List ElementDraft)
    (i : Nat) : (declareAttributes types n ds).1[i]? = (ds[i]?).map fun d =>
      (AttributeDraft.declareAll types (n + i) [] d.attributes).1 := by
  induction ds generalizing n i with
  | nil => rfl
  | cons d ds ih =>
    unfold declareAttributes
    cases i with
    | zero => rfl
    | succ i =>
      have hsum : n + 1 + i = n + (i + 1) := by omega
      dsimp only
      rw [List.getElem?_cons_succ, List.getElem?_cons_succ, ih, hsum]

/-! ## Constraints

The constraints of elements in another order come in another order themselves. -/

section Constraints

variable {σ ρ : Equiv.Perm Nat}

theorem constraintDrafts_perm (hσ : ∀ i, ds'[σ i]? = ds[i]?) :
    ((constraintDrafts ds).map (Prod.map id σ)).Perm (constraintDrafts ds') := by
  have hmap : (constraintDrafts ds).map (Prod.map id σ) =
      (ds.zipIdx.map (Prod.map id σ)).flatMap fun x => x.1.constraints.map (·, x.2) := by
    unfold constraintDrafts
    rw [List.map_flatMap, List.flatMap_map]
    refine List.flatMap_congr fun x _ => ?_
    rw [List.map_map]
    rfl
  rw [hmap]
  exact (zipIdx_perm σ hσ).flatMap_right _

theorem map_name_map (σ : Nat → Nat) (xs : List (ConstraintDraft × Nat)) :
    (xs.map (Prod.map id σ)).map (·.1.name) = xs.map (·.1.name) := by
  rw [List.map_map]
  rfl

/-- What a constraint compiles to does not depend on the number of its element. -/
theorem open?_map (σ ρ : Nat → Nat) (x : ConstraintDraft × Nat) : open? (Prod.map id σ x) =
    (open? x).map (Prod.map (Constraint.renumber σ ρ) id) := by
  obtain ⟨d, element⟩ := x
  have hmoved : d.compile (σ element) = (d.compile element).map (Constraint.renumber σ ρ) := by
    rw [compile_eq_map d (σ element), compile_eq_map d element]
    cases hd : d.compile 0 with
    | error causes => rfl
    | ok c =>
      -- references are resolved later, so there is no number for `ρ` to change
      have hnone : c.refer? = none := (ConstraintDraft.of_compile_eq_ok hd).2.2.1
      unfold Constraint.renumber
      change Except.ok { c with element := σ element } = Except.ok _
      dsimp only
      rw [hnone]
      rfl
  unfold open? Prod.map
  dsimp only [id]
  rw [hmoved]
  cases d.compile element <;> rfl

theorem faults_compileConstraints_perm (hσ : ∀ i, ds'[σ i]? = ds[i]?) :
    (compileConstraints ds').faults = [] ↔ (compileConstraints ds).faults = [] := by
  have hperm := constraintDrafts_perm hσ
  rw [faults_compileConstraints_iff, faults_compileConstraints_iff,
    ← (hperm.map (·.1.name)).nodup_iff, map_name_map]
  refine and_congr_left fun _ => ?_
  simp only [← hperm.mem_iff, List.forall_mem_map, open?_map σ σ, Option.isSome_map]

/-! ### References -/

variable (hσ : ∀ i, ds'[σ i]? = ds[i]?)
  (hρ : ∀ k, (constraintDrafts ds')[ρ k]? = ((constraintDrafts ds)[k]?).map (Prod.map id σ))
  (h : (compileConstraints ds).faults = [])

include hσ hρ h

theorem getElem?_compiled_perm (k : Nat) : (compileConstraints ds').compiled[ρ k]? =
    ((compileConstraints ds).compiled[k]?).map (Prod.map (Constraint.renumber σ ρ) id) := by
  rw [getElem?_compiled ((faults_compileConstraints_perm hσ).mpr h), hρ, getElem?_compiled h]
  cases (constraintDrafts ds)[k]? with
  | none => rfl
  | some x => exact open?_map σ ρ x

theorem find?_compiled_perm (name : Name) :
    Constraint.find? ((compileConstraints ds').compiled.map (·.1)) name =
      (Constraint.find? ((compileConstraints ds).compiled.map (·.1)) name).map ρ := by
  refine findIdx?_of_getElem? ρ (fun i j hi hj => ?_) fun i => ?_
  · have hdraft {k : Nat}
        (hk : (((compileConstraints ds).compiled.map (·.1))[k]?).any (·.name == name) = true) :
        ∃ x, (constraintDrafts ds)[k]? = some x ∧ x.1.name = name := by
      rw [Array.getElem?_map, getElem?_compiled h] at hk
      obtain ⟨c, hc, hname⟩ := (Option.any_eq_true _ _).mp hk
      obtain ⟨o, ho, rfl⟩ := Option.map_eq_some_iff.mp hc
      obtain ⟨x, hx, ho⟩ := Option.bind_eq_some_iff.mp ho
      exact ⟨x, hx, (name_open ho).symm.trans (beq_iff_eq.mp hname)⟩
    obtain ⟨x, hx, hxn⟩ := hdraft hi
    obtain ⟨y, hy, hyn⟩ := hdraft hj
    exact eq_of_getElem?_of_nodup (faults_compileConstraints_iff.mp h).2 hx hy (hxn.trans hyn.symm)
  · rw [Array.getElem?_map, Array.getElem?_map, getElem?_compiled_perm hσ hρ h]
    cases (compileConstraints ds).compiled[i]? <;> rfl

theorem referent_perm (c : Constraint) (refer : Name) :
    (c.renumber σ ρ).referent ((compileConstraints ds').compiled.map (·.1)) refer =
      (c.referent ((compileConstraints ds).compiled.map (·.1)) refer).map ρ := by
  unfold Constraint.referent
  rw [find?_compiled_perm hσ hρ h]
  cases Constraint.find? ((compileConstraints ds).compiled.map (·.1)) refer with
  | none => rfl
  | some i =>
    dsimp only [Option.map_some]
    rw [Array.getElem?_map, Array.getElem?_map, getElem?_compiled_perm hσ hρ h]
    cases (compileConstraints ds).compiled[i]? with
    | none => rfl
    | some target =>
      have hkind : (Prod.map (Constraint.renumber σ ρ) id target).1.kind = target.1.kind := rfl
      have hfields : ((Prod.map (Constraint.renumber σ ρ) id target).1.fields.length !=
          (c.renumber σ ρ).fields.length) = (target.1.fields.length != c.fields.length) := rfl
      dsimp only [Option.map_some]
      rw [hkind, hfields]
      split
      · rfl
      · split <;> rfl

/-- References are to the same constraints. -/
theorem resolveReference_perm (o : OpenConstraint) :
    resolveReference ((compileConstraints ds').compiled.map (·.1))
        (Prod.map (Constraint.renumber σ ρ) id o) =
      Prod.map (Constraint.renumber σ ρ) id
        (resolveReference ((compileConstraints ds).compiled.map (·.1)) o) := by
  obtain ⟨c, refer?⟩ := o
  cases refer? with
  | none => rfl
  | some refer =>
    unfold resolveReference Prod.map
    dsimp only [id]
    rw [referent_perm hσ hρ h]
    cases c.referent ((compileConstraints ds).compiled.map (·.1)) refer <;> rfl

/-- **Constraints**, their references resolved, are the same in another order. -/
theorem getElem?_resolved_perm (k : Nat) : (resolvedConstraints ds')[ρ k]? =
    ((resolvedConstraints ds)[k]?).map (Prod.map (Constraint.renumber σ ρ) id) := by
  unfold resolvedConstraints
  rw [Array.getElem?_map, Array.getElem?_map, getElem?_compiled_perm hσ hρ h, Option.map_map,
    Option.map_map]
  exact congrArg (Option.map · _) (funext fun o => resolveReference_perm hσ hρ h o)

theorem references_perm (hnone : (resolvedConstraints ds).toList.flatMap (·.2) = []) :
    (resolvedConstraints ds').toList.flatMap (·.2) = [] := by
  rw [List.flatMap_eq_nil_iff] at hnone ⊢
  intro x hx
  obtain ⟨k, hk⟩ := Array.mem_iff_getElem?.mp (Array.mem_toList_iff.mp hx)
  obtain ⟨k, rfl⟩ := ρ.surjective k
  rw [getElem?_resolved_perm hσ hρ h] at hk
  obtain ⟨y, hy, rfl⟩ := Option.map_eq_some_iff.mp hk
  exact hnone y (Array.mem_toList_iff.mpr (Array.mem_of_getElem? hy))

/-- **The constraints of an element** are the same, in the same order. -/
theorem constraintsOf_perm (i : Nat) :
    constraintsOf ((resolvedConstraints ds').map (·.1)) (σ i) =
      (constraintsOf ((resolvedConstraints ds).map (·.1)) i).map ρ := by
  have h' := (faults_compileConstraints_perm hσ).mpr h
  refine eq_of_map_getElem?_of_nodup (faults_compileConstraints_iff.mp h').2
    (map_constraintsOf h' (σ i)) ?_
  have hmap : ((ds'[σ i]?).toList.flatMap fun d => d.constraints.map (·, σ i)) =
      ((ds[i]?).toList.flatMap fun d => d.constraints.map (·, i)).map (Prod.map id σ) := by
    rw [hσ, List.map_flatMap]
    refine List.flatMap_congr fun d _ => ?_
    rw [List.map_map]
    rfl
  have hown := congrArg (List.map (Option.map (Prod.map id σ))) (map_constraintsOf h i)
  rw [List.map_map, List.map_map] at hown
  rw [hmap, List.map_map, List.map_map]
  exact (List.map_congr_left fun k _ => hρ k).trans hown

end Constraints

/-! ## Drafts -/

/-- The drafts are the same but for the order of elements, which is changed by `σ`, and of the pairs
of substitution. -/
structure Reordered (σ : Equiv.Perm Nat) (draft draft' : GrammarDraft) : Prop where
  description : draft'.description = draft.description
  types : draft'.types = draft.types
  engine : draft'.engine = draft.engine
  comparator? : draft'.comparator? = draft.comparator?
  substitutions : draft'.substitutions.Perm draft.substitutions
  perm : draft'.elements.Perm draft.elements
  elements : ∀ i, draft'.elements[σ i]? = draft.elements[i]?

namespace Reordered

variable {σ : Equiv.Perm Nat} {draft draft' : GrammarDraft} {limits : Limits}
  {contents : List Content} {expressions : ExpressionTable}

theorem symm (h : Reordered σ draft draft') : Reordered σ.symm draft' draft :=
  ⟨h.description.symm, h.types.symm, h.engine.symm, h.comparator?.symm, h.substitutions.symm,
    h.perm.symm, fun i => by rw [← h.elements, σ.apply_symm_apply]⟩

theorem base_types (h : Reordered σ draft draft') : draft'.base.types = draft.base.types := by
  unfold base
  rw [h.types, h.engine]

theorem base_comparator (h : Reordered σ draft draft') :
    draft'.base.comparator = draft.base.comparator := by
  unfold base Grammar.comparator
  dsimp only
  have hempty : draft'.substitutions.isEmpty = draft.substitutions.isEmpty := by
    rw [Bool.eq_iff_iff, List.isEmpty_iff, List.isEmpty_iff]
    exact ⟨fun hn => (hn ▸ h.substitutions).nil_eq.symm,
      fun hn => (hn ▸ h.substitutions).eq_nil⟩
  rw [h.comparator?, Substitutions.comparator_ofPairs_of_perm h.substitutions,
    Substitutions.isEmpty_ofPairs, Substitutions.isEmpty_ofPairs, hempty]

/-- How the constraints are reordered along with their elements. -/
theorem exists_constraints (h : Reordered σ draft draft') : ∃ ρ : Equiv.Perm Nat,
    ∀ k, (constraintDrafts draft'.elements)[ρ k]? =
      ((constraintDrafts draft.elements)[k]?).map (Prod.map id σ) := by
  obtain ⟨ρ, hρ⟩ := exists_getElem?_of_perm (constraintDrafts_perm h.elements)
  exact ⟨ρ, fun k => by rw [hρ, List.getElem?_map]⟩

theorem exists_compileContents (h : Reordered σ draft draft')
    (hc : compileContents draft.base.comparator limits {} draft.elements =
      .ok (contents, expressions, [])) :
    ∃ contents' expressions', compileContents draft'.base.comparator limits {} draft'.elements =
      .ok (contents', expressions', []) := by
  obtain ⟨hall, hroom⟩ := exists_compileContents_empty_iff.mp ⟨contents, expressions, hc⟩
  rw [h.base_comparator]
  refine exists_compileContents_empty_iff.mpr ⟨fun d hd => hall d (h.perm.mem_iff.mp hd), ?_⟩
  exact ((h.perm.map _).sum_eq).trans_le hroom

/-- **A draft without faults** is without faults in any order. -/
theorem faultless (h : Reordered σ draft draft')
    (hd : draft.Faultless limits contents expressions) :
    ∃ contents' expressions', draft'.Faultless limits contents' expressions' := by
  obtain ⟨ρ, hρ⟩ := h.exists_constraints
  obtain ⟨contents', expressions', hcontents⟩ := h.exists_compileContents hd.contents
  obtain ⟨hown, hnodup, -⟩ := faults_distinctElements_iff.mp hd.elements
  refine ⟨contents', expressions', ?_, ?_, ?_, hcontents, ?_, ?_⟩
  · rw [h.types, h.engine]
    exact hd.types
  · rw [h.base_types]
    exact faults_distinctElements_iff.mpr ⟨fun d hm => hown d (h.perm.mem_iff.mp hm),
      (h.perm.map elementKey).nodup_iff.mpr hnodup, fun d _ => List.not_mem_nil⟩
  · rw [h.base_types]
    have hattributes := faults_declareAttributes_iff.mp hd.attributes
    exact faults_declareAttributes_iff.mpr fun d hm => hattributes d (h.perm.mem_iff.mp hm)
  · exact (faults_compileConstraints_perm h.elements).mpr hd.constraints
  · exact references_perm h.elements hρ hd.constraints hd.references

/-- **Whether there is a grammar** does not depend on the order. -/
theorem isOk_compile (h : Reordered σ draft draft') :
    (draft'.compile limits).isOk = (draft.compile limits).isOk := by
  have hof {σ : Equiv.Perm Nat} {draft draft' : GrammarDraft} (h : Reordered σ draft draft')
      (hok : (draft.compile limits).isOk = true) : (draft'.compile limits).isOk = true := by
    obtain ⟨g, hg⟩ := exists_compile_eq_ok hok
    obtain ⟨contents, expressions, hd, -⟩ := compile_eq_ok_iff.mp hg
    obtain ⟨contents', expressions', hd'⟩ := h.faultless hd
    rw [compile_eq_ok_iff.mpr ⟨contents', expressions', hd', rfl⟩]
    rfl
  exact Bool.eq_iff_iff.mpr ⟨hof h.symm, hof h⟩

end Reordered

/-! ## Grammars -/

section Assembled

variable {σ : Equiv.Perm Nat} {draft draft' : GrammarDraft} {limits : Limits}
  {contents contents' : List Content} {expressions expressions' : ExpressionTable}
  {d : ElementDraft} {i : Nat}

/-- A row of declarations has the scopes and names of the elements. -/
def Names (xs : Array ElementDeclaration) (ds : List ElementDraft) : Prop :=
  ∀ i : Nat, (xs[i]?).map (fun d => (d.scope, d.name)) = (ds[i]?).map elementKey

theorem names_declared (ds : List ElementDraft) : Names (ds.map declared).toArray ds := by
  intro i
  rw [List.getElem?_toArray, List.getElem?_map, Option.map_map]
  rfl

/-- **Names** are looked up at the new numbers. -/
theorem lookup_perm {ds ds' : List ElementDraft} {xs xs' : Array ElementDeclaration}
    (hσ : ∀ i, ds'[σ i]? = ds[i]?) (hnodup : (ds.map elementKey).Nodup) (hx : Names xs ds)
    (hx' : Names xs' ds') (scope : Scope) (name : Name) :
    Grammar.lookup xs' scope name = (Grammar.lookup xs scope name).map σ := by
  have hany {xs : Array ElementDeclaration} {ds : List ElementDraft} (hx : Names xs ds) (i : Nat) :
      (xs[i]?).any (fun d => d.scope == scope && d.name == name) =
        (ds[i]?).any fun d => d.scope == scope && d.name == name := by
    have hkey := congrArg (Option.any fun k => k.1 == scope && k.2 == name) (hx i)
    rwa [Option.any_map, Option.any_map] at hkey
  refine findIdx?_of_getElem? σ (fun i j hi hj => ?_) fun i => by rw [hany hx', hany hx, hσ]
  have hdraft {k : Nat}
      (hk : (xs[k]?).any (fun d => d.scope == scope && d.name == name) = true) :
      ∃ d, ds[k]? = some d ∧ elementKey d = (scope, name) := by
    rw [hany hx] at hk
    obtain ⟨d, hd, hkey⟩ := (Option.any_eq_true _ _).mp hk
    rw [Bool.and_eq_true, beq_iff_eq, beq_iff_eq] at hkey
    exact ⟨d, hd, Prod.ext hkey.1 hkey.2⟩
  obtain ⟨d, hd, hdk⟩ := hdraft hi
  obtain ⟨e, he, hek⟩ := hdraft hj
  exact eq_of_getElem?_of_nodup hnodup hd he (hdk.trans hek.symm)

theorem exists_assembled (h : draft.Faultless limits contents expressions)
    (hd : draft.elements[i]? = some d) :
    ∃ content numbers, contents[i]? = some content ∧
      (numbersFrom 0 (declareAttributes draft.base.types 0 draft.elements).1)[i]? = some numbers ∧
      (draft.assembled contents expressions).elements[i]? =
        some (assembledElement (draft.elements.map declared).toArray
          (draft.assembled contents expressions).constraints d content numbers i) := by
  obtain ⟨hi, -⟩ := List.getElem?_eq_some_iff.mp hd
  have hcontent : i < contents.length := hi.trans_eq (length_contents h).symm
  have hnumbers :
      i < (numbersFrom 0 (declareAttributes draft.base.types 0 draft.elements).1).length := by
    rwa [length_numbersFrom, length_declareAttributes]
  exact ⟨_, _, List.getElem?_eq_getElem hcontent, List.getElem?_eq_getElem hnumbers,
    getElem?_assembled.mpr ⟨d, _, _, hd, List.getElem?_eq_getElem hcontent,
      List.getElem?_eq_getElem hnumbers, rfl⟩⟩

theorem getElem?_assembled_eq_none (h : draft.Faultless limits contents expressions)
    (hd : draft.elements[i]? = none) :
    (draft.assembled contents expressions).elements[i]? = none := by
  rw [Array.getElem?_eq_none_iff, size_assembled h]
  exact List.getElem?_eq_none_iff.mp hd

theorem names_assembled (h : draft.Faultless limits contents expressions) :
    Names (draft.assembled contents expressions).elements draft.elements := by
  intro i
  cases hd : draft.elements[i]? with
  | none => rw [getElem?_assembled_eq_none h hd]; rfl
  | some d =>
    obtain ⟨content, numbers, -, -, he⟩ := exists_assembled h hd
    rw [he]
    rfl

/-- The attributes of an element of a grammar. -/
theorem attributesOf_assembled {e : ElementDeclaration} (hd : draft.elements[i]? = some d)
    (hnumbers : (numbersFrom 0 (declareAttributes draft.base.types 0 draft.elements).1)[i]? =
      some e.attributes) :
    ((draft.assembled contents expressions).attributesOf e).map (·.2) =
      (AttributeDraft.declareAll draft.base.types i [] d.attributes).1 := by
  obtain ⟨l, hl, hback⟩ := filterMap_numbersFrom [] hnumbers
  rw [getElem?_declareAttributes, hd, Nat.zero_add] at hl
  obtain rfl := Option.some.inj hl
  refine Eq.trans ?_ hback
  unfold Grammar.attributesOf
  rw [List.map_filterMap]
  refine List.filterMap_congr fun j _ => ?_
  rw [Option.map_map]
  exact Option.map_id'.trans List.getElem?_toArray

/-- Contents that are compiled from the same draft have the same models. -/
theorem content_eq_of_compile {c : Option Comparator} {ds ds' : List ElementDraft} {i j : Nat}
    {content content' : Content} (hd : ds[i]? = some d) (hd' : ds'[j]? = some d)
    (h : compileContents c limits {} ds = .ok (contents, expressions, []))
    (h' : compileContents c limits {} ds' = .ok (contents', expressions', []))
    (hc : contents[i]? = some content) (hc' : contents'[j]? = some content') :
    content'.category = content.category ∧ content'.model = content.model := by
  obtain ⟨hi, rfl⟩ := List.getElem?_eq_some_iff.mp hd
  obtain ⟨hj, hds⟩ := List.getElem?_eq_some_iff.mp hd'
  obtain ⟨hci, rfl⟩ := List.getElem?_eq_some_iff.mp hc
  obtain ⟨hcj, rfl⟩ := List.getElem?_eq_some_iff.mp hc'
  obtain ⟨alone, n, halone, hshift⟩ := (forall₂_shift_of_compileContents h).get hi hci
  obtain ⟨alone', n', halone', hshift'⟩ := (forall₂_shift_of_compileContents h').get hj hcj
  rw [List.get_eq_getElem] at halone halone' hshift hshift'
  rw [hds] at halone'
  obtain rfl := Except.ok.inj (halone.symm.trans halone')
  rw [hshift, hshift']
  exact ⟨rfl, rfl⟩

namespace Reordered

/-- **An element** is the same in the other order but for the numbers. -/
theorem renumbered_element {ρ : Equiv.Perm Nat} (h : Reordered σ draft draft')
    (hρ : ∀ k, (constraintDrafts draft'.elements)[ρ k]? =
      ((constraintDrafts draft.elements)[k]?).map (Prod.map id σ))
    (hd : draft.Faultless limits contents expressions)
    (hd' : draft'.Faultless limits contents' expressions') (i : Nat) :
    Option.Rel (ElementDeclaration.Renumbered σ ρ (draft.assembled contents expressions)
        (draft'.assembled contents' expressions'))
      (draft.assembled contents expressions).elements[i]?
      (draft'.assembled contents' expressions').elements[σ i]? := by
  cases hi : draft.elements[i]? with
  | none =>
    rw [getElem?_assembled_eq_none hd hi,
      getElem?_assembled_eq_none hd' ((h.elements i).trans hi)]
    exact .none
  | some d =>
    have hi' : draft'.elements[σ i]? = some d := (h.elements i).trans hi
    obtain ⟨content, numbers, hcontent, hnumbers, he⟩ := exists_assembled hd hi
    obtain ⟨content', numbers', hcontent', hnumbers', he'⟩ := exists_assembled hd' hi'
    have hcompiled := hd'.contents
    rw [h.base_comparator] at hcompiled
    obtain ⟨hcategory, hmodel⟩ :=
      content_eq_of_compile hi hi' hd.contents hcompiled hcontent hcontent'
    have hsound := (sound_compileContents .empty hd.contents).2.2 content
      (List.mem_of_getElem? hcontent)
    have hnames := lookup_perm h.elements (faults_distinctElements_iff.mp hd.elements).2.1
      (names_declared _) (names_declared _)
    rw [he, he']
    refine .some ⟨rfl, rfl, hcategory, ?_, rfl, rfl, rfl, ?_, ?_⟩
    · change content'.model.bind _ = (content.model.bind _).renumber σ
      rw [hmodel, ← Model.bind_map_eq_renumber hsound.unbound]
      exact congrArg content.model.bind
        (funext fun n => Grammar.lookupChild_map hnames d.childScope n)
    · rw [attributesOf_assembled hi hnumbers, attributesOf_assembled hi' hnumbers',
        h.base_types, declareAll_eq_map _ (σ i), declareAll_eq_map _ i, List.map_map]
      rfl
    · exact constraintsOf_perm h.elements hρ hd.constraints i

/-- **The grammars of a draft in two orders** are renumberings of each other. -/
theorem renumbered (h : Reordered σ draft draft')
    (hd : draft.Faultless limits contents expressions)
    (hd' : draft'.Faultless limits contents' expressions') : ∃ ρ : Equiv.Perm Nat,
      (draft.assembled contents expressions).Renumbered σ ρ
        (draft'.assembled contents' expressions') := by
  obtain ⟨ρ, hρ⟩ := h.exists_constraints
  have hlookup := lookup_perm h.elements (faults_distinctElements_iff.mp hd.elements).2.1
    (names_assembled hd) (names_assembled hd')
  refine ⟨ρ, h.description, h.base_types, h.base_comparator, hlookup,
    h.renumbered_element hρ hd hd', fun k => ?_, ρ.injective⟩
  change ((resolvedConstraints draft'.elements).map (·.1))[ρ k]? =
    (((resolvedConstraints draft.elements).map (·.1))[k]?).map _
  rw [Array.getElem?_map, Array.getElem?_map, getElem?_resolved_perm h.elements hρ hd.constraints,
    Option.map_map, Option.map_map]
  rfl

theorem renumbered_of_compile {g g' : Grammar} (h : Reordered σ draft draft')
    (hg : draft.compile limits = .ok g) (hg' : draft'.compile limits = .ok g') :
    ∃ ρ : Equiv.Perm Nat, g.Renumbered σ ρ g' := by
  obtain ⟨contents, expressions, hd, rfl⟩ := compile_eq_ok_iff.mp hg
  obtain ⟨contents', expressions', hd', rfl⟩ := compile_eq_ok_iff.mp hg'
  exact h.renumbered hd hd'

end Reordered

end Assembled

end GrammarDraft

end MarkupGrammar
