import MarkupGrammar.Proofs.Grammar.Compiled

/-! # How a grammar is put together

A draft without faults keeps all its elements, so what is compiled can be said without those that
are left out: there is a grammar exactly if no part of the draft is at fault, and then it is the one
put together from the parts (`compile_eq_ok_iff`). The elements of the grammar stand in the order of
the draft, and each is found at its number (`getElem?_assembled`). -/

namespace MarkupGrammar

namespace GrammarDraft

variable {draft : GrammarDraft} {limits : Limits} {types : TypeTable} {ds : List ElementDraft}
  {seen : List (Scope × Name)} {contents : List Content} {expressions : ExpressionTable}

/-- What a grammar has before its elements. -/
def base (draft : GrammarDraft) : Grammar where
  description := draft.description
  types := (({} : TypeTable).declareAll draft.engine draft.types).1
  substitutions := .ofPairs draft.substitutions
  comparator? := draft.comparator?

/-- The constraints of elements, the references of keyrefs resolved, each with the faults of its
reference. -/
def resolvedConstraints (ds : List ElementDraft) : Array (Constraint × List Fault) :=
  (compileConstraints ds).compiled.map
    (resolveReference ((compileConstraints ds).compiled.map (·.1)))

/-- No part of the draft is at fault, and the contents are compiled. -/
structure Faultless (draft : GrammarDraft) (limits : Limits) (contents : List Content)
    (expressions : ExpressionTable) : Prop where
  types : (({} : TypeTable).declareAll draft.engine draft.types).2 = []
  elements : (distinctElements draft.base.types [] draft.elements).2 = []
  attributes : (declareAttributes draft.base.types 0 draft.elements).2 = []
  contents : compileContents draft.base.comparator limits {} draft.elements =
    .ok (contents, expressions, [])
  constraints : (compileConstraints draft.elements).faults = []
  references : (resolvedConstraints draft.elements).toList.flatMap (·.2) = []

/-- The element of a draft, with its number and what has been compiled for it. -/
def assembledElement (elements : Array ElementDeclaration) (constraints : Array Constraint)
    (d : ElementDraft) (content : Content) (attributes : List Nat) (i : Nat) :
    ElementDeclaration :=
  { declared d with
    content :=
      { content with model := content.model.bind (Grammar.lookupChild elements d.childScope) }
    attributes
    constraints := constraintsOf constraints i }

/-- The grammar of a draft without faults. -/
def assembled (draft : GrammarDraft) (contents : List Content) (expressions : ExpressionTable) :
    Grammar :=
  let attributes := (declareAttributes draft.base.types 0 draft.elements).1
  let constraints := (resolvedConstraints draft.elements).map (·.1)
  { draft.base with
    elements := (((draft.elements.zip contents).zip (numbersFrom 0 attributes)).zipIdx.map fun x =>
      assembledElement (draft.elements.map declared).toArray constraints
        x.1.1.1 x.1.1.2 x.1.2 x.2).toArray
    attributes := attributes.flatten.toArray
    constraints
    expressions }

/-- Where no element is at fault, all are kept. -/
theorem distinctElements_eq (h : (distinctElements types seen ds).2 = []) :
    (distinctElements types seen ds).1 = ds := by
  induction ds generalizing seen with
  | nil => rfl
  | cons d ds ih =>
    unfold distinctElements at h ⊢
    dsimp only at h ⊢
    split at h
    · exact nomatch h
    · rename_i hnew
      rw [if_neg hnew]
      exact congrArg (d :: ·) (ih (List.append_eq_nil_iff.mp h).2)

/-- **There is a grammar exactly if nothing is at fault, and it is the one put together from the
parts.** -/
theorem compile_eq_ok_iff {g : Grammar} : draft.compile limits = .ok g ↔
    ∃ contents expressions, draft.Faultless limits contents expressions ∧
      g = draft.assembled contents expressions := by
  constructor
  · intro h
    unfold compile at h
    dsimp only at h
    obtain ⟨⟨contents, expressions, contentFaults⟩, hcontents, h⟩ := of_bind_eq_ok h
    dsimp only at h
    split at h
    · exact nomatch h
    · rename_i hfaults
      rw [Bool.not_eq_true, Bool.not_eq_false', List.isEmpty_iff] at hfaults
      simp only [List.append_eq_nil_iff] at hfaults
      obtain ⟨⟨⟨⟨⟨htypes, helements⟩, hattributes⟩, hcontent⟩, hconstraints⟩, hreferences⟩ :=
        hfaults
      have hkept := distinctElements_eq helements
      rw [hkept] at hattributes hconstraints hreferences hcontents
      rw [hcontent] at hcontents
      refine ⟨contents, expressions,
        ⟨htypes, helements, hattributes, hcontents, hconstraints, hreferences⟩, ?_⟩
      rw [hkept] at h
      exact (Except.ok.inj h).symm
  · rintro ⟨contents, expressions, h, rfl⟩
    have hkept := distinctElements_eq h.elements
    have hcontents := h.contents
    unfold compile
    dsimp only
    unfold base at hkept hcontents
    rw [hkept, hcontents]
    have hfaults : (({} : TypeTable).declareAll draft.engine draft.types).2 ++
        (distinctElements draft.base.types [] draft.elements).2 ++
        (declareAttributes draft.base.types 0 draft.elements).2 ++ [] ++
        (compileConstraints draft.elements).faults ++
        (resolvedConstraints draft.elements).toList.flatMap (·.2) = [] := by
      rw [h.types, h.elements, h.attributes, h.constraints, h.references]
      rfl
    refine (if_neg fun hne => ?_).trans rfl
    exact Bool.noConfusion ((congrArg not (List.isEmpty_iff.mpr hfaults)).symm.trans hne)

/-! ## Elements by their numbers -/

variable {i : Nat}

theorem length_contents (h : draft.Faultless limits contents expressions) :
    contents.length = draft.elements.length := length_compileContents h.contents

@[simp] theorem size_assembled (h : draft.Faultless limits contents expressions) :
    (draft.assembled contents expressions).elements.size = draft.elements.length := by
  unfold assembled
  rw [List.size_toArray, List.length_map, List.length_zipIdx, List.length_zip, List.length_zip,
    length_contents h, length_numbersFrom, length_declareAttributes, Nat.min_self, Nat.min_self]

/-- **The elements of a grammar** stand where their drafts stand. -/
theorem getElem?_assembled {e : ElementDeclaration} :
    (draft.assembled contents expressions).elements[i]? = some e ↔
      ∃ d content numbers, draft.elements[i]? = some d ∧ contents[i]? = some content ∧
        (numbersFrom 0 (declareAttributes draft.base.types 0 draft.elements).1)[i]? =
          some numbers ∧
        e = assembledElement (draft.elements.map declared).toArray
          (draft.assembled contents expressions).constraints d content numbers i := by
  unfold assembled
  dsimp only
  rw [List.getElem?_toArray, List.getElem?_map, List.getElem?_zipIdx, Nat.zero_add, Option.map_map]
  constructor
  · intro h
    obtain ⟨⟨⟨d, content⟩, numbers⟩, hx, rfl⟩ := Option.map_eq_some_iff.mp h
    obtain ⟨hpart, hnumbers⟩ := List.getElem?_zip_eq_some.mp hx
    obtain ⟨hd, hcontent⟩ := List.getElem?_zip_eq_some.mp hpart
    exact ⟨d, content, numbers, hd, hcontent, hnumbers, rfl⟩
  · rintro ⟨d, content, numbers, hd, hcontent, hnumbers, rfl⟩
    exact Option.map_eq_some_iff.mpr ⟨((d, content), numbers), List.getElem?_zip_eq_some.mpr
      ⟨List.getElem?_zip_eq_some.mpr ⟨hd, hcontent⟩, hnumbers⟩, rfl⟩

end GrammarDraft

end MarkupGrammar
