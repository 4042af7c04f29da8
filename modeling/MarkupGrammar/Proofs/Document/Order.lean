import MarkupGrammar.Proofs.Document.Renumbering
import MarkupGrammar.Proofs.Document.Safety
import MarkupGrammar.Proofs.Grammar.Order
import MarkupGrammar.Proofs.Keys.Pool
import MarkupGrammar.Proofs.Keys.Renumbering

/-! # Documents do not depend on the order of declarations

A validation against a renumbered grammar *corresponds* to one against the grammar itself if its
walk and its keys are renumbered and the rest is the same, pools apart. A request has the same
answer from both, and they correspond after it (`Corresponds.respond`). So whatever is requested,
and whatever document is validated, the order of elements and of the pairs of substitution in the
draft cannot be told from the replies and reports (`GrammarDraft.compile_perm`). -/

namespace MarkupGrammar

namespace Validation

variable {σ ρ : Nat → Nat} {g g' : Grammar} {o : ValidationOptions} {v w : Validation}

/-- The validations, of a grammar and of a renumbered one, are the same but for the numbers and the
pools, and what is in them is there. -/
structure Corresponds (σ ρ : Nat → Nat) (g g' : Grammar) (v w : Validation) : Prop where
  walk : w.walk = v.walk.renumber σ
  keys : w.keys.keys = v.keys.keys.renumber σ ρ
  identifiers : w.identifiers = v.identifiers
  violations : w.violations = v.violations
  wellFormed : v.WellFormed g
  sound : w.keys.Sound g'

theorem Corresponds.exists_keys (h : Corresponds σ ρ g g' v w) :
    ∃ k : PooledKeys, w = ⟨v.walk.renumber σ, k, v.identifiers, v.violations⟩ ∧
      k.keys = v.keys.keys.renumber σ ρ ∧ k.Sound g' :=
  ⟨w.keys, by rw [← h.walk, ← h.identifiers, ← h.violations], h.keys, h.sound⟩

/-- Both steps have the same result, and lead to validations that correspond. -/
def CorrespondAfter (σ ρ : Nat → Nat) (g g' : Grammar) {α : Type} (x y : α × Validation) : Prop :=
  y.1 = x.1 ∧ Corresponds σ ρ g g' x.2 y.2

theorem CorrespondAfter.cases {x y : Except Failure Unit × Validation}
    (h : CorrespondAfter σ ρ g g' x y) :
    (∃ f v w, x = (.error f, v) ∧ y = (.error f, w) ∧ Corresponds σ ρ g g' v w) ∨
      ∃ v w, x = (.ok (), v) ∧ y = (.ok (), w) ∧ Corresponds σ ρ g g' v w := by
  obtain ⟨result, v⟩ := x
  obtain ⟨result', w⟩ := y
  obtain ⟨hresult, hnext⟩ := h
  obtain rfl : result' = result := hresult
  cases result' with
  | error f => exact .inl ⟨f, v, w, rfl, rfl, hnext⟩
  | ok u => exact .inr ⟨v, w, rfl, rfl, hnext⟩

theorem Corresponds.depth (h : Corresponds σ ρ g g' v w) : w.depth = v.depth := by
  unfold Validation.depth
  rw [h.walk, ContentWalk.depth_renumber]

/-- Validations that begin a document correspond. -/
theorem corresponds_restart (hv : v.WellFormed g) (hw : w.keys.Sound g') :
    Corresponds σ ρ g g' v.restart w.restart :=
  ⟨rfl, rfl, rfl, rfl, hv.restart, hw.clear⟩

section Renumbered

/-! ## Start tags -/

theorem declaration?_renumber (mode : Mode) :
    (mode.renumber σ).declaration? = mode.declaration?.map σ := by cases mode <;> rfl

variable (hr : g.Renumbered σ ρ g') (hg : g.WellFormed) (hclosed : g.Closed)
include hr

theorem declaration_renumber (mode : Mode) :
    Option.Rel (ElementDeclaration.Renumbered σ ρ g g')
      (mode.declaration?.bind (g.elements[·]?))
      ((mode.renumber σ).declaration?.bind (g'.elements[·]?)) := by
  rw [declaration?_renumber]
  cases mode.declaration? with
  | none => exact .none
  | some i => exact hr.element i

theorem checkAttributes_renumber (hids : w.identifiers = v.identifiers) (mode : Mode)
    (path : String) (as : List Attribute) :
    checkAttributes g' o w (mode.renumber σ) path as = checkAttributes g o v mode path as := by
  have hrel := declaration_renumber hr mode
  unfold checkAttributes
  rw [hids]
  generalize mode.declaration?.bind (g.elements[·]?) = d?,
    (mode.renumber σ).declaration?.bind (g'.elements[·]?) = d'? at hrel ⊢
  cases hrel with
  | none => rfl
  | some hd => exact Grammar.Renumbered.checkAttributes_eq hr hd o.context _ path as

theorem type?_renumber (mode : Mode) :
    ((mode.renumber σ).declaration?.bind (g'.elements[·]?)).bind (·.type?) =
      (mode.declaration?.bind (g.elements[·]?)).bind (·.type?) := by
  have hrel := declaration_renumber hr mode
  generalize mode.declaration?.bind (g.elements[·]?) = d?,
    (mode.renumber σ).declaration?.bind (g'.elements[·]?) = d'? at hrel ⊢
  cases hrel with
  | none => rfl
  | some hd => exact hd.type?

/-- The keys go on the same, whatever is in the pools. -/
theorem keys_start_renumber {k k' : PooledKeys} (hk : k'.keys = k.keys.renumber σ ρ)
    (h : k.Sound g) (h' : k'.Sound g') (element? : Option Nat) (e : TagEvent) (path : String) :
    (k'.start g' (element?.map σ) e path).1.keys =
        (k.start g element? e path).1.keys.renumber σ ρ ∧
      (k'.start g' (element?.map σ) e path).2 = (k.start g element? e path).2 := by
  have heq := (h'.start_eq (element?.map σ) e path).1
  rw [hk, Keys.start_renumber hr, ← (h.start_eq element? e path).1] at heq
  exact Prod.mk.inj heq

include hg hclosed

theorem Corresponds.start (h : Corresponds σ ρ g g' v w) (name : Name) (as : List Attribute) :
    CorrespondAfter σ ρ g g' (v.settle (v.start g o name as))
      (w.settle (w.start g' o name as)) := by
  have hchecked (s : ContentWalk.Start) :=
    checkAttributes_renumber hr (o := o) h.identifiers s.mode s.path as
  have hwf := h.wellFormed
  obtain ⟨k', rfl, hk, hsound⟩ := h.exists_keys
  obtain ⟨walk, k, ids, vs⟩ := v
  dsimp only at hk
  have hwalk := ContentWalk.start_renumber hr hg hclosed hwf.walk o.limits o.checksRoot name
  unfold Validation.start
  rcases hwf.walk.start hg hclosed o.limits o.checksRoot name with ⟨n, hs⟩ | ⟨s, hs, hnext⟩
  · rw [hs] at hwalk
    rw [hs, hwalk]
    exact ⟨rfl, rfl, hk, rfl, rfl, hwf, hsound⟩
  · rw [hs] at hwalk
    rw [hs, hwalk]
    dsimp only [bind, Except.bind, Except.map, ContentWalk.Start.renumber]
    rw [hchecked s, type?_renumber hr, declaration?_renumber]
    cases hc : o.checksConstraints with
    | false => exact ⟨rfl, rfl, hk, rfl, rfl, ⟨hnext, hwf.keys⟩, hsound⟩
    | true =>
      generalize (⟨name, (checkAttributes g o ⟨walk, k, ids, vs⟩ s.mode s.path as).effective.map
        (·.typed), (s.mode.declaration?.bind (g.elements[·]?)).bind (·.type?)⟩ : TagEvent) = e
      have hkeys := keys_start_renumber hr hk hwf.keys.sound hsound s.mode.declaration? e s.path
      have hwf' := hwf.keys.start s.mode.declaration? e s.path
      have hsound' := hsound.start (s.mode.declaration?.map σ) e s.path
      simp only [↓reduceIte]
      -- the starts stand for their parts from here on, which need not be computed to be compared
      generalize k.start g s.mode.declaration? e s.path = x,
        k'.start g' (s.mode.declaration?.map σ) e s.path = y at hkeys hwf' hsound' ⊢
      obtain ⟨next, reported⟩ := x
      obtain ⟨next', reported'⟩ := y
      obtain ⟨hkeys, rfl⟩ := hkeys
      exact ⟨rfl, rfl, hkeys, rfl, rfl, ⟨hnext, hwf'⟩, hsound'⟩

/-! ## Other events -/

omit hclosed in
theorem Corresponds.stop (h : Corresponds σ ρ g g' v w) (name : Name) :
    CorrespondAfter σ ρ g g' (v.stop g o name) (w.stop g' o name) := by
  have hwf := h.wellFormed
  obtain ⟨k', rfl, hk, hsound⟩ := h.exists_keys
  obtain ⟨walk, k, ids, vs⟩ := v
  dsimp only at hk
  have hwalk := ContentWalk.stop_renumber hr hwf.walk o.context name
  have hnext := (hwf.walk.stop o.context name).2
  unfold Validation.stop
  dsimp only
  rw [hwalk]
  rcases hs : walk.stop g o.context name with ⟨f | violations, next⟩
  · -- the walk has gone on though the tag fails, the keys have not
    rw [hs] at hnext
    exact ⟨rfl, rfl, hk, rfl, rfl, ⟨hnext, hwf.keys⟩, hsound⟩
  · rw [hs] at hnext
    cases hc : o.checksConstraints with
    | false => exact ⟨rfl, rfl, hk, rfl, rfl, ⟨hnext, hwf.keys⟩, hsound⟩
    | true =>
      have hstop := Keys.stop_renumber hr k.keys
      rw [← hk] at hstop
      refine ⟨rfl, rfl, congrArg Prod.fst hstop, rfl, ?_, ⟨hnext, hwf.keys.stop hg⟩, hsound.stop⟩
      exact congrArg (fun x => vs ++ (violations ++ x.2)) hstop

omit hg hclosed in
theorem Corresponds.characters (h : Corresponds σ ρ g g' v w) (text : String) :
    CorrespondAfter σ ρ g g' (v.settle (v.characters g o text))
      (w.settle (w.characters g' o text)) := by
  have hwf := h.wellFormed
  obtain ⟨k', rfl, hk, hsound⟩ := h.exists_keys
  obtain ⟨walk, k, ids, vs⟩ := v
  dsimp only at hk
  have hwalk := ContentWalk.characters_renumber hr hwf.walk text
  obtain ⟨next, violations, hs, hnext⟩ := hwf.walk.characters text
  rw [hs] at hwalk
  unfold Validation.characters
  rw [hs, hwalk]
  cases hc : o.checksConstraints with
  | false => exact ⟨rfl, rfl, hk, rfl, rfl, ⟨hnext, hwf.keys⟩, hsound⟩
  | true =>
    have hkeys : k'.keys.characters text = (k.keys.characters text).renumber σ ρ := by
      rw [hk, Keys.characters_renumber]
    exact ⟨rfl, rfl, hkeys, rfl, rfl, ⟨hnext, hwf.keys.characters text⟩, hsound.characters text⟩

theorem Corresponds.step (h : Corresponds σ ρ g g' v w) (e : Event) :
    CorrespondAfter σ ρ g g' (v.step g o e) (w.step g' o e) := by
  cases e with
  | start name as => exact h.start hr hg hclosed name as
  | characters text => exact h.characters hr text
  | stop name => exact h.stop hr hg name

omit hg hclosed

/-- **The report** is the same. -/
theorem Corresponds.finish (h : Corresponds σ ρ g g' v w) :
    CorrespondAfter σ ρ g g' (v.finish g o) (w.finish g' o) := by
  have hdepth := h.depth
  unfold Validation.finish
  rw [hdepth]
  by_cases hd : v.depth > 0
  · rw [if_pos hd, if_pos hd]
    exact ⟨rfl, h⟩
  · rw [if_neg hd, if_neg hd]
    have hwf := h.wellFormed
    obtain ⟨k', rfl, hk, hsound⟩ := h.exists_keys
    obtain ⟨walk, k, ids, vs⟩ := v
    dsimp only at hk
    cases hc : o.checksConstraints with
    | false => exact ⟨rfl, rfl, hk, rfl, rfl, ⟨hwf.walk, hwf.keys⟩, hsound⟩
    | true =>
      have hfinish := Keys.finish_renumber hr k.keys
      rw [← hk] at hfinish
      refine ⟨?_, rfl, congrArg Prod.fst hfinish, rfl, rfl, ⟨hwf.walk, hwf.keys.finish⟩,
        hsound.finish⟩
      exact congrArg
        (fun x : Keys × List Violation => (.ok ⟨vs ++ x.2 ++
          if o.checksIdentifiers then ids.dangling.map danglingViolation else []⟩ :
          Except Failure Report)) hfinish

/-- The end of a document, which is reported if nothing has failed. -/
theorem CorrespondAfter.finish {x y : Except Failure Unit × Validation} :
    CorrespondAfter σ ρ g g' x y →
      (match y with
        | (.ok (), w) => w.finish g' o
        | (.error f, w) => (.error f, w) : Except Failure Report × Validation).1 =
      (match x with
        | (.ok (), v) => v.finish g o
        | (.error f, v) => (.error f, v) : Except Failure Report × Validation).1 := by
  intro h
  rcases h.cases with ⟨f, v, w, rfl, rfl, -⟩ | ⟨v, w, rfl, rfl, hnext⟩
  · rfl
  · exact (hnext.finish hr).1

include hg hclosed

/-! ## Requests -/

/-- **Validations that correspond give the same answers** and correspond afterwards. -/
theorem Corresponds.respond (h : Corresponds σ ρ g g' v w) (r : Request) :
    CorrespondAfter σ ρ g g' (v.respond g o r) (w.respond g' o r) := by
  cases r with
  | start => exact ⟨rfl, corresponds_restart h.wellFormed h.sound⟩
  | event e =>
    obtain ⟨hresult, hnext⟩ := h.step hr hg hclosed e (o := o)
    refine ⟨?_, hnext⟩
    unfold Validation.respond outcome
    dsimp only
    rw [hresult, h.violations, hnext.violations]
  | finish =>
    obtain ⟨hresult, hnext⟩ := h.finish hr (o := o)
    exact ⟨congrArg Answer.report hresult, hnext⟩

theorem Corresponds.serve (h : Corresponds σ ρ g g' v w) (rs : List Request) :
    (w.serve g' o rs).1 = (v.serve g o rs).1 := by
  induction rs generalizing v w with
  | nil => rfl
  | cons r rs ih =>
    obtain ⟨hanswer, hnext⟩ := h.respond hr hg hclosed r (o := o)
    unfold Validation.serve
    dsimp only
    rw [hanswer, ih hnext, hnext.depth, hnext.violations]

/-! ## Documents -/

theorem Corresponds.run (h : Corresponds σ ρ g g' v w) (es : List Event) :
    CorrespondAfter σ ρ g g' (v.run g o es) (w.run g' o es) := by
  induction es generalizing v w with
  | nil => exact ⟨rfl, h⟩
  | cons e es ih =>
    unfold Validation.run
    rcases (h.step hr hg hclosed e (o := o)).cases with ⟨f, v, w, hv, hw, hnext⟩ |
      ⟨v, w, hv, hw, hnext⟩
    · rw [hv, hw]
      exact ⟨rfl, hnext⟩
    · rw [hv, hw]
      exact ih hnext

end Renumbered

mutual
theorem correspond_follow (hr : g.Renumbered σ ρ g') (hg : g.WellFormed) (hclosed : g.Closed)
    (n : Node) {v w : Validation} (h : Corresponds σ ρ g g' v w) :
    CorrespondAfter σ ρ g g' (v.follow g o n) (w.follow g' o n) := by
  unfold Validation.follow
  cases n with
  | element name as children =>
    rcases (h.step hr hg hclosed (.start name as) (o := o)).cases with ⟨f, v₁, w₁, hv, hw, hnext⟩ |
      ⟨v₁, w₁, hv, hw, hnext⟩
    · dsimp only
      rw [hv, hw]
      exact ⟨rfl, hnext⟩
    · dsimp only
      rw [hv, hw]
      rcases (correspond_followAll hr hg hclosed children hnext).cases with
        ⟨f, v₂, w₂, hv, hw, hlast⟩ | ⟨v₂, w₂, hv, hw, hlast⟩
      · dsimp only
        rw [hv, hw]
        exact ⟨rfl, hlast⟩
      · dsimp only
        rw [hv, hw]
        exact hlast.step hr hg hclosed (.stop name)
  | text s =>
    dsimp only
    rw [h.depth]
    split
    · exact ⟨rfl, h⟩
    · exact h.step hr hg hclosed (.characters s)
  | aside => exact ⟨rfl, h⟩

theorem correspond_followAll (hr : g.Renumbered σ ρ g') (hg : g.WellFormed) (hclosed : g.Closed)
    (ns : List Node) {v w : Validation} (h : Corresponds σ ρ g g' v w) :
    CorrespondAfter σ ρ g g' (v.followAll g o ns) (w.followAll g' o ns) := by
  unfold Validation.followAll
  cases ns with
  | nil => exact ⟨rfl, h⟩
  | cons n ns =>
    rcases (correspond_follow hr hg hclosed n h).cases with ⟨f, v₁, w₁, hv, hw, hnext⟩ |
      ⟨v₁, w₁, hv, hw, hnext⟩
    · dsimp only
      rw [hv, hw]
      exact ⟨rfl, hnext⟩
    · dsimp only
      rw [hv, hw]
      exact correspond_followAll hr hg hclosed ns hnext
end

end Validation

/-! ## The order of declarations -/

/-- The grammars cannot be told apart: under any options, the replies to whatever is requested of a
validation are the same, and so are the reports on whole documents, given as events or as trees. -/
structure Grammar.SameReports (g g' : Grammar) : Prop where
  serve : ∀ (o : ValidationOptions) (rs : List Request),
    (({} : Validation).serve g' o rs).1 = (({} : Validation).serve g o rs).1
  validate : ∀ (o : ValidationOptions) (es : List Event),
    (({} : Validation).validate g' o es).1 = (({} : Validation).validate g o es).1
  validateTree : ∀ (o : ValidationOptions) (ns : List Node),
    (({} : Validation).validateTree g' o ns).1 = (({} : Validation).validateTree g o ns).1

/-- **Renumbered grammars** cannot be told apart. -/
theorem Grammar.Renumbered.sameReports {σ ρ : Nat → Nat} {g g' : Grammar}
    (hr : g.Renumbered σ ρ g') (hg : g.WellFormed) (hclosed : g.Closed) : g.SameReports g' := by
  have hnew : Validation.Corresponds σ ρ g g' {} {} :=
    ⟨rfl, rfl, rfl, rfl, Validation.wellFormed_empty, PooledKeys.sound_empty⟩
  have hrestart := Validation.corresponds_restart (σ := σ) (ρ := ρ) hnew.wellFormed hnew.sound
  exact ⟨fun o rs => hnew.serve hr hg hclosed rs,
    fun o es => (hrestart.run hr hg hclosed es).finish hr,
    fun o ns => (Validation.correspond_followAll hr hg hclosed ns hrestart).finish hr⟩

/-- **The order of declarations makes no difference.** Let the elements of a draft, and the pairs of
heads and members of substitution groups, be put in another order. There is a grammar in the one
order exactly if there is one in the other, and then these cannot be told apart. -/
theorem GrammarDraft.compile_perm (draft : GrammarDraft) (limits : Limits)
    {elements : List ElementDraft} {substitutions : List (Name × Name)}
    (he : elements.Perm draft.elements) (hs : substitutions.Perm draft.substitutions) :
    ((({ draft with elements, substitutions } : GrammarDraft).compile limits).isOk ↔
        (draft.compile limits).isOk) ∧
      ∀ g g', draft.compile limits = .ok g →
        ({ draft with elements, substitutions } : GrammarDraft).compile limits = .ok g' →
          g.SameReports g' := by
  obtain ⟨σ, hσ⟩ := exists_getElem?_of_perm he.symm
  have hreordered : Reordered σ draft { draft with elements, substitutions } :=
    ⟨rfl, rfl, rfl, rfl, hs, he, hσ⟩
  refine ⟨by rw [hreordered.isOk_compile], fun g g' hg hg' => ?_⟩
  obtain ⟨ρ, hr⟩ := hreordered.renumbered_of_compile hg hg'
  exact hr.sameReports (wellFormed_of_compile hg) (closed_of_compile hg)

/-- A catalogue where headings may stand for titles, and books and journals for items. -/
def substitutedCatalogue : GrammarDraft :=
  { catalogue with
    elements := catalogue.elements ++ [
      { name := .unqualified "heading", content := .mixedSimple [] },
      { name := .unqualified "book", content := .any,
        attributes := [{ name := .unqualified "code", presence := .required }] }]
    substitutions := [(.unqualified "title", .unqualified "heading"),
      (.unqualified "item", .unqualified "book"), (.unqualified "item", .unqualified "journal")] }

theorem GrammarDraft.compile_perm_reverse : ∃ g g', substitutedCatalogue.compile {} = .ok g ∧
    ({ substitutedCatalogue with
        elements := substitutedCatalogue.elements.reverse
        substitutions := substitutedCatalogue.substitutions.reverse } : GrammarDraft).compile {} =
      .ok g' ∧ g.SameReports g' := by
  have hok : (substitutedCatalogue.compile {}).isOk := by decide +kernel
  obtain ⟨hiff, hsame⟩ := compile_perm substitutedCatalogue {} (List.reverse_perm _)
    (List.reverse_perm _)
  obtain ⟨g, hg⟩ := exists_compile_eq_ok hok
  obtain ⟨g', hg'⟩ := exists_compile_eq_ok (hiff.mpr hok)
  exact ⟨g, g', hg, hg', hsame g g' hg hg'⟩

end MarkupGrammar
