import MarkupGrammar.Document.Session
import MarkupGrammar.Proofs.Document.WellFormed
import MarkupGrammar.Proofs.Keys.WellFormed

/-! # Validation meets no defect

Whatever is requested of a validation against a compiled grammar, in whatever order, what its state
refers to is there, so no request fails for a defect of a table (`GrammarDraft.safe_of_compile`). A
request may fail for the depth or for markup. After an end tag that fails the walk and the keys are
not at the same element any more; each of them stays well-formed by itself. -/

namespace MarkupGrammar

variable {g : Grammar} {o : ValidationOptions}

/-- Why the request has failed. -/
def Answer.failure? : Answer → Option Failure
  | .started => none
  | .outcome (.ok _) | .report (.ok _) => none
  | .outcome (.error f) | .report (.error f) => some f

/-- The failure is one of the document. -/
def Failure.IsOfDocument (f : Failure) : Prop := (∃ excess, f = .limit excess) ∨ ∃ m, f = .markup m

theorem Failure.IsOfDocument.ne_defect {f : Failure} (h : f.IsOfDocument) (d : Defect) :
    f ≠ .defect d := by
  rintro rfl
  rcases h with ⟨excess, h⟩ | ⟨m, h⟩
  · exact nomatch h
  · exact nomatch h

namespace Validation

variable {v : Validation}

/-- What the validation refers to is there. -/
structure WellFormed (g : Grammar) (v : Validation) : Prop where
  walk : v.walk.WellFormed g
  keys : v.keys.WellFormed g

theorem wellFormed_empty : ({} : Validation).WellFormed g :=
  ⟨ContentWalk.wellFormed_empty, PooledKeys.wellFormed_empty⟩

theorem WellFormed.restart (h : v.WellFormed g) : v.restart.WellFormed g :=
  ⟨ContentWalk.wellFormed_empty, h.keys.clear⟩

/-! ## Events -/

theorem WellFormed.start (h : v.WellFormed g) (hg : g.WellFormed) (hclosed : g.Closed)
    (name : Name) (as : List Attribute) :
    (∃ f, v.start g o name as = .error f ∧ f.IsOfDocument) ∨
      ∃ next, v.start g o name as = .ok next ∧ next.WellFormed g := by
  unfold Validation.start
  rcases h.walk.start hg hclosed o.limits o.checksRoot name with ⟨n, hs⟩ | ⟨s, hs, hwalk⟩
  · rw [hs]
    exact .inl ⟨_, rfl, .inl ⟨_, rfl⟩⟩
  · rw [hs]
    cases hc : o.checksConstraints with
    | false => exact .inr ⟨_, rfl, hwalk, h.keys⟩
    | true => exact .inr ⟨_, rfl, hwalk, h.keys.start _ _ _⟩

theorem WellFormed.characters (h : v.WellFormed g) (text : String) :
    ∃ next, v.characters g o text = .ok next ∧ next.WellFormed g := by
  obtain ⟨walk, violations, hwritten, hwalk⟩ := h.walk.characters text
  unfold Validation.characters
  rw [hwritten]
  cases hc : o.checksConstraints with
  | false => exact ⟨_, rfl, hwalk, h.keys⟩
  | true => exact ⟨_, rfl, hwalk, h.keys.characters text⟩

theorem WellFormed.stop (h : v.WellFormed g) (hg : g.WellFormed) (name : Name) :
    (∀ f, (v.stop g o name).1 = .error f → f.IsOfDocument) ∧ (v.stop g o name).2.WellFormed g := by
  obtain ⟨hfailure, hwalk⟩ := h.walk.stop o.context name
  unfold Validation.stop
  rcases hs : v.walk.stop g o.context name with ⟨f | violations, walk⟩
  · rw [hs] at hfailure hwalk
    refine ⟨fun f' hf => ?_, hwalk, h.keys⟩
    obtain rfl := Except.error.inj hf
    exact .inr (hfailure f rfl)
  · rw [hs] at hwalk
    cases hc : o.checksConstraints with
    | false => exact ⟨fun _ hf => (nomatch hf), hwalk, h.keys⟩
    | true => exact ⟨fun _ hf => (nomatch hf), hwalk, h.keys.stop hg⟩

theorem WellFormed.finish (h : v.WellFormed g) :
    (∀ f, (v.finish g o).1 = .error f → f.IsOfDocument) ∧ (v.finish g o).2.WellFormed g := by
  unfold Validation.finish
  split
  · exact ⟨fun f hf => .inr ⟨_, (Except.error.inj hf).symm⟩, h⟩
  · cases hc : o.checksConstraints with
    | false => exact ⟨fun _ hf => (nomatch hf), h.walk, h.keys⟩
    | true => exact ⟨fun _ hf => (nomatch hf), h.walk, h.keys.finish⟩

theorem WellFormed.step (h : v.WellFormed g) (hg : g.WellFormed) (hclosed : g.Closed) (e : Event) :
    (∀ f, (v.step g o e).1 = .error f → f.IsOfDocument) ∧ (v.step g o e).2.WellFormed g := by
  unfold Validation.step
  cases e with
  | start name as =>
    rcases h.start (o := o) hg hclosed name as with ⟨f, hf, hof⟩ | ⟨next, hnext, hwf⟩
    · dsimp only
      rw [hf]
      refine ⟨fun f' hf' => ?_, h⟩
      obtain rfl := Except.error.inj hf'
      exact hof
    · dsimp only
      rw [hnext]
      exact ⟨fun _ hf => (nomatch hf), hwf⟩
  | characters text =>
    obtain ⟨next, hnext, hwf⟩ := h.characters (o := o) text
    dsimp only
    rw [hnext]
    exact ⟨fun _ hf => (nomatch hf), hwf⟩
  | stop name => exact h.stop hg name

/-! ## Requests -/

/-- **A request** fails for the document if it fails, and leaves a validation that is
well-formed. -/
theorem WellFormed.respond (h : v.WellFormed g) (hg : g.WellFormed) (hclosed : g.Closed)
    (r : Request) :
    (∀ f, (v.respond g o r).1.failure? = some f → f.IsOfDocument) ∧
      (v.respond g o r).2.WellFormed g := by
  cases r with
  | start => exact ⟨fun _ hf => (nomatch hf), h.restart⟩
  | event e =>
    obtain ⟨hfailure, hnext⟩ := h.step (o := o) hg hclosed e
    refine ⟨fun f hf => ?_, hnext⟩
    unfold Validation.respond at hf
    dsimp only at hf
    cases hr : (v.step g o e).1 with
    | ok u =>
      rw [hr] at hf
      exact nomatch hf
    | error f' =>
      rw [hr] at hf
      obtain rfl := Option.some.inj hf
      exact hfailure f' hr
  | finish =>
    obtain ⟨hfailure, hnext⟩ := h.finish (o := o)
    refine ⟨fun f hf => ?_, hnext⟩
    unfold Validation.respond at hf
    dsimp only at hf
    cases hr : (v.finish g o).1 with
    | ok report =>
      rw [hr] at hf
      exact nomatch hf
    | error f' =>
      rw [hr] at hf
      obtain rfl := Option.some.inj hf
      exact hfailure f' hr

theorem WellFormed.serve (h : v.WellFormed g) (hg : g.WellFormed) (hclosed : g.Closed)
    (rs : List Request) :
    (∀ reply ∈ (v.serve g o rs).1, ∀ f, reply.answer.failure? = some f → f.IsOfDocument) ∧
      (v.serve g o rs).2.WellFormed g := by
  induction rs generalizing v with
  | nil => exact ⟨fun _ hr => (nomatch hr), h⟩
  | cons r rs ih =>
    obtain ⟨hfailure, hnext⟩ := h.respond (o := o) hg hclosed r
    obtain ⟨hothers, hlast⟩ := ih hnext
    exact ⟨List.forall_mem_cons.mpr ⟨hfailure, hothers⟩, hlast⟩

end Validation

/-- **Validation against a compiled grammar meets no defect.** What the numbers in the grammar refer
to is there, and whatever has been requested of a validation, what its state refers to is there,
and no request has failed for a defect. -/
theorem GrammarDraft.safe_of_compile {draft : GrammarDraft} {limits : Limits}
    (h : draft.compile limits = .ok g) :
    g.WellFormed ∧ ∀ (o : ValidationOptions) (rs : List Request),
      (({} : Validation).serve g o rs).2.WellFormed g ∧
        ∀ reply ∈ (({} : Validation).serve g o rs).1, ∀ d,
          reply.answer.failure? ≠ some (.defect d) := by
  have hg := wellFormed_of_compile h
  refine ⟨hg, fun o rs => ?_⟩
  obtain ⟨hfailure, hlast⟩ :=
    Validation.wellFormed_empty.serve (o := o) hg (closed_of_compile h) rs
  exact ⟨hlast, fun reply hr d hd => (hfailure reply hr _ hd).ne_defect d rfl⟩

/-- A catalogue of items with a reference that precedes the key it is to. -/
def catalogue : GrammarDraft where
  description := .schema none
  elements := [
    { name := .unqualified "catalogue"
      content := .children (.group .sequence
        [.leaf (.element (.unqualified "title")) .once,
          .leaf (.element (.unqualified "item")) .zeroOrMore] .once)
      constraints := [
        ⟨.unqualified "sequels", .keyref, "item", ["@after"], some (.unqualified "codes"), {}⟩,
        ⟨.unqualified "codes", .key, "item", ["@code"], none, {}⟩] },
    { name := .unqualified "title", content := .mixedSimple [.unqualified "emphasis"] },
    { name := .unqualified "item"
      content := .children (.group .all
        [.leaf (.element (.unqualified "title")) .optional,
          .leaf (.element (.unqualified "note")) .once] .once)
      attributes := [{ name := .unqualified "code", presence := .required },
        { name := .unqualified "after" }] }]

theorem GrammarDraft.safe_of_compile_catalogue : ∃ g, catalogue.compile {} = .ok g ∧
    g.WellFormed ∧ ∀ (o : ValidationOptions) (rs : List Request),
      (({} : Validation).serve g o rs).2.WellFormed g ∧
        ∀ reply ∈ (({} : Validation).serve g o rs).1, ∀ d,
          reply.answer.failure? ≠ some (.defect d) := by
  have hok : (catalogue.compile {}).isOk := by decide +kernel
  obtain ⟨g, h⟩ := exists_compile_eq_ok hok
  exact ⟨g, h, safe_of_compile h⟩

end MarkupGrammar
