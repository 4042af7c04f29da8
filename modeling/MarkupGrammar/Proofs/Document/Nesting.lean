import MarkupGrammar.Proofs.Document.Passage
import MarkupGrammar.Proofs.Document.Session
import MarkupGrammar.Proofs.Keys.Reading

/-! # Documents that have a report

Events that all succeed lead through whole elements and into those that are still open
(`LeadsInto.run`), and the end of the document succeeds if none are. So a report is made of elements
that are nested, one after the other (`validate_nested`). How many there are is left to what the
events come from: a document without a root, or with several, has a report, and may be valid. -/

namespace MarkupGrammar

variable {g : Grammar} {o : ValidationOptions} {v next : Validation} {w w' : ContentWalk}
  {bound : Nat} {es : List Event} {name : Name} {names : List Name}

theorem Forest.height_append {α : Type} (f f' : Forest α) :
    (f.append f').height = max f.height f'.height := by
  induction f with
  | nil => exact (Nat.zero_max _).symm
  | piece s rest ih => exact ih
  | element l inner rest _ ih => rw [append, height, ih, height, Nat.max_assoc]

/-! ## Open elements -/

namespace ContentWalk

/-- The names of the open elements, innermost first. -/
def openNames (w : ContentWalk) : List Name := w.opened.map (·.name)

theorem length_openNames (w : ContentWalk) : w.openNames.length = w.depth := List.length_map _

theorem openNames_of_start {limits : Limits} {checksRoot : Bool} {s : Start}
    (h : w.start g limits checksRoot name = .ok s) :
    s.walk.openNames = name :: w.openNames ∧ w.openNames.length + 1 ≤ limits.maxDepth := by
  obtain ⟨opened⟩ := w
  unfold start at h
  obtain ⟨_, hdepth, h⟩ := of_bind_eq_ok h
  have hlimit : opened.length + 1 ≤ limits.maxDepth := by
    unfold Limits.check at hdepth
    split at hdepth
    · exact nomatch hdepth
    · rename_i hle
      exact Nat.not_lt.mp hle
  rw [length_openNames]
  cases opened with
  | nil =>
    obtain ⟨state, -, h⟩ := of_bind_eq_ok h
    obtain rfl := Except.ok.inj h
    exact ⟨rfl, hlimit⟩
  | cons parent rest =>
    obtain ⟨x, -, h⟩ := of_bind_eq_ok h
    obtain ⟨state, -, h⟩ := of_bind_eq_ok h
    obtain rfl := Except.ok.inj h
    exact ⟨rfl, hlimit⟩

theorem name_receive (d : ElementDeclaration) (e : OpenElement) (text : String) :
    (receive d e text).1.name = e.name := by
  unfold receive
  dsimp only
  split
  · rfl
  · split <;> rfl

theorem openNames_of_characters {text : String} {x : ContentWalk × List Violation}
    (h : w.characters g text = .ok x) : x.1.openNames = w.openNames := by
  obtain ⟨opened⟩ := w
  cases opened with
  | nil =>
    obtain rfl := Except.ok.inj h
    rfl
  | cons e rest =>
    unfold characters at h
    dsimp only at h
    split at h
    · obtain rfl := Except.ok.inj h
      rfl
    · obtain rfl := Except.ok.inj h
      rfl
    · obtain ⟨d, -, h⟩ := of_bind_eq_ok h
      obtain rfl := Except.ok.inj h
      exact congrArg (· :: rest.map (·.name)) (name_receive d e text)

/-- An end tag that succeeds closes the innermost element, by its name. -/
theorem openNames_of_stop {ctx : ValueContext} {vs : List Violation}
    (h : w.stop g ctx name = (.ok vs, w')) : w.openNames = name :: w'.openNames := by
  obtain ⟨opened⟩ := w
  cases opened with
  | nil => exact nomatch (Prod.mk.inj h).1
  | cons e rest =>
    obtain ⟨hclosed, rfl⟩ := Prod.mk.inj h
    unfold close at hclosed
    split at hclosed
    · exact nomatch hclosed
    · rename_i hname
      rw [← Decidable.not_not.mp hname]
      rfl

end ContentWalk

/-! ## Events -/

/-- The events lead through whole elements and into open ones with the given names, innermost first,
and nowhere deeper than the bound. -/
inductive LeadsInto (bound : Nat) : List Event → List Name → Prop
  | whole (f : Forest DocumentTag) (hf : f.height ≤ bound) :
    LeadsInto bound (f.events.map DocumentTag.event) []
  | inside {es : List Event} {names : List Name} (h : LeadsInto bound es names) (l : DocumentTag)
      (f : Forest DocumentTag) (hf : names.length + 1 + f.height ≤ bound) :
    LeadsInto bound (es ++ .start l.name l.attributes :: f.events.map DocumentTag.event)
      (l.name :: names)

namespace LeadsInto

theorem length_le (h : LeadsInto bound es names) : names.length ≤ bound := by
  cases h with
  | whole f hf => exact Nat.zero_le bound
  | inside h l f hf => exact (Nat.le_add_right _ _).trans hf

/-- Whole elements may follow in the innermost open element. -/
theorem append (h : LeadsInto bound es names) (f : Forest DocumentTag)
    (hf : names.length + f.height ≤ bound) :
    LeadsInto bound (es ++ f.events.map DocumentTag.event) names := by
  cases h with
  | whole f' hf' =>
    rw [← List.map_append, ← Forest.events_append]
    refine .whole _ ?_
    rw [Forest.height_append]
    rw [List.length_nil] at hf
    omega
  | inside h l f' hf' =>
    rw [List.append_assoc, List.cons_append, ← List.map_append, ← Forest.events_append]
    refine h.inside l _ ?_
    rw [Forest.height_append]
    rw [List.length_cons] at hf
    omega

/-- The end tag of the innermost open element makes it a whole one. -/
theorem stop (h : LeadsInto bound es (name :: names)) :
    LeadsInto bound (es ++ [.stop name]) names := by
  cases h with
  | inside h l f hf =>
    have hwhole := h.append (.element l f .nil) (by rw [Forest.height, Forest.height]; omega)
    rw [List.append_assoc]
    simpa [Forest.events, DocumentTag.event] using hwhole

/-- **An event that succeeds** leads on. -/
theorem step (h : LeadsInto o.limits.maxDepth es v.walk.openNames) {e : Event}
    (hstep : v.step g o e = (.ok (), next)) :
    LeadsInto o.limits.maxDepth (es ++ [e]) next.walk.openNames := by
  rw [Validation.step_eq] at hstep
  rcases hp : Validation.passage g o v.walk e with ⟨f | p, w⟩
  · rw [hp] at hstep
    exact nomatch (Prod.mk.inj hstep).1
  · rw [hp] at hstep
    obtain ⟨-, rfl⟩ := Prod.mk.inj hstep
    change LeadsInto _ _ w.openNames
    rcases Validation.passage_cases hp with
      ⟨name, as, s, rfl, hs, -, rfl⟩ | ⟨text, reported, rfl, hs, -⟩ | ⟨name, reported, rfl, hs, -⟩
    · obtain ⟨hnames, hdepth⟩ := ContentWalk.openNames_of_start hs
      rw [hnames]
      exact h.inside ⟨name, as⟩ .nil hdepth
    · have hnames : w.openNames = v.walk.openNames := ContentWalk.openNames_of_characters hs
      rw [hnames]
      exact h.append (.piece text .nil) h.length_le
    · rw [ContentWalk.openNames_of_stop hs] at h
      exact h.stop

/-- Events that succeed lead on. -/
theorem run {before : List Event} (h : LeadsInto o.limits.maxDepth before v.walk.openNames)
    (hrun : v.run g o es = (.ok (), next)) :
    LeadsInto o.limits.maxDepth (before ++ es) next.walk.openNames := by
  induction es generalizing before v with
  | nil =>
    obtain ⟨-, rfl⟩ := Prod.mk.inj hrun
    rwa [List.append_nil]
  | cons e es ih =>
    rw [Validation.run_cons_eq] at hrun
    rcases hv : v.step g o e with ⟨f | ⟨⟩, v'⟩
    · rw [hv] at hrun
      exact nomatch (Prod.mk.inj hrun).1
    · rw [hv] at hrun
      have hrest := ih (h.step hv) hrun
      rwa [List.append_assoc] at hrest

theorem exists_forest (h : LeadsInto bound es []) :
    ∃ f : Forest DocumentTag, es = f.events.map DocumentTag.event ∧ f.height ≤ bound := by
  cases h with
  | whole f hf => exact ⟨f, rfl, hf⟩

end LeadsInto

/-! ## Whole elements -/

/-- A root that nothing is reported of is declared, and is the one that the grammar describes. -/
theorem declared_of_root {checksRoot : Bool} (h : (Placed.root g checksRoot name).2 = []) :
    (g.globalElement name).isSome ∧
      (checksRoot = true → ∀ root, g.description = .documentType root → root = name.localPart) := by
  unfold Placed.root ContentWalk.rootMode at h
  dsimp only at h
  cases hdeclared : g.globalElement name with
  | none =>
    rw [hdeclared] at h
    exact absurd (List.append_eq_nil_iff.mp h).2 (List.cons_ne_nil _ _)
  | some element =>
    refine ⟨rfl, fun hchecks root hdescription => ?_⟩
    rw [hdeclared, hdescription] at h
    by_contra hne
    simp [hchecks, hne] at h

namespace Validation

/-- What is reported of the root is among the violations after the passages of a document. -/
theorem root_subset_violations (v : Validation) (t : Tree DocumentTag) :
    (Placed.root g o.checksRoot t.label.name).2 ⊆
      ((t.passages g o.context o.checksRoot).foldl (pass g o) v).violations := by
  intro x hx
  rw [Tree.passages, List.foldl_cons]
  refine (violations_prefix_foldl_pass _ _).subset ?_
  exact List.mem_append_right _ (List.mem_append_left _ (List.mem_append_left _ hx))

/-- Whole elements that do not nest too deeply are followed, one after the other, each as a root. -/
theorem run_whole (hg : g.Closed) (f : Forest DocumentTag) (hdepth : f.height ≤ o.limits.maxDepth)
    (hw : v.walk = {}) :
    ∃ next, v.run g o (f.events.map DocumentTag.event) = (.ok (), next) ∧ next.walk = {} ∧
      v.violations <+: next.violations ∧
      ∀ l ∈ f.labels, (Placed.root g o.checksRoot l.name).2 ⊆ next.violations := by
  induction f generalizing v with
  | nil => exact ⟨v, rfl, hw, List.prefix_rfl, fun _ hl => absurd hl List.not_mem_nil⟩
  | piece s rest ih =>
    -- text outside of elements does not count
    obtain ⟨v', hstep, hw'⟩ : ∃ v', v.step g o (.characters s) = (.ok (), v') ∧ v'.walk = {} := by
      unfold step characters
      rw [hw]
      exact ⟨_, rfl, rfl⟩
    have hgrown := v.violations_prefix_step (g := g) (o := o) (.characters s)
    rw [hstep] at hgrown
    obtain ⟨next, hrun, hnext, hkept, hroots⟩ := ih hdepth hw'
    refine ⟨next, ?_, hnext, hgrown.trans hkept, hroots⟩
    rw [Forest.events, List.map_cons, DocumentTag.event, run_cons hstep, hrun]
  | element l inner rest _ ih =>
    obtain ⟨hinner, hrest⟩ := Nat.max_le.mp hdepth
    have hsplit : (Forest.element l inner rest).events.map DocumentTag.event =
        Tree.documentEvents ⟨l, inner⟩ ++ rest.events.map DocumentTag.event := by
      simp [Forest.events, Tree.documentEvents, Tree.events]
    have htree := run_tree (v := v) hg ⟨l, inner⟩ hinner hw
    obtain ⟨next, hrun, hnext, hkept, hroots⟩ := ih hrest ((walk_foldl_pass _).trans hw)
    refine ⟨next, ?_, hnext, (violations_prefix_foldl_pass v _).trans hkept, ?_⟩
    · rw [hsplit, run_append, htree]
      exact hrun
    · refine List.forall_mem_cons.mpr ⟨?_, hroots⟩
      exact List.Subset.trans (root_subset_violations v ⟨l, inner⟩) hkept.subset

theorem of_validate_eq_ok {r : Report} (h : (v.validate g o es).1 = .ok r) :
    ∃ last, v.restart.run g o es = (.ok (), last) ∧ (last.finish g o).1 = .ok r := by
  rw [validate_eq_conclude] at h
  rcases hrun : v.restart.run g o es with ⟨f | ⟨⟩, last⟩
  · rw [hrun] at h
    exact nomatch h
  · rw [hrun] at h
    exact ⟨last, rfl, h⟩

/-- A report can only be made where no element is open, and holds the violations. -/
theorem of_finish_eq_ok {r : Report} (h : (v.finish g o).1 = .ok r) :
    v.walk.openNames = [] ∧ v.violations <+: r.violations := by
  unfold finish at h
  split at h
  · exact nomatch h
  · rename_i hdepth
    obtain rfl := Except.ok.inj h
    refine ⟨?_, (List.prefix_append _ _).trans (List.prefix_append _ _)⟩
    rw [ContentWalk.openNames, List.length_eq_zero_iff.mp (Nat.eq_zero_of_not_pos hdepth)]
    rfl

/-- **A report is made of nested elements.** A document has a report exactly if its events are those
of elements that stand one after the other, with text between them, and do not nest too deeply. If
the report is that of a valid document, then each of the outermost elements is declared, and is the
root that the grammar describes, if that is checked. -/
theorem validate_nested {draft : GrammarDraft} {own : Limits} (h : draft.compile own = .ok g)
    (o : ValidationOptions) (v : Validation) (es : List Event) :
    ((∃ r, (v.validate g o es).1 = .ok r) ↔
      ∃ f : Forest DocumentTag, es = f.events.map DocumentTag.event ∧
        f.height ≤ o.limits.maxDepth) ∧
    ∀ r, (v.validate g o es).1 = .ok r → r.isValid = true →
      ∃ f : Forest DocumentTag, es = f.events.map DocumentTag.event ∧
        ∀ l ∈ f.labels, (g.globalElement l.name).isSome ∧
          (o.checksRoot = true → ∀ root, g.description = .documentType root →
            root = l.name.localPart) := by
  have hg := GrammarDraft.closed_of_compile h
  have hnested {r : Report} (hr : (v.validate g o es).1 = .ok r) :
      ∃ f : Forest DocumentTag, es = f.events.map DocumentTag.event ∧
        f.height ≤ o.limits.maxDepth := by
    obtain ⟨last, hrun, hfinish⟩ := of_validate_eq_ok hr
    have hleads : LeadsInto o.limits.maxDepth [] v.restart.walk.openNames :=
      .whole .nil (Nat.zero_le _)
    have hlast := hleads.run hrun
    rw [(of_finish_eq_ok hfinish).1] at hlast
    exact hlast.exists_forest
  refine ⟨⟨fun ⟨r, hr⟩ => hnested hr, ?_⟩, fun r hr hvalid => ?_⟩
  · rintro ⟨f, rfl, hdepth⟩
    obtain ⟨last, hrun, hwalk, -, -⟩ := run_whole (v := v.restart) hg f hdepth rfl
    have hclosed : ¬ last.depth > 0 := by
      rw [depth, hwalk]
      exact Nat.lt_irrefl 0
    rw [validate_eq_conclude, hrun]
    change ∃ r, (last.finish g o).1 = .ok r
    unfold finish
    rw [if_neg hclosed]
    exact ⟨_, rfl⟩
  · obtain ⟨f, rfl, hdepth⟩ := hnested hr
    obtain ⟨last, hrun, hfinish⟩ := of_validate_eq_ok hr
    obtain ⟨last', hrun', -, -, hroots⟩ := run_whole (v := v.restart) hg f hdepth rfl
    obtain rfl : last' = last := congrArg Prod.snd (hrun'.symm.trans hrun)
    have hnone : last'.violations = [] := by
      have hkept := (of_finish_eq_ok hfinish).2
      rw [List.isEmpty_iff.mp hvalid] at hkept
      exact List.prefix_nil.mp hkept
    refine ⟨f, rfl, fun l hl => declared_of_root (List.subset_nil.mp ?_)⟩
    rw [← hnone]
    exact hroots l hl

/-! ## Documents without one root -/

/-- A part. -/
def emptyPart : GrammarDraft where
  description := .schema none
  elements := [{ name := .unqualified "part", content := .empty }]

/-- Two parts, one after the other. -/
def twoParts : Forest DocumentTag :=
  .element ⟨.unqualified "part", []⟩ .nil (.element ⟨.unqualified "part", []⟩ .nil .nil)

theorem validate_nested_twoParts : ∃ g, emptyPart.compile {} = .ok g ∧
    ∃ r, (Validation.validate g {} {} (twoParts.events.map DocumentTag.event)).1 = .ok r ∧
      r.isValid = true ∧ ∃ f : Forest DocumentTag,
        twoParts.events.map DocumentTag.event = f.events.map DocumentTag.event ∧
          ∀ l ∈ f.labels, (g.globalElement l.name).isSome ∧
            (({} : ValidationOptions).checksRoot = true → ∀ root,
              g.description = .documentType root → root = l.name.localPart) := by
  have hall : (emptyPart.compile {}).toOption.any (fun g => (Validation.validate g {} {}
      (twoParts.events.map DocumentTag.event)).1.toOption.any (·.isValid)) := by decide +kernel
  cases h : emptyPart.compile {} with
  | error f => rw [h] at hall; exact nomatch hall
  | ok g =>
    obtain ⟨hreport, hvalid⟩ := validate_nested h {} {} (twoParts.events.map DocumentTag.event)
    obtain ⟨r, hr⟩ := hreport.mpr ⟨twoParts, rfl, by decide⟩
    rw [h, Except.toOption, Option.any_some, hr] at hall
    exact ⟨g, rfl, r, hr, hall, hvalid r hr hall⟩

/-- Whether an event is a tag. -/
def isTag : Event → Bool
  | .start _ _ | .stop _ => true
  | .characters _ => false

theorem filter_isTag_documentEvents (t : Tree DocumentTag) : t.documentEvents.filter isTag =
    .start t.label.name t.label.attributes ::
      ((t.inner.events.map DocumentTag.event).filter isTag ++ [.stop t.label.name]) := by
  rw [Tree.documentEvents, Tree.events, List.map_cons, List.map_append, DocumentTag.event,
    List.filter_cons_of_pos rfl, List.filter_append]
  rfl

/-- The tags of whole elements do not begin with an end tag. -/
theorem tags_ne_stop_cons (f : Forest DocumentTag) (name : Name) (rest : List Event) :
    (f.events.map DocumentTag.event).filter isTag ≠ .stop name :: rest := by
  induction f with
  | nil => exact (List.cons_ne_nil _ _).symm
  | piece s f ih => exact ih
  | element l inner f _ _ => exact fun h => nomatch (List.cons.inj h).1

/-- The number of roots is not checked: neither a document without a root nor one with two roots has
the tags of an element tree, and both are valid. -/
theorem exists_valid_not_tree : ∃ g, emptyPart.compile {} = .ok g ∧
    ∀ f ∈ [Forest.nil, twoParts],
      (Validation.validate g {} {} (f.events.map DocumentTag.event)).1.toOption = some ⟨[]⟩ ∧
        ¬ ∃ t : Tree DocumentTag, (f.events.map DocumentTag.event).filter isTag =
          t.documentEvents.filter isTag := by
  have hall : (emptyPart.compile {}).toOption.map (fun g =>
      ((Validation.validate g {} {} []).1.toOption,
        (Validation.validate g {} {} (twoParts.events.map DocumentTag.event)).1.toOption)) =
          some (some ⟨[]⟩, some ⟨[]⟩) := by decide +kernel
  have hnil (t : Tree DocumentTag) : [] ≠ t.documentEvents.filter isTag :=
    (List.cons_ne_nil _ _).symm
  have htwo (t : Tree DocumentTag) :
      (twoParts.events.map DocumentTag.event).filter isTag ≠ t.documentEvents.filter isTag := by
    intro heq
    rw [filter_isTag_documentEvents] at heq
    have hinner : [.stop (.unqualified "part"), .start (.unqualified "part") [],
        .stop (.unqualified "part")] =
          (t.inner.events.map DocumentTag.event).filter isTag ++ [.stop t.label.name] :=
      (List.cons.inj heq).2
    cases htags : (t.inner.events.map DocumentTag.event).filter isTag with
    | nil =>
      rw [htags] at hinner
      exact nomatch (List.cons.inj hinner).2
    | cons e rest =>
      rw [htags] at hinner
      obtain ⟨rfl, -⟩ := List.cons.inj hinner
      exact tags_ne_stop_cons _ _ _ htags
  cases h : emptyPart.compile {} with
  | error f => rw [h] at hall; exact nomatch hall
  | ok g =>
    rw [h] at hall
    obtain ⟨hnone, hboth⟩ := Prod.mk.inj (Option.some.inj hall)
    refine ⟨g, rfl, List.forall_mem_cons.mpr ⟨⟨hnone, fun ⟨t, ht⟩ => hnil t ht⟩, ?_⟩⟩
    exact List.forall_mem_singleton.mpr ⟨hboth, fun ⟨t, ht⟩ => htwo t ht⟩

end Validation

end MarkupGrammar
