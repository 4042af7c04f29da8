import MarkupGrammar.Proofs.Keys.Nodes
import MarkupGrammar.Proofs.Keys.Uniqueness

/-! # Fields with several values

A field of a selected element is reported once if more than one value is delivered in the element.
While content is read (`Keys.Repeats`) the selections that are open report on what is delivered to
them, and each activation has reported on the elements that it has selected and that have ended; so
in the end the reports are those of all activations, one for each of their elements and each field
that is delivered two values in it (`run_repetitions_of_activations`). Attributes of one element are
delivered as one value. -/

namespace MarkupGrammar

variable {types : TypeTable}

/-! ## What is to be reported -/

namespace Constraint

/-- The report of a further value of the field with the given number. -/
def repeatedViolation (types : TypeTable) (c : Constraint) (number : Nat) (path : String)
    (s : Selected) : Violation :=
  ⟨.repeatedField number c.name, some c.name, some (s.typedValue types).text, some path⟩

/-- What is reported of a field, with its number, at an element: the second value delivered. -/
def repeated (types : TypeTable) (c : Constraint) (t : Tree DeclaredTag) (number : Nat)
    (e : PathExpression) : List Violation :=
  (((t.map (·.tag)).delivered e)[1]?).toList.map
    (c.repeatedViolation types number t.label.path)

/-- What is reported of all fields at an element. -/
def repetitions (types : TypeTable) (c : Constraint) (t : Tree DeclaredTag) : List Violation :=
  c.fields.zipIdx.flatMap fun (e, i) => c.repeated types t (i + 1) e

end Constraint

/-! ## Fields -/

namespace FieldWalk

variable {c : Constraint} {number : Nat} {path : String} {f : FieldWalk}

/-- What is reported of the field at an event. -/
def report (types : TypeTable) (c : Constraint) (number : Nat) (path : String) (f : FieldWalk)
    (event : Forest.Event DeclaredTag) : List Violation :=
  let (answer, matcher) := f.matcher.step (event.map (·.tag))
  ({ f with matcher }.recordSelected types number c.name path answer.selected?).2

/-- What is reported of the field at events. -/
def reports (types : TypeTable) (c : Constraint) (number : Nat) (path : String) :
    FieldWalk → List (Forest.Event DeclaredTag) → List Violation
  | _, [] => []
  | f, event :: es =>
    f.report types c number path event ++ (f.follow types event).reports types c number path es

/-- What is still to be reported of a field to which values are delivered. -/
def pending (f : FieldWalk) (selected : List Selected) : Option Selected :=
  if f.isReported then none else if f.value?.isSome then selected.head? else selected[1]?

/-- A delivery is reported or changes what is pending. -/
theorem recordSelected_append_pending (f : FieldWalk) (selected? : Option Selected)
    (later : List Selected) :
    (f.recordSelected types number c.name path selected?).2 ++
      ((f.note types selected?).pending later).toList.map (c.repeatedViolation types number path) =
        (f.pending (selected?.toList ++ later)).toList.map
          (c.repeatedViolation types number path) := by
  obtain ⟨m, value?, isReported⟩ := f
  cases selected? with
  | none => simp [recordSelected, note, pending]
  | some s =>
    cases value? with
    | none =>
      cases isReported <;>
        simp [recordSelected, record, note, pending, List.head?_eq_getElem?]
    | some v =>
      cases isReported with
      | false => simp [recordSelected, record, note, pending, Constraint.repeatedViolation]
      | true => simp [recordSelected, record, note, pending]

/-- **A field is reported once**, at the first delivery after its first value. -/
theorem reports_eq (f : FieldWalk) (es : List (Forest.Event DeclaredTag)) :
    f.reports types c number path es =
      (f.pending ((f.matcher.run (es.map (Forest.Event.map (·.tag)))).1.filterMap
        Matcher.Answer.selected?)).toList.map (c.repeatedViolation types number path) := by
  induction es generalizing f with
  | nil =>
    unfold pending
    simp [reports, Matcher.run]
  | cons event es ih =>
    rw [reports, ih, List.map_cons, Matcher.run, filterMap_cons_toList]
    exact recordSelected_append_pending { f with matcher := (f.matcher.step _).2 } _ _

/-- A field that follows an element is reported if two values are delivered in it. -/
theorem reports_ofExpression (e : PathExpression) (t : Tree DeclaredTag) :
    (ofExpression e).reports types c number t.label.path t.events =
      c.repeated types t number e := by
  rw [reports_eq, filterMap_run_ofExpression]
  rfl

end FieldWalk

/-! ## Selections -/

namespace Selection

/-- What is reported of the selection at an event. -/
def report (types : TypeTable) (s : Selection) : Forest.Event DeclaredTag → List Violation
  | .start t => (s.start types t.tag).2
  | .piece _ => []
  | .stop _ => (s.stop types).2

/-- What is reported of the selection at events. -/
def reports (types : TypeTable) : Selection → List (Forest.Event DeclaredTag) → List Violation
  | _, [] => []
  | s, event :: es => s.report types event ++ (s.follow types event).reports types es

theorem reports_append (s : Selection) (es es' : List (Forest.Event DeclaredTag)) :
    s.reports types (es ++ es') =
      s.reports types es ++ (es.foldl (follow types) s).reports types es' := by
  induction es generalizing s with
  | nil => rfl
  | cons event es ih =>
    rw [List.cons_append, reports, ih, reports, List.append_assoc]
    rfl

/-- The fields of a selection are reported one after the other. -/
theorem report_eq (s : Selection) (event : Forest.Event DeclaredTag) : s.report types event =
    s.fields.zipIdx.flatMap fun x =>
      x.1.report types s.of.constraint (x.2 + 1) s.path event := by
  cases event with
  | start t => exact List.flatMap_map ..
  | piece text =>
    refine (List.flatMap_eq_nil_iff.mpr fun x _ => ?_).symm
    rfl
  | stop t => exact List.flatMap_map ..

/-- What is reported of the selection is what is reported of its fields. -/
theorem reports_perm (s : Selection) (es : List (Forest.Event DeclaredTag)) :
    (s.reports types es).Perm (s.fields.zipIdx.flatMap fun x =>
      x.1.reports types s.of.constraint (x.2 + 1) s.path es) := by
  induction es generalizing s with
  | nil =>
    have hnil : (s.fields.zipIdx.flatMap fun x =>
        x.1.reports types s.of.constraint (x.2 + 1) s.path []) = [] :=
      List.flatMap_eq_nil_iff.mpr fun x _ => rfl
    rw [hnil]
    exact .nil
  | cons event es ih =>
    have hrest := ih (s.follow types event)
    rw [follow_eq] at hrest
    dsimp only at hrest
    rw [List.zipIdx_map, List.flatMap_map] at hrest
    rw [reports, report_eq, follow_eq]
    refine (hrest.append_left _).trans ((List.flatMap_append_perm _ _ _).trans (.of_eq ?_))
    rfl

/-- A selection that follows an element is reported for each field with two values in it. -/
theorem reports_select_perm (a : Activation) (place depth : Nat) (t : Tree DeclaredTag) :
    ((Keys.select a place depth t.label.path).reports types t.events).Perm
      (a.of.constraint.repetitions types t) := by
  refine (reports_perm _ _).trans (.of_eq ?_)
  rw [Keys.select]
  dsimp only
  rw [List.zipIdx_map, List.flatMap_map]
  exact List.flatMap_congr fun x _ => FieldWalk.reports_ofExpression x.1 t

end Selection

/-! ## The state -/

namespace Keys

variable {g : Grammar} {k k₁ k₂ : Keys} {chain : List Name} {l : DeclaredTag}
  {inner f f' : Forest DeclaredTag} {vs vs' : List Violation}
  {merged : Nat → Nat × FieldTuple → Prop}

/-- The violations that tell of fields with several values. -/
def repetitions (vs : List Violation) : List Violation :=
  vs.filter fun v => v.kind = .fieldMultipleMatch

@[simp] theorem repetitions_append (vs ws : List Violation) :
    repetitions (vs ++ ws) = repetitions vs ++ repetitions ws := List.filter_append _ _

theorem repetitions_eq_self (h : ∀ v ∈ vs, v.kind = .fieldMultipleMatch) : repetitions vs = vs :=
  List.filter_eq_self.mpr fun v hv => decide_eq_true (h v hv)

/-- Steps of selections report nothing else. -/
theorem repetitions_report (ss : List Selection) (event : Forest.Event DeclaredTag) :
    repetitions (ss.flatMap (·.report types event)) = ss.flatMap (·.report types event) := by
  refine repetitions_eq_self fun v hv => ?_
  obtain ⟨s, -, hv⟩ := List.mem_flatMap.mp hv
  cases event with
  | start t => exact Selection.kind_advance hv
  | piece text => exact absurd hv List.not_mem_nil
  | stop t => exact Selection.kind_advance hv

theorem repetitions_verdict {c : Constraint} {tuples : List FieldTuple} {t : Tree DeclaredTag} :
    repetitions (c.verdict types tuples t) = [] := by
  refine List.filter_eq_nil_iff.mpr fun v hv => ?_
  rcases Constraint.kind_of_mem_verdict hv with hk | hk <;> rw [hk] <;> decide

/-- The selections that are open after a start tag, as they were at it. -/
def selecting (g : Grammar) (k : Keys) (l : DeclaredTag) (chain : List Name) : List Selection :=
  k.selections ++ (k.chosen g l chain).map fun x => select x.1 x.2 (k.depth + 1) l.path

theorem opened_selections : (k.opened g l chain).selections =
    (k.selecting g l chain).map (·.follow g.types (.start l)) := by
  rw [selecting, List.map_append, List.map_map]
  rfl

theorem start_snd (h : ∀ a ∈ k.entered g l, a.Enters l.tag chain) :
    (k.start g l.element? l.tag l.path).2 =
      (k.selecting g l chain).flatMap (·.report g.types (.start l)) := by
  rw [selecting, List.flatMap_append, ← chosen_eq h]
  unfold start
  simp only [List.map_map, List.flatMap_map]
  rfl

/-- Content of the last element of a chain has been read: the open selections have reported on what
has been delivered to them, and each activation on the elements that it has selected. -/
def Repeats (g : Grammar) (chain : List Name) (f : Forest DeclaredTag) (k : Keys)
    (vs : List Violation) : Prop :=
  (repetitions vs).Perm ((k.selections.flatMap (·.reports g.types f.events)) ++
    ((k.activations.flatMap fun a =>
        (a.selectedIn chain f).flatMap (a.of.constraint.repetitions g.types)) ++
      (f.activations g).flatMap fun b => b.selected.flatMap (b.of.constraint.repetitions g.types)))

theorem Repeats.append (hread : HasRead g.types chain f k k₁) (h : Repeats g chain f k vs)
    (h' : Repeats g chain f' k₁ vs') : Repeats g chain (f.append f') k (vs ++ vs') := by
  unfold Repeats at h'
  rw [hread.selections_eq, hread.activations_eq, List.flatMap_map, List.flatMap_map] at h'
  rw [Repeats, repetitions_append, Forest.activations_append, List.flatMap_append]
  refine (List.Perm.append h h').trans ((perm_append_append _ _ _ _).trans (.append ?_
    ((perm_append_append _ _ _ _).trans (.append_right _ ?_))))
  · refine (List.flatMap_append_perm _ _ _).trans (.of_eq ?_)
    refine List.flatMap_congr fun s _ => ?_
    rw [Forest.events_append, Selection.reports_append]
  · refine (List.flatMap_append_perm _ _ _).trans (.of_eq ?_)
    refine List.flatMap_congr fun a _ => ?_
    rw [Activation.selectedIn_append, List.flatMap_append]
    rfl

/-- Without elements nothing is reported. -/
theorem Repeats.of_no_trees (hreports : ∀ s : Selection, s.reports g.types f.events = [])
    (hsel : ∀ e below, f.selected e below = []) (htrees : f.trees = []) :
    Repeats g chain f k [] := by
  have hselections : k.selections.flatMap (·.reports g.types f.events) = [] :=
    List.flatMap_eq_nil_iff.mpr fun s _ => hreports s
  have hactivations : (k.activations.flatMap fun a =>
      (a.selectedIn chain f).flatMap (a.of.constraint.repetitions g.types)) = [] := by
    refine List.flatMap_eq_nil_iff.mpr fun a _ => ?_
    rw [Activation.selectedIn, hsel]
    rfl
  rw [Repeats, hselections, hactivations, Forest.activations, htrees]
  exact .nil

theorem Repeats.nil : Repeats g chain .nil k [] := .of_no_trees (fun _ => rfl) (fun _ _ => rfl) rfl

theorem Repeats.piece (s : String) : Repeats g chain (.piece s .nil) k [] :=
  .of_no_trees (fun _ => rfl) (fun _ _ => rfl) rfl

/-! ### Elements -/

/-- The selections that an element concerns report on it from its start tag to its end tag; those
that are opened by it, what there is to report of the element. -/
theorem selecting_reports_perm (g : Grammar) (k : Keys) (l : DeclaredTag)
    (inner : Forest DeclaredTag) (chain : List Name) :
    ((k.selecting g l chain).flatMap (·.reports g.types (Tree.mk l inner).events)).Perm
      ((k.selections.flatMap (·.reports g.types (Forest.element l inner .nil).events)) ++
        (k.chosen g l chain).flatMap fun x =>
          x.1.of.constraint.repetitions g.types ⟨l, inner⟩) := by
  rw [selecting, List.flatMap_append, List.flatMap_map]
  refine .append_left _ (List.Perm.flatMap_left _ fun x _ => ?_)
  exact Selection.reports_select_perm x.1 x.2 (k.depth + 1) ⟨l, inner⟩

/-- What there is to report of an element and of the elements in it, for the activations that
concern it. -/
theorem At.opened_repetitions_perm (h : k.At chain merged) (g : Grammar) (l : DeclaredTag)
    (inner : Forest DeclaredTag) :
    (((k.opened g l (chain ++ [l.tag.name])).activations.flatMap fun a =>
        (a.selectedIn (chain ++ [l.tag.name]) inner).flatMap
          (a.of.constraint.repetitions g.types)) ++
      (k.chosen g l (chain ++ [l.tag.name])).flatMap fun x =>
        x.1.of.constraint.repetitions g.types ⟨l, inner⟩).Perm
      ((k.activations.flatMap fun a => (a.selectedIn chain (.element l inner .nil)).flatMap
        (a.of.constraint.repetitions g.types)) ++
        ((Tree.mk l inner).activated g).flatMap fun b =>
          b.selected.flatMap (b.of.constraint.repetitions g.types)) := by
  have hpicks := (List.reverse_perm (k.chosen g l (chain ++ [l.tag.name]))).symm.flatMap_right
    fun x => x.1.of.constraint.repetitions g.types ⟨l, inner⟩
  have hpicked : ((k.chosen g l (chain ++ [l.tag.name])).reverse.flatMap fun x =>
      x.1.of.constraint.repetitions g.types ⟨l, inner⟩).Perm
        ((k.opened g l (chain ++ [l.tag.name])).activations.flatMap fun a =>
          if a.selects (chain ++ [l.tag.name]) then
            a.of.constraint.repetitions g.types ⟨l, inner⟩ else []) :=
    flatMap_picksOf (fun a => a.of.constraint.repetitions g.types ⟨l, inner⟩) _
  have hentered := h.flatMap_entered g l inner fun ts a =>
    ts.flatMap (a.of.constraint.repetitions g.types)
  refine ((hpicks.trans hpicked).append_left _).trans
    ((List.flatMap_append_perm _ _ _).trans (.of_eq (Eq.trans ?_ hentered)))
  change List.flatMap _ ((k.entered g l).map _) = _
  rw [List.flatMap_map]
  refine List.flatMap_congr fun a _ => ?_
  rw [Activation.selectedAt, List.flatMap_append]
  refine congrArg (_ ++ ·) ?_
  change (if a.selects (chain ++ [l.tag.name]) = true then _ else _) = _
  split
  · exact (List.flatMap_singleton ..).symm
  · rfl

theorem HasRead.repetitions_stop
    (hread : HasRead g.types (chain ++ [l.tag.name]) inner
      (k.opened g l (chain ++ [l.tag.name])) k₁) (hs : ∀ s ∈ k.selections, s.depth ≤ k.depth) :
    repetitions (k₁.stop g).2 = k₁.selections.flatMap (·.report g.types (.stop l)) := by
  have hstop : (k₁.selections.map (·.stop g.types)).flatMap (·.2) =
      k₁.selections.flatMap (·.report g.types (.stop l)) := List.flatMap_map ..
  have hverdicts : repetitions ((picksOf (·.selects (chain ++ [l.tag.name]))
      k₁.activations).flatMap fun x => x.1.of.constraint.verdict g.types x.1.tuples ⟨l, inner⟩) =
        [] := by
    rw [repetitions, List.filter_flatMap]
    exact List.flatMap_eq_nil_iff.mpr fun x _ => repetitions_verdict
  rw [hread.stop_eq hs, repetitions_append, hstop, repetitions_report, hverdicts, List.append_nil]

/-- The reports on an element are those at its start tag, in it and at its end tag. -/
theorem reports_tree_perm (types : TypeTable) (ss : List Selection) (l : DeclaredTag)
    (inner : Forest DeclaredTag) :
    ((ss.flatMap (·.report types (.start l))) ++
      ((ss.flatMap fun s => (s.follow types (.start l)).reports types inner.events) ++
        ss.flatMap fun s => (inner.events.foldl (Selection.follow types)
          (s.follow types (.start l))).report types (.stop l))).Perm
      (ss.flatMap (·.reports types (Tree.mk l inner).events)) := by
  refine ((List.flatMap_append_perm _ _ _).append_left _).trans
    ((List.flatMap_append_perm _ _ _).trans (.of_eq ?_))
  refine List.flatMap_congr fun s _ => ?_
  rw [Tree.events, Selection.reports, Selection.reports_append, Selection.reports,
    Selection.reports, List.append_nil]

/-- The reports of the selections at the tags of an element and in it, `starts`, `inside` and
`stops`, are put together. -/
theorem perm_of_parts {α : Type} {starts inside stops own others before opened chosen here : List α}
    (hselections : (starts ++ (inside ++ stops)).Perm (before ++ chosen))
    (hactivations : (own ++ chosen).Perm (opened ++ here)) :
    (starts ++ ((inside ++ (own ++ others)) ++ stops)).Perm
      (before ++ (opened ++ (here ++ others))) := by
  classical
  rw [List.perm_iff_count] at *
  intro a
  have hs := hselections a
  have ha := hactivations a
  simp only [List.count_append] at hs ha ⊢
  omega

theorem Repeats.element (h : k.At chain merged) (hg : SelectElements g)
    (hread : HasRead g.types (chain ++ [l.tag.name]) inner
      (k.opened g l (chain ++ [l.tag.name])) k₁)
    (hi : Repeats g (chain ++ [l.tag.name]) inner (k.opened g l (chain ++ [l.tag.name])) vs) :
    Repeats g chain (.element l inner .nil) k
      ((k.start g l.element? l.tag l.path).2 ++ (vs ++ (k₁.stop g).2)) := by
  have hs : ∀ s ∈ k.selections, s.depth ≤ k.depth := fun s hs => h.depth_eq ▸ h.selections s hs
  have hselecting := selecting_reports_perm g k l inner (chain ++ [l.tag.name])
  have hactivations := h.opened_repetitions_perm g l inner
  have htree := reports_tree_perm g.types (k.selecting g l (chain ++ [l.tag.name])) l inner
  unfold Repeats at hi
  rw [opened_selections, List.flatMap_map] at hi
  rw [Repeats, repetitions_append, repetitions_append, start_snd (h.enters hg l),
    repetitions_report, hread.repetitions_stop hs, hread.selections_eq, opened_selections,
    List.map_map, List.flatMap_map, Forest.activations_element, Tree.activations_eq,
    List.flatMap_append]
  refine (((List.Perm.append_right _ hi).append_left _).trans ?_)
  exact perm_of_parts (htree.trans hselecting) hactivations

/-- **What is reported of repeated fields while content is read.** -/
theorem repeats_run (hg : SelectElements g) (f : Forest DeclaredTag) (h : k.At chain merged) :
    Repeats g chain f k (k.run g f.events).2 := by
  induction f generalizing k chain merged with
  | nil => exact .nil
  | piece s rest ih =>
    have hp := Reads.piece (g := g) h s
    exact (Repeats.piece s).append hp.toHasRead (ih (hp.at h))
  | element l inner rest ihi ihr =>
    -- the state after the start tag, and what the content does to it
    have hopened := h.opened hg l
    have hstart := start_fst (h.enters hg l)
    have hinner := reads_run hg inner hopened
    have helement := Repeats.element h hg hinner.toHasRead (ihi hopened)
    have hreads := Reads.element h hg hinner
    have hrest := helement.append hreads.toHasRead (ihr (hreads.at h))
    rw [Forest.events, run, step]
    dsimp only
    rw [hstart, run_append, run, step]
    rwa [List.append_assoc, List.append_assoc] at hrest

end Keys

/-! ## One field -/

namespace Constraint

variable {c : Constraint} {n : Tree DeclaredTag} {number : Nat} {e : PathExpression}

theorem repeated_eq_nil_iff :
    c.repeated types n number e = [] ↔ ¬ e.SelectsApart (n.map (·.tag)) := by
  rw [← Tree.two_le_length_delivered, repeated, List.map_eq_nil_iff, Option.toList_eq_nil_iff,
    List.getElem?_eq_none_iff]
  omega

theorem exists_repeated_iff : (∃ v, c.repeated types n number e = [v] ∧
    v.cause = .repeatedField number c.name ∧ v.path? = some n.label.path) ↔
      e.SelectsApart (n.map (·.tag)) := by
  constructor
  · rintro ⟨v, hv, -⟩
    by_contra hno
    rw [repeated_eq_nil_iff.mpr hno] at hv
    exact nomatch hv
  · intro hapart
    rw [← Tree.two_le_length_delivered] at hapart
    obtain ⟨s, hs⟩ : ∃ s, ((n.map (·.tag)).delivered e)[1]? = some s :=
      ⟨_, List.getElem?_eq_getElem hapart⟩
    refine ⟨c.repeatedViolation types number n.label.path s, ?_, rfl, rfl⟩
    rw [repeated, hs]
    rfl

end Constraint

namespace Keys

/-- **Fields with several values are reported for each activation on its own.** What is reported of
them while a document is read is what there is to report of the fields at the elements that its
activations have selected. A field is reported once if it selects two nodes of the element that are
not attributes of one element, and not at all otherwise. So fields that select several nodes are the
ones that are reported, but for those that select attributes of one element only. -/
theorem run_repetitions_of_activations {draft : GrammarDraft} {limits : Limits} {g : Grammar}
    (h : draft.compile limits = .ok g) (d : Tree DeclaredTag) :
    ((({} : Keys).run g d.events).2.filter fun v => v.kind = .fieldMultipleMatch).Perm
        ((d.activations g).flatMap fun a => a.selected.flatMap fun n =>
          a.of.constraint.fields.zipIdx.flatMap fun (e, i) =>
            a.of.constraint.repeated g.types n (i + 1) e) ∧
      ∀ a ∈ d.activations g, ∀ n ∈ a.selected, ∀ e ∈ a.of.constraint.fields, ∀ number,
        let reports := a.of.constraint.repeated g.types n number e
        ((∃ v, reports = [v] ∧ v.cause = .repeatedField number a.of.constraint.name ∧
            v.path? = some n.label.path) ↔ e.SelectsApart (n.map (·.tag))) ∧
          (reports = [] ↔ ¬ e.SelectsApart (n.map (·.tag))) ∧
          (((reports ≠ []) ↔ e.SelectsTwo (n.map (·.tag))) ↔
            (e.SelectsTwo (n.map (·.tag)) → e.SelectsApart (n.map (·.tag)))) := by
  refine ⟨?_, fun a _ n _ e _ number => ⟨Constraint.exists_repeated_iff,
    Constraint.repeated_eq_nil_iff, ?_⟩⟩
  · have hrepeats := repeats_run (selectElements_of_compile h)
      (.element d.label d.inner .nil) at_start
    rw [Repeats, Forest.activations_element] at hrepeats
    exact hrepeats
  · have htwo := PathExpression.SelectsApart.selectsTwo (e := e) (t := n.map (·.tag))
    rw [Ne, Constraint.repeated_eq_nil_iff, not_not]
    exact ⟨fun hiff => hiff.mpr, fun himp => ⟨htwo, himp⟩⟩

/-- A part whose attributes are all a field. -/
def labelled : GrammarDraft where
  description := .schema none
  elements := [
    { name := .unqualified "part"
      content := .empty
      constraints := [⟨.unqualified "labels", .unique, ".", ["@*"], none, {}⟩] }]

/-- A part with two attributes. -/
def part : Tree DeclaredTag :=
  let label (name : String) : TypedAttribute := ⟨.unqualified name, name, none⟩
  ⟨⟨some 0, { name := .unqualified "part", attributes := [label "a", label "b"] }, "/part"⟩, .nil⟩

theorem run_repetitions_part : ∃ g, labelled.compile {} = .ok g ∧
    ((({} : Keys).run g part.events).2.filter fun v => v.kind = .fieldMultipleMatch).Perm
      ((part.activations g).flatMap fun a => a.selected.flatMap fun n =>
        a.of.constraint.fields.zipIdx.flatMap fun (e, i) =>
          a.of.constraint.repeated g.types n (i + 1) e) := by
  have hok : (labelled.compile {}).isOk := by decide +kernel
  obtain ⟨g, h⟩ := GrammarDraft.exists_compile_eq_ok hok
  exact ⟨g, h, (run_repetitions_of_activations h part).1⟩

/-- A field that selects two attributes of one element is not reported. -/
theorem exists_unreported_repetition : ∃ g, labelled.compile {} = .ok g ∧
    (({} : Keys).run g part.events).2 = [] ∧
    ∃ a ∈ part.activations g, ∃ n ∈ a.selected, ∃ e ∈ a.of.constraint.fields,
      e.SelectsTwo (n.map (·.tag)) := by
  have hall : (labelled.compile {}).toOption.map (fun g =>
      ((({} : Keys).run g part.events).2, (part.activations g).any fun a =>
        a.selected.any fun n => a.of.constraint.fields.any fun e =>
          e.Selects (n.map (·.tag)) (.attr 0 0) ∧ e.Selects (n.map (·.tag)) (.attr 0 1))) =
      some ([], true) := by
    decide +kernel
  cases h : labelled.compile {} with
  | error f => rw [h] at hall; exact nomatch hall
  | ok g =>
    rw [h] at hall
    obtain ⟨hrun, hany⟩ := Prod.mk.inj (Option.some.inj hall)
    simp only [List.any_eq_true, decide_eq_true_eq] at hany
    obtain ⟨a, ha, n, hn, e, he, hfirst, hsecond⟩ := hany
    exact ⟨g, rfl, hrun, a, ha, n, hn, e, he, .attr 0 0, .attr 0 1, hfirst, hsecond, by decide⟩

end Keys

end MarkupGrammar
