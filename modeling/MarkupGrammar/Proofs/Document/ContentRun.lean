import MarkupGrammar.Proofs.Document.OpenElement

/-! # Running the check of content

The check of content follows the events of a tree with a stack of open elements, and reports what
the evaluation of the tree reports (`run_forest`). A limit on the depth only matters where it stops
the run (`run_limited`). -/

namespace MarkupGrammar

variable {g : Grammar} {limits : Limits} {checksRoot : Bool} {e : Placed} {names : List Name}
  {texts : List String} {outer : List OpenElement} {w w' : ContentWalk}

/-! ## Events -/

namespace ContentWalk

/-- Follows an event; gives what is reported. -/
def step (g : Grammar) (limits : Limits) (checksRoot : Bool) (w : ContentWalk) :
    Forest.Event ContentTag → Except Failure (List Violation × ContentWalk)
  | .start l => (w.start g limits checksRoot l.name).map fun s => (s.violations, s.walk)
  | .piece s => (w.characters g s).map fun x => (x.2, x.1)
  | .stop l =>
    match w.stop g l.context l.name with
    | (.ok violations, w) => .ok (violations, w)
    | (.error f, _) => .error f

/-- Follows events up to the first that fails; gives what is reported of each, and the walk after
them or the failure. -/
def run (g : Grammar) (limits : Limits) (checksRoot : Bool) (w : ContentWalk) :
    List (Forest.Event ContentTag) → List (List Violation) × Except Failure ContentWalk
  | [] => ([], .ok w)
  | event :: events =>
    match w.step g limits checksRoot event with
    | .ok (violations, w) =>
      let (reports, outcome) := w.run g limits checksRoot events
      (violations :: reports, outcome)
    | .error f => ([], .error f)

theorem run_append {events events' : List (Forest.Event ContentTag)}
    {reports : List (List Violation)}
    (h : w.run g limits checksRoot events = (reports, .ok w')) :
    w.run g limits checksRoot (events ++ events') =
      (reports ++ (w'.run g limits checksRoot events').1,
        (w'.run g limits checksRoot events').2) := by
  induction events generalizing w reports with
  | nil =>
    obtain ⟨rfl, hw⟩ := Prod.mk.inj h
    obtain rfl := Except.ok.inj hw
    rfl
  | cons event events ih =>
    rw [List.cons_append, run]
    rw [run] at h
    cases hs : w.step g limits checksRoot event with
    | error f => rw [hs] at h; exact nomatch (Prod.mk.inj h).2
    | ok x =>
      rw [hs] at h
      obtain ⟨rfl, hw⟩ := Prod.mk.inj h
      have hrun : x.2.run g limits checksRoot events =
          ((x.2.run g limits checksRoot events).1, .ok w') := Prod.ext rfl hw
      have hrest := ih hrun
      dsimp only
      rw [hrest]
      rfl

/-! ## Content -/

theorem step_piece (h : e.Sound g) (s : String) :
    step g limits checksRoot ⟨e.opened g names texts :: outer⟩ (.piece s) =
      .ok (e.textReport g texts s, ⟨e.opened g names (texts ++ [s]) :: outer⟩) := by
  rw [step, Placed.characters_eq h]
  rfl

theorem step_start (hg : g.Closed) (h : e.Sound g) (l : ContentTag)
    (hdepth : outer.length + 2 ≤ limits.maxDepth) :
    step g limits checksRoot ⟨e.opened g names texts :: outer⟩ (.start l) =
      .ok ((e.child g names l.name).2, ⟨(e.child g names l.name).1.opened g [] [] ::
        e.opened g (names ++ [l.name]) texts :: outer⟩) :=
  Placed.start_eq hg h l.name hdepth

theorem step_root (checksRoot : Bool) (l : ContentTag) (hdepth : 1 ≤ limits.maxDepth) :
    step g limits checksRoot {} (.start l) = .ok ((Placed.root g checksRoot l.name).2,
      ⟨[(Placed.root g checksRoot l.name).1.opened g [] []]⟩) :=
  Placed.start_root checksRoot l.name hdepth

theorem step_stop (h : e.Sound g) (l : ContentTag) (hn : e.name = l.name) :
    step g limits checksRoot ⟨e.opened g names texts :: outer⟩ (.stop l) =
      .ok (e.endReport g l.context names texts, ⟨outer⟩) := by
  rw [step, Placed.stop_eq h l.context hn]

/-- **The check follows the evaluation** through content that does not nest too deeply. -/
theorem run_forest (hg : g.Closed) (h : e.Sound g) (f : Forest ContentTag)
    (hdepth : outer.length + 1 + f.height ≤ limits.maxDepth) :
    run g limits checksRoot ⟨e.opened g names texts :: outer⟩ f.events =
      (f.contentReports g e names texts,
        .ok ⟨e.opened g (names ++ f.labels.map (·.name)) (texts ++ f.pieces) :: outer⟩) := by
  induction f generalizing e names texts outer with
  | nil =>
    rw [Forest.labels, Forest.pieces, List.map_nil, List.append_nil, List.append_nil]
    rfl
  | piece s rest ih =>
    rw [Forest.events, run, step_piece h]
    dsimp only
    rw [ih h hdepth, List.append_assoc]
    rfl
  | element l inner rest ihi ihr =>
    rw [Forest.height] at hdepth
    have hchild := Placed.sound_child hg e names l.name
    have hinner : run g limits checksRoot ⟨(e.child g names l.name).1.opened g [] [] ::
          e.opened g (names ++ [l.name]) texts :: outer⟩ inner.events =
        (inner.contentReports g (e.child g names l.name).1 [] [],
          .ok ⟨(e.child g names l.name).1.opened g (inner.labels.map (·.name)) inner.pieces ::
            e.opened g (names ++ [l.name]) texts :: outer⟩) :=
      ihi hchild (by rw [List.length_cons]; omega)
    rw [Forest.events, run, step_start hg h l (by omega)]
    dsimp only
    rw [run_append hinner, run, step_stop hchild l (Placed.name_child e names l.name)]
    dsimp only
    rw [ihr h (by omega), Forest.labels, Forest.pieces, List.map_cons, List.append_assoc]
    rfl

/-- The check follows the evaluation of a document that does not nest too deeply. -/
theorem run_tree (hg : g.Closed) (t : Tree ContentTag) (hdepth : t.height ≤ limits.maxDepth) :
    run g limits checksRoot {} t.events = (t.contentReports g checksRoot, .ok {}) := by
  obtain ⟨l, inner⟩ := t
  change inner.height + 1 ≤ limits.maxDepth at hdepth
  have hroot := Placed.sound_root (g := g) checksRoot l.name
  have hinner : run g limits checksRoot ⟨[(Placed.root g checksRoot l.name).1.opened g [] []]⟩
        inner.events =
      (inner.contentReports g (Placed.root g checksRoot l.name).1 [] [],
        .ok ⟨[(Placed.root g checksRoot l.name).1.opened g (inner.labels.map (·.name))
          inner.pieces]⟩) :=
    run_forest hg hroot inner (by rw [List.length_nil]; omega)
  rw [Tree.events, run, step_root checksRoot l (by omega)]
  dsimp only
  rw [run_append hinner, run, step_stop hroot l rfl]
  rfl

/-! ## Limits -/

/-- A start tag opens one element, with the path that it is given. -/
theorem opened_of_start {name : Name} {s : Start}
    (h : w.start g limits checksRoot name = .ok s) :
    ∃ e rest, s.walk = ⟨e :: rest⟩ ∧ e.path = s.path ∧ rest.length = w.depth := by
  obtain ⟨opened⟩ := w
  unfold start at h
  obtain ⟨-, -, h⟩ := of_bind_eq_ok h
  cases opened with
  | nil =>
    obtain ⟨state, -, h⟩ := of_bind_eq_ok h
    obtain rfl := Except.ok.inj h
    exact ⟨_, _, rfl, rfl, rfl⟩
  | cons parent rest =>
    obtain ⟨⟨mode, parentState, violations⟩, -, h⟩ := of_bind_eq_ok h
    obtain ⟨state, -, h⟩ := of_bind_eq_ok h
    obtain rfl := Except.ok.inj h
    exact ⟨_, _, rfl, rfl, rfl⟩

theorem depth_of_start {name : Name} {s : Start}
    (h : w.start g limits checksRoot name = .ok s) : s.walk.depth = w.depth + 1 := by
  obtain ⟨e, rest, hwalk, -, hrest⟩ := opened_of_start h
  rw [hwalk, ← hrest]
  rfl

theorem depth_of_characters {s : String} {x : ContentWalk × List Violation}
    (h : w.characters g s = .ok x) : x.1.depth = w.depth := by
  obtain ⟨opened⟩ := w
  cases opened with
  | nil =>
    obtain rfl := Except.ok.inj h
    rfl
  | cons e rest =>
    unfold characters at h
    dsimp only at h
    split at h
    · obtain rfl := Except.ok.inj h
      rfl
    · obtain rfl := Except.ok.inj h
      rfl
    · obtain ⟨d, -, h⟩ := of_bind_eq_ok h
      obtain rfl := Except.ok.inj h
      rfl

/-- How many elements are open after an event. -/
theorem depth_of_step {event : Forest.Event ContentTag} {x : List Violation × ContentWalk}
    (h : w.step g limits checksRoot event = .ok x) : x.2.depth = event.after w.depth := by
  cases event with
  | start l =>
    obtain ⟨s, hs, rfl⟩ := of_map_eq_ok h
    exact depth_of_start hs
  | piece s =>
    obtain ⟨y, hs, rfl⟩ := of_map_eq_ok h
    exact depth_of_characters hs
  | stop l =>
    obtain ⟨opened⟩ := w
    cases opened with
    | nil => exact nomatch h
    | cons e rest =>
      rw [step, stop] at h
      dsimp only at h
      split at h
      · rename_i hs
        obtain rfl := Except.ok.inj h
        rw [← (Prod.mk.inj hs).2]
        rfl
      · exact nomatch h

/-- A step that succeeds under some limits does so under others that allow its depth. -/
theorem step_of_lt {limits' : Limits} {event : Forest.Event ContentTag}
    {x : List Violation × ContentWalk} (h : w.step g limits' checksRoot event = .ok x)
    (hdepth : ∀ l, event = .start l → w.depth < limits.maxDepth) :
    w.step g limits checksRoot event = .ok x := by
  cases event with
  | start l =>
    have hcheck : limits.check .depth (w.depth + 1) = .ok () :=
      if_neg (Nat.not_lt.mpr (hdepth l rfl))
    unfold step start at h ⊢
    rw [hcheck]
    cases hcheck' : limits'.check .depth (w.depth + 1) with
    | error excess => rw [hcheck'] at h; exact nomatch h
    | ok _ =>
      rw [hcheck'] at h
      exact h
  | piece s => exact h
  | stop l => exact h

/-- A start tag that leads too deep fails. -/
theorem step_of_le {l : ContentTag} (hdepth : w.depth = limits.maxDepth) :
    w.step g limits checksRoot (.start l) =
      .error (.limit ⟨.depth, limits.maxDepth + 1, limits.maxDepth⟩) := by
  have hcheck : limits.check .depth (w.depth + 1) =
      .error ⟨.depth, limits.maxDepth + 1, limits.maxDepth⟩ := by
    rw [hdepth]
    exact if_pos (Nat.lt_succ_self limits.maxDepth)
  unfold step start
  rw [hcheck]
  rfl

/-- **A limit on the depth** makes no difference up to the first start tag that exceeds it, where
the run stops. -/
theorem run_limited {limits' : Limits} {events : List (Forest.Event ContentTag)}
    {reports : List (List Violation)}
    (h : w.run g limits' checksRoot events = (reports, .ok w')) (hw : w.depth ≤ limits.maxDepth) :
    Forest.Within limits.maxDepth w.depth events ∨
      ∃ before l after, events = before ++ .start l :: after ∧
        Forest.depthAfter w.depth before = limits.maxDepth ∧
        Forest.Within limits.maxDepth w.depth before ∧
        w.run g limits checksRoot events = (reports.take before.length,
          .error (.limit ⟨.depth, limits.maxDepth + 1, limits.maxDepth⟩)) := by
  induction events generalizing w reports with
  | nil => exact .inl Forest.within_nil
  | cons event events ih =>
    by_cases hexceeds : ∃ l, event = .start l ∧ w.depth = limits.maxDepth
    · -- the run stops here
      obtain ⟨l, rfl, hdepth⟩ := hexceeds
      refine .inr ⟨[], l, events, rfl, hdepth, Forest.within_nil, ?_⟩
      rw [run, step_of_le hdepth]
      rfl
    · have hlt : ∀ l, event = .start l → w.depth < limits.maxDepth := by
        intro l hl
        have hne : w.depth ≠ limits.maxDepth := fun heq => hexceeds ⟨l, hl, heq⟩
        omega
      rw [run] at h
      cases hs : w.step g limits' checksRoot event with
      | error f => rw [hs] at h; exact nomatch (Prod.mk.inj h).2
      | ok x =>
        obtain ⟨violations, w₁⟩ := x
        rw [hs] at h
        obtain ⟨rfl, hout⟩ := Prod.mk.inj h
        have hdepth : w₁.depth = event.after w.depth := depth_of_step hs
        have hw₁ : w₁.depth ≤ limits.maxDepth := by
          rw [hdepth]
          cases event with
          | start l => exact hlt l rfl
          | piece s => exact hw
          | stop l => exact (Nat.sub_le _ 1).trans hw
        have hrun : w₁.run g limits' checksRoot events =
            ((w₁.run g limits' checksRoot events).1, .ok w') := Prod.ext rfl hout
        rw [run, step_of_lt hs hlt]
        rcases ih hrun hw₁ with hwithin | ⟨before, l, after, rfl, hbefore, hwithin, hstops⟩
        · rw [hdepth] at hwithin
          exact .inl (Forest.within_cons.mpr ⟨hlt, hwithin⟩)
        · rw [hdepth] at hwithin hbefore
          refine .inr ⟨event :: before, l, after, rfl, hbefore,
            Forest.within_cons.mpr ⟨hlt, hwithin⟩, ?_⟩
          dsimp only
          rw [hstops]
          rfl

/-! ## Documents -/

/-- **The check of content refines the evaluation of the tree.** Where elements do not nest more
deeply than the limit allows, no event fails, all elements are closed at the end, and what each
event reports is what the evaluation reports. Otherwise this holds up to the first start tag that
exceeds the limit, which fails and ends the run. -/
theorem run_events_eq_contentReports {draft : GrammarDraft} {own : Limits}
    (h : draft.compile own = .ok g) (limits : Limits) (checksRoot : Bool) (t : Tree ContentTag) :
    (t.height ≤ limits.maxDepth →
      run g limits checksRoot {} t.events = (t.contentReports g checksRoot, .ok {})) ∧
    (limits.maxDepth < t.height → ∃ before l after, t.events = before ++ .start l :: after ∧
      Forest.depthAfter 0 before = limits.maxDepth ∧
      Forest.Within limits.maxDepth 0 before ∧
      run g limits checksRoot {} t.events = ((t.contentReports g checksRoot).take before.length,
        .error (.limit ⟨.depth, limits.maxDepth + 1, limits.maxDepth⟩))) := by
  have hg := GrammarDraft.closed_of_compile h
  refine ⟨run_tree hg t, fun hlt => ?_⟩
  -- a limit that is large enough gives the evaluation
  have hrun : run g { limits with maxDepth := t.height } checksRoot {} t.events =
      (t.contentReports g checksRoot, .ok {}) := run_tree hg t (Nat.le_refl _)
  rcases run_limited hrun (Nat.zero_le limits.maxDepth) with hwithin | hstops
  · obtain ⟨before, l, after, hevents, hdepth⟩ :=
      Forest.exists_deepest (.element t.label t.inner .nil) (Nat.lt_of_lt_of_le (Nat.succ_pos _)
        (Nat.le_max_left _ _)) 0
    have hbefore : Forest.depthAfter 0 before < limits.maxDepth := hwithin before l after hevents
    have hheight : (Forest.element t.label t.inner .nil).height = t.height := Nat.max_zero _
    omega
  · exact hstops

/-- A note of paragraphs. -/
def note : GrammarDraft where
  description := .schema none
  elements := [
    { name := .unqualified "note"
      content := .children (.leaf (.element (.unqualified "paragraph")) .oneOrMore) },
    { name := .unqualified "paragraph", content := .mixedComplex none }]

/-- A note with a paragraph between text that does not belong there. -/
def noted : Tree ContentTag :=
  ⟨⟨.unqualified "note", {}⟩,
    .piece "to" (.element ⟨.unqualified "paragraph", {}⟩ (.piece "text" .nil) (.piece "all" .nil))⟩

theorem run_events_noted : ∃ g, note.compile {} = .ok g ∧
    run g {} true {} noted.events = (noted.contentReports g true, .ok {}) ∧
    ∃ before l after, noted.events = before ++ .start l :: after ∧
      Forest.depthAfter 0 before = 1 ∧ Forest.Within 1 0 before ∧
      run g { maxDepth := 1 } true {} noted.events =
        ((noted.contentReports g true).take before.length, .error (.limit ⟨.depth, 2, 1⟩)) := by
  have hok : (note.compile {}).isOk := by decide +kernel
  obtain ⟨g, h⟩ := GrammarDraft.exists_compile_eq_ok hok
  obtain ⟨hshallow, -⟩ := run_events_eq_contentReports h {} true noted
  obtain ⟨-, hdeep⟩ := run_events_eq_contentReports h { maxDepth := 1 } true noted
  exact ⟨g, h, hshallow (by decide), hdeep (by decide)⟩

example : (note.compile {}).toOption.map (fun g =>
    ((noted.contentReports g true).map fun vs => vs.map (·.kind))) =
      some [[], [.textNotAllowed], [], [], [], [], []] := by
  decide +kernel

end ContentWalk

end MarkupGrammar
