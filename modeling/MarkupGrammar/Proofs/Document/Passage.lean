import MarkupGrammar.Document.Validation
import MarkupGrammar.Proofs.Document.ContentRun

/-! # Passing through a document

A validation follows the structure of a document by a walk through its content. What the walk makes
of each event is determined by the document tree: each element is placed, with a declaration, a mode
and a path, and something may be reported. The events with this are the *passages* of the document;
a validation goes through them without a walk of its own (`pass`), and its report is that of the
validation along the events (`validate_eq`). A document that nests too deeply has no report
(`validate_of_deep`). -/

namespace MarkupGrammar

/-- An element as the validation of a document sees it. -/
structure DocumentTag where
  name : Name
  attributes : List Attribute := []
  deriving DecidableEq, Repr

namespace DocumentTag

/-- The element as the check of content sees it. -/
def content (ctx : ValueContext) (l : DocumentTag) : ContentTag := ⟨l.name, ctx⟩

/-- The event of a tag or text. -/
def event : Forest.Event DocumentTag → Event
  | .start l => .start l.name l.attributes
  | .piece s => .characters s
  | .stop l => .stop l.name

end DocumentTag

/-- The events of a document. -/
def Tree.documentEvents (t : Tree DocumentTag) : List Event := t.events.map DocumentTag.event

namespace Forest

variable {α β : Type}

theorem height_map (f : α → β) (c : Forest α) : (c.map f).height = c.height := by
  induction c with
  | nil => rfl
  | piece s rest ih => exact ih
  | element l inner rest ihi ihr => rw [map, height, ihi, ihr, height]

end Forest

namespace Tree

variable {α β : Type}

theorem events_map (f : α → β) (t : Tree α) :
    (t.map f).events = t.events.map (Forest.Event.map f) := by
  rw [events, events, map, List.map_cons, List.map_append, Forest.events_map]
  rfl

theorem height_map (f : α → β) (t : Tree α) : (t.map f).height = t.height :=
  congrArg (· + 1) (Forest.height_map f t.inner)

end Tree

/-! ## Passages -/

/-- An event with what the walk through the content makes of it. -/
inductive Passage where
  | start (e : Placed) (attributes : List Attribute) (reported : List Violation)
  | text (s : String) (reported : List Violation)
  | stop (reported : List Violation)

/-- The passages of some content of an element, which comes after children with the given names and
after the given texts. -/
def Forest.passages (g : Grammar) (ctx : ValueContext) (e : Placed) (names : List Name)
    (texts : List String) : Forest DocumentTag → List Passage
  | nil => []
  | piece s rest =>
    .text s (e.textReport g texts s) :: rest.passages g ctx e names (texts ++ [s])
  | element l inner rest =>
    let (child, reported) := e.child g names l.name
    .start child l.attributes reported :: (inner.passages g ctx child [] [] ++
      .stop (child.endReport g ctx (inner.labels.map (·.name)) inner.pieces) ::
        rest.passages g ctx e (names ++ [l.name]) texts)

/-- The passages of a document. -/
def Tree.passages (g : Grammar) (ctx : ValueContext) (checksRoot : Bool) (t : Tree DocumentTag) :
    List Passage :=
  let (root, reported) := Placed.root g checksRoot t.label.name
  .start root t.label.attributes reported :: (t.inner.passages g ctx root [] [] ++
    [.stop (root.endReport g ctx (t.inner.labels.map (·.name)) t.inner.pieces)])

variable {g : Grammar} {o : ValidationOptions} {v : Validation} {w : ContentWalk} {e : Placed}
  {names : List Name} {texts : List String} {outer : List OpenElement}

namespace Validation

/-- The identity constraints after the start tag of an element with the given attributes, if they
are checked. -/
def startKeys (g : Grammar) (o : ValidationOptions) (k : PooledKeys) (e : Placed)
    (attributes : List TypedAttribute) : PooledKeys × List Violation :=
  if o.checksConstraints then
    k.start g e.mode.declaration? ⟨e.name, attributes, (e.declaration? g).bind (·.type?)⟩ e.path
  else (k, [])

/-- The identity constraints after an end tag, if they are checked. -/
def stopKeys (g : Grammar) (o : ValidationOptions) (k : PooledKeys) : PooledKeys × List Violation :=
  if o.checksConstraints then k.stop g else (k, [])

/-- Goes through a passage. The walk is left as it is. -/
def pass (g : Grammar) (o : ValidationOptions) (v : Validation) : Passage → Validation
  | .start e as reported =>
    let check := v.checkAttributes g o e.mode e.path as
    let (keys, keyViolations) := startKeys g o v.keys e (check.effective.map (·.typed))
    { v with keys, identifiers := check.ids?.getD v.identifiers }.report
      (reported ++ check.violations ++ keyViolations)
  | .text s reported =>
    let keys := if o.checksConstraints then v.keys.characters s else v.keys
    { v with keys }.report reported
  | .stop reported =>
    let (keys, keyViolations) := stopKeys g o v.keys
    { v with keys }.report (reported ++ keyViolations)

/-- The validation with another walk. -/
def walking (v : Validation) (w : ContentWalk) : Validation := { v with walk := w }

theorem pass_walking (p : Passage) : (v.walking w).pass g o p = (v.pass g o p).walking w := by
  cases p <;> rfl

theorem walking_walking (w' : ContentWalk) : (v.walking w).walking w' = v.walking w' := rfl

theorem walking_self (h : v.walk = w) : v.walking w = v := by
  rw [← h]
  rfl

theorem walk_foldl_pass (ps : List Passage) : (ps.foldl (pass g o) v).walk = v.walk := by
  induction ps generalizing v with
  | nil => rfl
  | cons p ps ih =>
    rw [List.foldl_cons, ih]
    cases p <;> rfl

theorem foldl_pass_walking (ps : List Passage) :
    ps.foldl (pass g o) (v.walking w) = (ps.foldl (pass g o) v).walking w := by
  induction ps generalizing v with
  | nil => rfl
  | cons p ps ih => rw [List.foldl_cons, pass_walking, ih, List.foldl_cons]

/-! ### Events -/

/-- What the walk through the content makes of an event, and the walk after it. -/
def passage (g : Grammar) (o : ValidationOptions) (w : ContentWalk) :
    Event → Except Failure Passage × ContentWalk
  | .start name as =>
    match w.start g o.limits o.checksRoot name with
    | .ok s => (.ok (.start ⟨name, s.mode, s.path⟩ as s.violations), s.walk)
    | .error f => (.error f, w)
  | .characters s =>
    match w.characters g s with
    | .ok (next, reported) => (.ok (.text s reported), next)
    | .error f => (.error f, w)
  | .stop name =>
    match w.stop g o.context name with
    | (.ok reported, next) => (.ok (.stop reported), next)
    | (.error f, next) => (.error f, next)

/-- What the walk has done where it has made a passage of an event. -/
theorem passage_cases {next : ContentWalk} {event : Event} {p : Passage}
    (h : passage g o w event = (.ok p, next)) :
    (∃ name as s, event = .start name as ∧ w.start g o.limits o.checksRoot name = .ok s ∧
      p = .start ⟨name, s.mode, s.path⟩ as s.violations ∧ next = s.walk) ∨
    (∃ s reported, event = .characters s ∧ w.characters g s = .ok (next, reported) ∧
      p = .text s reported) ∨
    ∃ name reported, event = .stop name ∧ w.stop g o.context name = (.ok reported, next) ∧
      p = .stop reported := by
  unfold passage at h
  split at h
  · split at h
    · rename_i s hs
      obtain ⟨hp, rfl⟩ := Prod.mk.inj h
      exact .inl ⟨_, _, s, rfl, hs, (Except.ok.inj hp).symm, rfl⟩
    · exact nomatch (Prod.mk.inj h).1
  · split at h
    · rename_i hs
      obtain ⟨hp, rfl⟩ := Prod.mk.inj h
      exact .inr (.inl ⟨_, _, rfl, hs, (Except.ok.inj hp).symm⟩)
    · exact nomatch (Prod.mk.inj h).1
  · split at h
    · rename_i hs
      obtain ⟨hp, rfl⟩ := Prod.mk.inj h
      exact .inr (.inr ⟨_, _, rfl, hs, (Except.ok.inj hp).symm⟩)
    · exact nomatch (Prod.mk.inj h).1

/-- **An event**: the walk fails, and nothing else happens, or the validation goes through the
passage that the walk makes of the event. -/
theorem step_eq (v : Validation) (event : Event) :
    v.step g o event = match passage g o v.walk event with
      | (.ok p, next) => (.ok (), (v.pass g o p).walking next)
      | (.error f, next) => (.error f, v.walking next) := by
  unfold step passage
  cases event with
  | start name as =>
    dsimp only
    unfold start
    cases v.walk.start g o.limits o.checksRoot name with
    | ok s => rfl
    | error f => rfl
  | characters s =>
    dsimp only
    unfold characters
    cases v.walk.characters g s with
    | ok x => rfl
    | error f => rfl
  | stop name =>
    dsimp only
    unfold stop
    rcases v.walk.stop g o.context name with ⟨f | reported, next⟩
    · rfl
    · rfl

theorem step_characters {s : String} {reported : List Violation}
    (h : v.walk.characters g s = .ok (w, reported)) :
    v.step g o (.characters s) = (.ok (), (v.pass g o (.text s reported)).walking w) := by
  rw [step_eq, passage, h]

theorem step_characters_of_error {s : String} {f : Failure}
    (h : v.walk.characters g s = .error f) : v.step g o (.characters s) = (.error f, v) := by
  rw [step_eq, passage, h]
  rfl

/-- Violations that have been found stay. -/
theorem violations_prefix_pass (v : Validation) (p : Passage) :
    v.violations <+: (v.pass g o p).violations := by
  cases p <;> exact ⟨_, rfl⟩

theorem violations_prefix_foldl_pass (v : Validation) (ps : List Passage) :
    v.violations <+: (ps.foldl (pass g o) v).violations := by
  induction ps generalizing v with
  | nil => exact List.prefix_rfl
  | cons p ps ih => exact (v.violations_prefix_pass p).trans (ih _)

theorem violations_prefix_step (v : Validation) (event : Event) :
    v.violations <+: (v.step g o event).2.violations := by
  rw [step_eq]
  rcases passage g o v.walk event with ⟨f | p, next⟩
  · exact List.prefix_rfl
  · exact v.violations_prefix_pass p

/-- The innermost element after a start tag is the one that the start tag opens. -/
theorem exists_start {limits : Limits} {checksRoot : Bool} {name : Name} {vs : List Violation}
    (h : (w.start g limits checksRoot name).map (fun s => (s.violations, s.walk)) =
      .ok (vs, ⟨e.opened g [] [] :: outer⟩)) :
    w.start g limits checksRoot name =
      .ok ⟨e.mode, e.path, vs, ⟨e.opened g [] [] :: outer⟩⟩ := by
  have hhead {s : ContentWalk.Start} (hs : w.start g limits checksRoot name = .ok s) :
      ∃ d rest, s.walk.opened = d :: rest ∧ s.mode = d.mode ∧ s.path = d.path := by
    unfold ContentWalk.start at hs
    obtain ⟨-, -, hs⟩ := of_bind_eq_ok hs
    split at hs
    · obtain ⟨state, -, hs⟩ := of_bind_eq_ok hs
      obtain rfl := Except.ok.inj hs
      exact ⟨_, _, rfl, rfl, rfl⟩
    · obtain ⟨⟨mode, parentState, violations⟩, -, hs⟩ := of_bind_eq_ok hs
      obtain ⟨state, -, hs⟩ := of_bind_eq_ok hs
      obtain rfl := Except.ok.inj hs
      exact ⟨_, _, rfl, rfl, rfl⟩
  cases hs : w.start g limits checksRoot name with
  | error f => rw [hs] at h; exact nomatch h
  | ok s =>
    rw [hs] at h
    obtain ⟨hvs, hwalk⟩ := Prod.mk.inj (Except.ok.inj h)
    obtain ⟨d, rest, hopened, hmode, hpath⟩ := hhead hs
    rw [hwalk] at hopened
    obtain ⟨rfl, -⟩ := List.cons.inj hopened
    obtain ⟨mode, path, violations, walk⟩ := s
    simp only at hvs hwalk hmode hpath
    subst hvs hwalk hmode hpath
    rfl

theorem step_start {name : Name} {as : List Attribute} {vs : List Violation} (hn : e.name = name)
    (h : (v.walk.start g o.limits o.checksRoot name).map (fun s => (s.violations, s.walk)) =
      .ok (vs, ⟨e.opened g [] [] :: outer⟩)) :
    v.step g o (.start name as) =
      (.ok (), (v.pass g o (.start e as vs)).walking ⟨e.opened g [] [] :: outer⟩) := by
  subst hn
  rw [step, start, exists_start h]
  rfl

theorem step_text {s : String} (h : e.Sound g)
    (hw : v.walk = ⟨e.opened g names texts :: outer⟩) :
    v.step g o (.characters s) = (.ok (), (v.pass g o (.text s (e.textReport g texts s))).walking
      ⟨e.opened g names (texts ++ [s]) :: outer⟩) := by
  rw [step, characters, hw, Placed.characters_eq h]
  rfl

theorem step_stop {name : Name} (h : e.Sound g) (hn : e.name = name)
    (hw : v.walk = ⟨e.opened g names texts :: outer⟩) :
    v.step g o (.stop name) =
      (.ok (), (v.pass g o (.stop (e.endReport g o.context names texts))).walking ⟨outer⟩) := by
  rw [step, stop, hw, Placed.stop_eq h o.context hn]
  rfl

/-! ### Documents -/

theorem run_cons {v' : Validation} {event : Event} {events : List Event}
    (h : v.step g o event = (.ok (), v')) : v.run g o (event :: events) = v'.run g o events := by
  rw [run, h]

/-- **The events of some content lead through its passages**, while the walk goes on. -/
theorem run_forest (hg : g.Closed) (h : e.Sound g) (f : Forest DocumentTag)
    (hdepth : outer.length + 1 + f.height ≤ o.limits.maxDepth) (later : List Event)
    (hw : v.walk = ⟨e.opened g names texts :: outer⟩) :
    v.run g o (f.events.map DocumentTag.event ++ later) =
      Validation.run g o (((f.passages g o.context e names texts).foldl (pass g o) v).walking
        ⟨e.opened g (names ++ f.labels.map (·.name)) (texts ++ f.pieces) :: outer⟩) later := by
  induction f generalizing e names texts outer later v with
  | nil =>
    rw [Forest.labels, Forest.pieces, List.map_nil, List.append_nil, List.append_nil]
    change v.run g o later = Validation.run g o (v.walking _) later
    rw [← hw]
    rfl
  | piece s rest ih =>
    rw [Forest.events, List.map_cons, List.cons_append, DocumentTag.event,
      run_cons (step_text h hw), ih h hdepth later rfl, foldl_pass_walking, walking_walking,
      Forest.passages, List.foldl_cons, Forest.pieces, List.append_assoc]
    rfl
  | element l inner rest ihi ihr =>
    rw [Forest.height] at hdepth
    have hchild := Placed.sound_child hg e names l.name
    have hname := Placed.name_child (g := g) e names l.name
    have hstart : (v.walk.start g o.limits o.checksRoot l.name).map
        (fun s => (s.violations, s.walk)) = .ok ((e.child g names l.name).2,
          ⟨(e.child g names l.name).1.opened g [] [] ::
            e.opened g (names ++ [l.name]) texts :: outer⟩) := by
      rw [hw]
      exact Placed.start_eq hg h l.name (by omega)
    rw [Forest.events, List.map_cons, List.cons_append, DocumentTag.event,
      run_cons (step_start hname hstart), List.map_append, List.append_assoc,
      ihi hchild (by rw [List.length_cons]; omega) _ rfl, List.map_cons, List.cons_append,
      DocumentTag.event, run_cons (step_stop hchild hname rfl), ihr h (by omega) later rfl]
    simp only [pass_walking, foldl_pass_walking, walking_walking, Forest.passages, List.foldl_cons,
      List.foldl_append, Forest.labels, Forest.pieces, List.map_cons, List.append_assoc,
      List.nil_append, List.singleton_append]

/-- The events of a document lead through its passages. -/
theorem run_tree (hg : g.Closed) (t : Tree DocumentTag) (hdepth : t.height ≤ o.limits.maxDepth)
    (hw : v.walk = {}) : v.run g o t.documentEvents =
      (.ok (), (t.passages g o.context o.checksRoot).foldl (pass g o) v) := by
  obtain ⟨l, inner⟩ := t
  change inner.height + 1 ≤ o.limits.maxDepth at hdepth
  have hroot := Placed.sound_root (g := g) o.checksRoot l.name
  have hstart : (v.walk.start g o.limits o.checksRoot l.name).map
      (fun s => (s.violations, s.walk)) = .ok ((Placed.root g o.checksRoot l.name).2,
        ⟨(Placed.root g o.checksRoot l.name).1.opened g [] [] :: []⟩) := by
    rw [hw]
    exact Placed.start_root o.checksRoot l.name (by omega)
  have hname : (Placed.root g o.checksRoot l.name).1.name = l.name := rfl
  rw [Tree.documentEvents, Tree.events, List.map_cons, DocumentTag.event,
    run_cons (step_start hname hstart), List.map_append,
    run_forest hg hroot inner (by rw [List.length_nil]; omega) _ rfl, List.map_singleton,
    DocumentTag.event, run_cons (step_stop hroot hname rfl)]
  have hpasses : (Tree.passages g o.context o.checksRoot ⟨l, inner⟩).foldl (pass g o) v =
      ((Tree.passages g o.context o.checksRoot ⟨l, inner⟩).foldl (pass g o) v).walking {} :=
    (walking_self ((walk_foldl_pass _).trans hw)).symm
  rw [hpasses]
  simp only [pass_walking, foldl_pass_walking, walking_walking, Tree.passages, List.foldl_cons,
    List.foldl_append, List.foldl_nil]
  rfl

/-- **The report of a document that does not nest too deeply** is made after its passages. -/
theorem validate_eq (hg : g.Closed) (t : Tree DocumentTag)
    (hdepth : t.height ≤ o.limits.maxDepth) (v : Validation) :
    v.validate g o t.documentEvents = Validation.finish g o
      ((t.passages g o.context o.checksRoot).foldl (pass g o) v.restart) := by
  rw [validate, run_tree hg t hdepth rfl]

/-! ### Documents that nest too deeply -/

/-- An event fails if it does for the walk, and for the same reason; otherwise both go on. -/
theorem step_walk (v : Validation) (event : Forest.Event DocumentTag) :
    (∃ f next, v.step g o (DocumentTag.event event) = (.error f, next) ∧
      v.walk.step g o.limits o.checksRoot (event.map (DocumentTag.content o.context)) =
        .error f) ∨
    ∃ next vs, v.step g o (DocumentTag.event event) = (.ok (), next) ∧
      v.walk.step g o.limits o.checksRoot (event.map (DocumentTag.content o.context)) =
        .ok (vs, next.walk) := by
  cases event with
  | start l =>
    rw [DocumentTag.event, step, start, Forest.Event.map, ContentWalk.step, DocumentTag.content]
    cases hs : v.walk.start g o.limits o.checksRoot l.name with
    | error f => exact .inl ⟨f, _, rfl, rfl⟩
    | ok s => exact .inr ⟨_, _, rfl, rfl⟩
  | piece s =>
    rw [DocumentTag.event, step, characters, Forest.Event.map, ContentWalk.step]
    cases hs : v.walk.characters g s with
    | error f => exact .inl ⟨f, _, rfl, rfl⟩
    | ok x => exact .inr ⟨_, _, rfl, rfl⟩
  | stop l =>
    rw [DocumentTag.event, step, stop, Forest.Event.map, ContentWalk.step, DocumentTag.content]
    dsimp only
    cases hs : v.walk.stop g o.context l.name with
    | mk r w =>
      cases r with
      | error f => exact .inl ⟨f, _, rfl, rfl⟩
      | ok vs => exact .inr ⟨_, _, rfl, rfl⟩

/-- The outcome of events is that of the walk. -/
theorem run_outcome (v : Validation) (events : List (Forest.Event DocumentTag)) :
    (v.run g o (events.map DocumentTag.event)).1 =
      (v.walk.run g o.limits o.checksRoot
        (events.map (Forest.Event.map (DocumentTag.content o.context)))).2.map fun _ => () := by
  induction events generalizing v with
  | nil => rfl
  | cons event events ih =>
    rw [List.map_cons, List.map_cons, run, ContentWalk.run]
    rcases step_walk (g := g) (o := o) v event with
      ⟨f, next, hstep, hwalk⟩ | ⟨next, vs, hstep, hwalk⟩
    · rw [hstep, hwalk]
      rfl
    · rw [hstep, hwalk]
      exact ih next

/-- **A document that nests too deeply has no report.** -/
theorem validate_of_deep (hg : g.Closed) (t : Tree DocumentTag)
    (hdepth : o.limits.maxDepth < t.height) (v : Validation) :
    (v.validate g o t.documentEvents).1 =
      .error (.limit ⟨.depth, o.limits.maxDepth + 1, o.limits.maxDepth⟩) := by
  let content : Tree ContentTag := t.map (DocumentTag.content o.context)
  have hevents : t.events.map (Forest.Event.map (DocumentTag.content o.context)) =
      content.events := (Tree.events_map _ t).symm
  have hheight : content.height = t.height := Tree.height_map _ t
  -- a limit that is large enough lets the walk go through
  have hrun : ContentWalk.run g { o.limits with maxDepth := content.height } o.checksRoot {}
      content.events = (content.contentReports g o.checksRoot, .ok {}) :=
    ContentWalk.run_tree hg content (Nat.le_refl _)
  have hfails : (ContentWalk.run g o.limits o.checksRoot {} content.events).2 =
      .error (.limit ⟨.depth, o.limits.maxDepth + 1, o.limits.maxDepth⟩) := by
    rcases ContentWalk.run_limited hrun (Nat.zero_le o.limits.maxDepth) with hwithin | hstops
    · obtain ⟨before, l, after, hsplit, hdeepest⟩ :=
        Forest.exists_deepest (.element content.label content.inner .nil)
          (Nat.lt_of_lt_of_le (Nat.succ_pos _) (Nat.le_max_left _ _)) 0
      have hbefore := hwithin before l after hsplit
      have hmax : (Forest.element content.label content.inner .nil).height = content.height :=
        Nat.max_zero _
      have hdepthBefore : Forest.depthAfter 0 before < o.limits.maxDepth := hbefore
      omega
    · obtain ⟨before, l, after, -, -, -, hstops⟩ := hstops
      rw [hstops]
  have houtcome := run_outcome (g := g) (o := o) v.restart t.events
  rw [hevents] at houtcome
  change (v.restart.run g o t.documentEvents).1 =
    (ContentWalk.run g o.limits o.checksRoot {} content.events).2.map _ at houtcome
  rw [hfails] at houtcome
  unfold validate
  cases hv : v.restart.run g o t.documentEvents with
  | mk r next =>
    rw [hv] at houtcome
    obtain rfl : r = _ := houtcome
    rfl

end Validation

end MarkupGrammar
