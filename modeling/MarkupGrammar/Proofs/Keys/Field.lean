import MarkupGrammar.Document.Keys
import MarkupGrammar.Proofs.Path.Matcher

/-! # Values of fields

A selection that has followed an element from its start tag to its end tag has, for each field, the
first value that the field delivers in the element (`FieldWalk.value?_foldl_follow`). -/

namespace MarkupGrammar

/-! ## What an expression delivers -/

/-- A start tag as the check of identity constraints sees it. -/
structure DeclaredTag where
  /-- The number of the element's declaration, if there is one. -/
  element? : Option Nat
  tag : TagEvent
  /-- The path of the element. -/
  path : String
  deriving DecidableEq, Repr, Inhabited

/-- What an expression delivers in the content of an element that the names `below` lead to:
attributes at start tags, elements at end tags. -/
def Forest.delivered (e : PathExpression) (below : List Name) : Forest TagEvent → List Selected
  | nil => []
  | piece _ rest => rest.delivered e below
  | element tag inner rest =>
    let here := below ++ [tag.name]
    (e.captured here tag.attributes).toList ++ (inner.delivered e here ++
      ((e.delivered here tag inner.text).toList ++ rest.delivered e below))

/-- What an expression delivers in an element, which is its context. -/
def Tree.delivered (e : PathExpression) (t : Tree TagEvent) : List Selected :=
  (e.captured [] t.label.attributes).toList ++ (t.inner.delivered e [] ++
    (e.delivered [] t.label t.inner.text).toList)

/-- What an answer delivers. -/
def Matcher.Answer.selected? : Matcher.Answer → Option Selected
  | start s => s.captured
  | piece => none
  | stop selected => selected

theorem filterMap_cons_toList {α β : Type} (f : α → Option β) (x : α) (xs : List α) :
    (x :: xs).filterMap f = (f x).toList ++ xs.filterMap f := by
  rw [List.filterMap_cons]
  cases f x <;> rfl

theorem Forest.filterMap_answers (e : PathExpression) (f : Forest TagEvent) (below : List Name) :
    (f.answers e true below).filterMap Matcher.Answer.selected? = f.delivered e below := by
  induction f generalizing below with
  | nil => rfl
  | piece s rest ih => exact ih below
  | element tag inner rest ihi ihr =>
    rw [answers, filterMap_cons_toList, List.filterMap_append, filterMap_cons_toList, ihi, ihr]
    rfl

theorem Tree.filterMap_answers (e : PathExpression) (t : Tree TagEvent) :
    (t.answers e true).filterMap Matcher.Answer.selected? = t.delivered e := by
  rw [answers, filterMap_cons_toList, List.filterMap_append, filterMap_cons_toList,
    Forest.filterMap_answers, List.filterMap_nil, List.append_nil]
  rfl

/-! ## Fields -/

namespace FieldWalk

/-- The field after a value may have been delivered. -/
def note (types : TypeTable) (f : FieldWalk) (selected? : Option Selected) : FieldWalk :=
  { f with
    value? := f.value?.or (selected?.map (·.typedValue types))
    isReported := f.isReported || (f.value?.isSome && selected?.isSome) }

theorem recordSelected_fst (types : TypeTable) (f : FieldWalk) (number : Nat) (constraint : Name)
    (path : String) (selected? : Option Selected) :
    (f.recordSelected types number constraint path selected?).1 = f.note types selected? := by
  obtain ⟨m, value?, isReported⟩ := f
  cases selected? with
  | none => simp [recordSelected, note]
  | some s =>
    cases value? with
    | none => simp [recordSelected, record, note]
    | some v => cases isReported <;> simp [recordSelected, record, note]

/-- The field after an event. -/
def follow (types : TypeTable) (f : FieldWalk) (event : Forest.Event DeclaredTag) : FieldWalk :=
  let (answer, matcher) := f.matcher.step (event.map (·.tag))
  { f with matcher }.note types answer.selected?

/-- A field has the first value that is delivered, if it had none before. -/
theorem value?_foldl_follow (types : TypeTable) (f : FieldWalk)
    (es : List (Forest.Event DeclaredTag)) :
    (es.foldl (follow types) f).value? =
      f.value?.or (((f.matcher.run (es.map (Forest.Event.map (·.tag)))).1.filterMap
        Matcher.Answer.selected?).head?.map (·.typedValue types)) := by
  induction es generalizing f with
  | nil => simp [Matcher.run]
  | cons event es ih =>
    rw [List.foldl_cons, ih, List.map_cons, Matcher.run, filterMap_cons_toList]
    have hmatcher : (f.follow types event).matcher =
        (f.matcher.step (event.map (·.tag))).2 := rfl
    have hvalue : (f.follow types event).value? = f.value?.or
        ((f.matcher.step (event.map (·.tag))).1.selected?.map (·.typedValue types)) := rfl
    rw [hmatcher, hvalue]
    cases (f.matcher.step (event.map (·.tag))).1.selected? <;> simp

/-- A field that follows an element from its start tag to its end tag is delivered what its
expression delivers in the element. -/
theorem filterMap_run_ofExpression (e : PathExpression) (t : Tree DeclaredTag) :
    ((ofExpression e).matcher.run (t.events.map (Forest.Event.map (·.tag)))).1.filterMap
      Matcher.Answer.selected? = (t.map (·.tag)).delivered e := by
  have hevents : t.events.map (Forest.Event.map (·.tag)) = (t.map (·.tag)).events := by
    rw [Tree.events, Tree.events, Tree.map, Forest.events_map, List.map_cons, List.map_append]
    rfl
  have hrun : ((ofExpression e).matcher.run (t.map (·.tag)).events).1 =
      (t.map (·.tag)).answers e true := congrArg Prod.fst (Matcher.run_tree e true _)
  rw [hevents, hrun, Tree.filterMap_answers]

end FieldWalk

/-! ## Selections -/

namespace Selection

/-- The selection after an event. -/
def follow (types : TypeTable) (s : Selection) : Forest.Event DeclaredTag → Selection
  | .start t => (s.start types t.tag).1
  | .piece text => s.characters text
  | .stop _ => (s.stop types).1

theorem advance_fst (types : TypeTable) (s : Selection)
    (step : Matcher → Option Selected × Matcher) : (s.advance types step).1 =
      { s with fields := s.fields.map fun f =>
          { f with matcher := (step f.matcher).2 }.note types (step f.matcher).1 } := by
  have hfields : ((s.fields.zipIdx.map fun x =>
      { x.1 with matcher := (step x.1.matcher).2 }.recordSelected types (x.2 + 1)
        s.of.constraint.name s.path (step x.1.matcher).1).map (·.1)) =
      (s.fields.zipIdx.map Prod.fst).map fun f =>
        { f with matcher := (step f.matcher).2 }.note types (step f.matcher).1 := by
    rw [List.map_map, List.map_map]
    exact List.map_congr_left fun x _ => FieldWalk.recordSelected_fst _ _ _ _ _ _
  rw [List.zipIdx_map_fst] at hfields
  rw [← hfields]
  rfl

theorem follow_eq (types : TypeTable) (s : Selection) (event : Forest.Event DeclaredTag) :
    s.follow types event = { s with fields := s.fields.map (·.follow types event) } := by
  cases event with
  | start t => exact advance_fst types s _
  | piece text =>
    have hnote (f : FieldWalk) : f.follow types (.piece text) =
        { f with matcher := f.matcher.characters text } := by
      simp [FieldWalk.follow, FieldWalk.note, Forest.Event.map, Matcher.step,
        Matcher.Answer.selected?]
    simp only [hnote]
    rfl
  | stop t => exact advance_fst types s _

theorem foldl_follow (types : TypeTable) (s : Selection) (es : List (Forest.Event DeclaredTag)) :
    es.foldl (follow types) s =
      { s with fields := s.fields.map fun f => es.foldl (FieldWalk.follow types) f } := by
  induction es generalizing s with
  | nil => simp
  | cons event es ih =>
    rw [List.foldl_cons, ih, follow_eq]
    simp [Function.comp_def]

/-- The selection after the events of a whole element. -/
def through (types : TypeTable) (t : Tree DeclaredTag) (s : Selection) : Selection :=
  t.events.foldl (follow types) s

theorem through_eq (types : TypeTable) (t : Tree DeclaredTag) (s : Selection) :
    s.through types t = ((t.inner.events.foldl (follow types)
      (s.follow types (.start t.label))).stop types).1 := by
  rw [through, Tree.events, List.foldl_cons, List.foldl_append]
  rfl

theorem depth_foldl_follow (types : TypeTable) (s : Selection)
    (es : List (Forest.Event DeclaredTag)) : (es.foldl (follow types) s).depth = s.depth := by
  rw [foldl_follow]

end Selection

end MarkupGrammar
