import MarkupGrammar.Proofs.Keys.Closing
import MarkupGrammar.Proofs.Keys.Verdict

/-! # Tags of elements

What the check of identity constraints does at the start tag and at the end tag of an element,
without matchers: the selectors that select the element are those whose paths lead to it, and the
selections that are closed at the end tag are those that have been opened at the start tag. -/

namespace MarkupGrammar

/-! ## Activations by elements

The meaning of identity constraints on a document tree. Each element activates the constraints of
its declaration. An activation concerns the elements that its selector selects, in the order of
their end tags, and only what they are decides what it reports. -/

/-- The identity constraints of the declaration of an element. -/
def DeclaredTag.constraints (g : Grammar) (tag : DeclaredTag) : List NumberedConstraint :=
  match tag.element?.bind (g.elements[·]?) with
  | none => []
  | some d => d.constraints.filterMap fun number => (g.constraints[number]?).map (⟨number, ·⟩)

/-! ## Selected elements -/

/-- The elements selected in the content of an element that the names `below` lead to, in the order
of their end tags. -/
def Forest.selected (e : PathExpression) (below : List Name) :
    Forest DeclaredTag → List (Tree DeclaredTag)
  | nil => []
  | piece _ rest => rest.selected e below
  | element l inner rest =>
    let here := below ++ [l.tag.name]
    inner.selected e here ++ ((if e.SelectsElement here then [⟨l, inner⟩] else []) ++
      rest.selected e below)

/-- The elements selected in an element, which is the context itself. -/
def Tree.selected (e : PathExpression) (t : Tree DeclaredTag) : List (Tree DeclaredTag) :=
  t.inner.selected e [] ++ if e.SelectsElement [] then [t] else []

/-! ## Activations -/

/-- An identity constraint with an element that activates it. -/
structure Activated where
  of : NumberedConstraint
  element : Tree DeclaredTag

/-- The constraints that the element itself activates. -/
def Tree.activated (g : Grammar) (t : Tree DeclaredTag) : List Activated :=
  (t.label.constraints g).map (⟨·, t⟩)

/-- The activations by all elements of some content. -/
def Forest.activations (g : Grammar) (f : Forest DeclaredTag) : List Activated :=
  f.trees.flatMap (·.activated g)

/-- The activations by the element and all elements in it. -/
def Tree.activations (g : Grammar) (t : Tree DeclaredTag) : List Activated :=
  t.trees.flatMap (·.activated g)

theorem Tree.activations_eq (g : Grammar) (t : Tree DeclaredTag) :
    t.activations g = t.activated g ++ t.inner.activations g := List.flatMap_cons

theorem Forest.activations_element (g : Grammar) (l : DeclaredTag) (inner : Forest DeclaredTag) :
    (element l inner nil).activations g = Tree.activations g ⟨l, inner⟩ := by
  rw [activations, trees, trees, List.append_nil]
  rfl

namespace Activated

variable (types : TypeTable) (a : Activated)

/-- The elements that the activation concerns, in the order of their end tags. -/
def selected : List (Tree DeclaredTag) := a.element.selected a.of.constraint.selector

/-- The values of the fields at an element, where the field has any. -/
def values (n : Tree DeclaredTag) : List (Option Value) := a.of.constraint.values types n

/-- The tuple of an element, if all fields have a value. -/
def tuple? (n : Tree DeclaredTag) : Option FieldTuple := a.of.constraint.tuple? types n

/-- What the activation reports while the document is read. -/
def verdicts : List Violation := a.of.constraint.verdicts types [] a.selected

/-- The tuples that the activation records. -/
def recorded : List FieldTuple := a.of.constraint.recorded types a.selected

/-- Whether an activation of the constraint with a number, in an element, records a tuple. -/
def isRecordedIn (g : Grammar) (t : Tree DeclaredTag) (number : Nat) (v : FieldTuple) : Prop :=
  ∃ b ∈ t.activations g, b.of.number = number ∧ v ∈ b.recorded g.types

instance (g : Grammar) (t : Tree DeclaredTag) (number : Nat) (v : FieldTuple) :
    Decidable (isRecordedIn g t number v) :=
  inferInstanceAs (Decidable (∃ b ∈ t.activations g, _))

/-- The report of a reference from an element that is not found. -/
def danglingViolation (g : Grammar) (refer : Nat) (n : Tree DeclaredTag) (v : FieldTuple) :
    Violation :=
  let c := a.of.constraint
  let target := match g.constraints[refer]? with
    | some target => target.name.text
    | none => ""
  ⟨.danglingKeyref v c.name target, some c.name, some (Violation.tupleText v), some n.label.path⟩

/-- What the activation reports at the end of the document: the references that are not found in the
activating element. -/
def unresolved (g : Grammar) : List Violation :=
  match a.of.constraint.kind, a.of.constraint.refer? with
  | .keyref, some refer => a.selected.filterMap fun n =>
    ((a.tuple? g.types n).filter fun v => ¬ isRecordedIn g a.element refer v).map
      (a.danglingViolation g refer n)
  | _, _ => []

end Activated

variable {g : Grammar} {types : TypeTable} {k : Keys} {a : Activation} {tag : TagEvent}
  {chain : List Name} {t : Tree DeclaredTag} {l : DeclaredTag}

/-! ## Selectors -/

namespace Activation

/-- The activation after a start tag. -/
def enter (tag : TagEvent) (a : Activation) : Activation :=
  { a with matcher := (a.matcher.start tag).2 }

/-- The activation after an end tag. -/
def leave (a : Activation) : Activation := { a with matcher := a.matcher.stop.2 }

/-- Whether the selector selects the last element of a chain, of which the activating element is
one. -/
def selects (chain : List Name) (a : Activation) : Bool :=
  decide (a.of.constraint.selector.SelectsElement (chain.drop a.depth))

/-- The activating element is one of a chain of open elements, and the selector, which only selects
elements, has followed the chain from there on. -/
structure Follows (a : Activation) (chain : List Name) : Prop where
  pos : 0 < a.depth
  le : a.depth ≤ chain.length
  selectsElements : ∀ p ∈ a.of.constraint.selector.paths, p.attribute? = none
  matcher : a.matcher.Follows a.of.constraint.selector (chain.drop a.depth)

/-- The selector is about to follow a chain to its last element. -/
structure Enters (a : Activation) (tag : TagEvent) (chain : List Name) : Prop where
  pos : 0 < a.depth
  le : a.depth ≤ chain.length
  selectsElements : ∀ p ∈ a.of.constraint.selector.paths, p.attribute? = none
  matcher : a.matcher.Enters tag a.of.constraint.selector (chain.drop a.depth)

theorem Follows.enters (h : a.Follows chain) (tag : TagEvent) :
    a.Enters tag (chain ++ [tag.name]) := by
  have hle := h.le
  refine ⟨h.pos, by rw [List.length_append]; omega, h.selectsElements, ?_⟩
  rw [List.drop_append_of_le_length hle]
  exact h.matcher.enters tag

theorem Enters.follows (h : a.Enters tag chain) : (a.enter tag).Follows chain :=
  ⟨h.pos, h.le, h.selectsElements, h.matcher.follows⟩

/-- The matcher of the selector tells whether the paths lead to the element. -/
theorem Enters.start_fst (h : a.Enters tag chain) :
    (Keys.Activation.start a tag).1 = a.selects chain := by
  have hno (b : TypedAttribute) :
      ¬ a.of.constraint.selector.SelectsAttribute (chain.drop a.depth) b := by
    rintro ⟨p, hp, -, hb⟩
    rw [h.selectsElements p hp] at hb
    exact absurd hb Bool.noConfusion
  change (a.matcher.start tag).1.matched = _
  rw [h.matcher.start_eq, PathExpression.startAnswer, selects, decide_eq_decide]
  constructor
  · rintro (hsel | ⟨b, -, hb⟩)
    · exact hsel
    · exact absurd hb (hno b)
  · exact .inl

/-- The end tag undoes what the start tag has done. -/
theorem Enters.leave_enter (h : a.Enters tag chain) : (a.enter tag).leave = a := by
  have hstop := h.matcher.stop_eq ""
  rw [Matcher.characters_empty, Matcher.characters_empty] at hstop
  rw [leave, enter, hstop]

end Activation

/-! ## Selected elements that have ended -/

namespace Activation

/-- The elements that the selector selects in the content of the last element of a chain. -/
def selectedIn (chain : List Name) (f : Forest DeclaredTag) (a : Activation) :
    List (Tree DeclaredTag) :=
  f.selected a.of.constraint.selector (chain.drop a.depth)

/-- The elements that the selector selects in the last element of a chain, the element itself
included. -/
def selectedAt (chain : List Name) (t : Tree DeclaredTag) (a : Activation) :
    List (Tree DeclaredTag) :=
  a.selectedIn chain t.inner ++ if a.selects chain then [t] else []

theorem Follows.selectedIn_element (h : a.Follows chain) (l : DeclaredTag)
    (inner : Forest DeclaredTag) : a.selectedIn chain (.element l inner .nil) =
      a.selectedAt (chain ++ [l.tag.name]) ⟨l, inner⟩ := by
  unfold selectedAt selectedIn selects
  rw [List.drop_append_of_le_length h.le, Forest.selected, Forest.selected, List.append_nil]
  simp only [decide_eq_true_eq]

/-- The activation after selected elements have ended. -/
def note (types : TypeTable) (ts : List (Tree DeclaredTag)) (a : Activation) : Activation :=
  { a with tuples := ts.foldl (a.of.constraint.noted types) a.tuples }

theorem note_append (ts us : List (Tree DeclaredTag)) :
    a.note types (ts ++ us) = (a.note types ts).note types us := by
  rw [note, List.foldl_append]
  rfl

/-- What the activation reports of selected elements. -/
def verdicts (types : TypeTable) (ts : List (Tree DeclaredTag)) (a : Activation) :
    List Violation :=
  a.of.constraint.verdicts types a.tuples ts

theorem verdicts_append (ts us : List (Tree DeclaredTag)) :
    a.verdicts types (ts ++ us) = a.verdicts types ts ++ (a.note types ts).verdicts types us :=
  Constraint.verdicts_append ts us

end Activation

/-! ## The state between tags -/

namespace Keys

/-- The selectors of a grammar do not select attributes. -/
def SelectElements (g : Grammar) : Prop :=
  ∀ c ∈ g.constraints, ∀ p ∈ c.selector.paths, p.attribute? = none

/-- The state belongs to a chain of open elements, whose ledgers hold what their activations have
recorded and what has been `merged` into them. -/
structure At (k : Keys) (chain : List Name) (merged : Nat → Nat × FieldTuple → Prop) : Prop where
  depth_eq : k.depth = chain.length
  activations : ∀ a ∈ k.activations, a.Follows chain
  selections : ∀ s ∈ k.selections, s.depth ≤ chain.length
  waiting : ∀ r ∈ k.waiting, r.depth ≤ chain.length
  ledgers : k.LedgersHold merged

/-! ## Start tags -/

theorem activationsOf_eq (g : Grammar) (l : DeclaredTag) (depth : Nat) :
    activationsOf g l.element? depth = (l.constraints g).map fun c =>
      { of := c, depth, matcher := .ofExpression c.constraint.selector false } := by
  unfold activationsOf DeclaredTag.constraints
  cases l.element?.bind (g.elements[·]?) with
  | none => rfl
  | some d =>
    rw [List.map_filterMap]
    refine congrArg (List.filterMap · d.constraints) (funext fun number => ?_)
    rw [Option.map_map]
    rfl

/-- The activations that a start tag concerns: those before, and those by the element itself. -/
def entered (g : Grammar) (k : Keys) (l : DeclaredTag) : List Activation :=
  k.activations ++ activationsOf g l.element? (k.depth + 1)

theorem At.enters {merged : Nat → Nat × FieldTuple → Prop} (h : k.At chain merged)
    (hg : SelectElements g) (l : DeclaredTag) :
    ∀ a ∈ k.entered g l, a.Enters l.tag (chain ++ [l.tag.name]) := by
  intro a ha
  rcases List.mem_append.mp ha with ha | ha
  · exact (h.activations a ha).enters l.tag
  · have hlen : (chain ++ [l.tag.name]).length = k.depth + 1 := by
      rw [List.length_append, h.depth_eq]
      rfl
    unfold activationsOf at ha
    split at ha
    · exact absurd ha List.not_mem_nil
    · obtain ⟨number, -, ha⟩ := List.mem_filterMap.mp ha
      obtain ⟨c, hc, rfl⟩ := Option.map_eq_some_iff.mp ha
      refine ⟨Nat.succ_pos _, Nat.le_of_eq hlen.symm, hg c (Array.mem_of_getElem? hc), ?_⟩
      rw [List.drop_eq_nil_of_le (Nat.le_of_eq hlen)]
      exact Matcher.enters_context _ _ _

/-- The state after a start tag that leads to the last element of a chain. -/
def opened (g : Grammar) (k : Keys) (l : DeclaredTag) (chain : List Name) : Keys :=
  let activations := (k.entered g l).map (·.enter l.tag)
  { k with
    depth := k.depth + 1
    activations
    selections := k.selections.map (·.follow g.types (.start l)) ++
      (activations.zipIdx.filter fun x => x.1.selects chain).map fun x =>
        (select x.1 x.2 (k.depth + 1) l.path).follow g.types (.start l)
    ledgers := [] :: k.ledgers }

/-- The activations that have been entered at the start tag of an element and select it. -/
def chosen (g : Grammar) (k : Keys) (l : DeclaredTag) (chain : List Name) :
    List (Activation × Nat) :=
  (k.opened g l chain).activations.zipIdx.filter fun x => x.1.selects chain

/-- The matchers of the selectors tell which activations select the element. -/
theorem chosen_eq (h : ∀ a ∈ k.entered g l, a.Enters l.tag chain) :
    (((k.entered g l).map (Activation.start · l.tag)).zipIdx.filter fun x => x.1.1).map
      (fun x => (x.1.2, x.2)) = k.chosen g l chain := by
  have hpairs : (k.entered g l).map (Activation.start · l.tag) =
      (k.entered g l).map fun a => (a.selects chain, a.enter l.tag) :=
    List.map_congr_left fun a ha => Prod.ext (h a ha).start_fst rfl
  rw [hpairs, chosen, opened, List.zipIdx_map, List.zipIdx_map, List.filter_map, List.filter_map,
    List.map_map]
  rfl

theorem start_fst (h : ∀ a ∈ k.entered g l, a.Enters l.tag chain) :
    (k.start g l.element? l.tag l.path).1 = k.opened g l chain := by
  have hchosen : ((k.entered g l).map (·.enter l.tag)).zipIdx.filter (fun x => x.1.selects chain) =
      _ := (chosen_eq h).symm
  unfold start opened
  dsimp only
  rw [hchosen]
  simp only [List.map_map]
  rfl

/-! ## End tags -/

/-- A selection that has been opened at the start tag of an element and has followed it ends it. -/
theorem ends_through (types : TypeTable) (a : Activation) (place depth : Nat)
    (t : Tree DeclaredTag) : Selection.Ends types
      ((select a place depth t.label.path).through types t) a t := by
  rw [Selection.through, Selection.foldl_follow]
  refine ⟨rfl, rfl, ?_⟩
  dsimp only [select]
  rw [List.map_map, List.map_map]
  refine List.map_congr_left fun e _ => ?_
  rw [Function.comp_apply, Function.comp_apply, FieldWalk.value?_foldl_follow,
    FieldWalk.filterMap_run_ofExpression]
  exact Option.none_or

/-- The content of the last element of a chain has been read from one state to another: activations
have noted what they have selected in it, and selections have followed it. -/
structure HasRead (types : TypeTable) (chain : List Name) (f : Forest DeclaredTag) (k k' : Keys) :
    Prop where
  depth_eq : k'.depth = k.depth
  activations_eq : k'.activations = k.activations.map fun a => a.note types (a.selectedIn chain f)
  selections_eq : k'.selections =
    k.selections.map fun s => f.events.foldl (Selection.follow types) s

/-- The state `k'` at the end tag of an element that was opened in the state `k`, when all but its
ledger has been closed; `chain` leads to the parent of the element. -/
def settled (g : Grammar) (k k' : Keys) (l : DeclaredTag) (inner : Forest DeclaredTag)
    (chain : List Name) : Keys :=
  closeAll g.types ⟨l, inner⟩
    { k' with selections := k.selections.map (Selection.through g.types ⟨l, inner⟩) }
    (picksOf (·.selects (chain ++ [l.tag.name])) k'.activations)

/-- The state without the innermost element. -/
def left (k : Keys) : Keys :=
  { k with
    depth := k.depth - 1
    activations := (k.activations.map Activation.leave).filter (·.depth != k.depth) }

/-- The selections at the end tag of an element: those before, and those that the start tag has
opened, all of which have followed the element. -/
theorem HasRead.stopped_selections {inner : Forest DeclaredTag} {k' : Keys}
    (h : HasRead g.types chain inner (k.opened g l chain) k') :
    (k'.selections.map (·.stop g.types)).map (·.1) =
      k.selections.map (Selection.through g.types ⟨l, inner⟩) ++ (chosen g k l chain).map fun x =>
        (select x.1 x.2 (k.depth + 1) l.path).through g.types ⟨l, inner⟩ := by
  rw [h.selections_eq, chosen, opened]
  simp only [List.map_append, List.map_map]
  congr 1
  · exact List.map_congr_left fun s _ => (s.through_eq g.types ⟨l, inner⟩).symm
  · exact List.map_congr_left fun x _ => (Selection.through_eq g.types ⟨l, inner⟩ _).symm

/-- The selections that have been opened at the start tag end the element, each in the activation at
its place. -/
theorem HasRead.forall₂_ends {inner : Forest DeclaredTag} {k' : Keys}
    (h : HasRead g.types chain inner (k.opened g l chain) k') :
    List.Forall₂ (fun s x => s.activation = x.2 ∧ s.Ends g.types x.1 ⟨l, inner⟩)
      ((chosen g k l chain).map fun x =>
        (select x.1 x.2 (k.depth + 1) l.path).through g.types ⟨l, inner⟩).reverse
      (picksOf (·.selects chain) k'.activations) := by
  have hpicks : (k'.activations.zipIdx.filter fun x => x.1.selects chain) =
      (chosen g k l chain).map fun x =>
        (x.1.note g.types (x.1.selectedIn chain inner), x.2) := by
    rw [h.activations_eq, List.zipIdx_map, List.filter_map]
    rfl
  rw [picksOf, hpicks, List.forall₂_reverse_iff, List.forall₂_map_left_iff,
    List.forall₂_map_right_iff, List.forall₂_same]
  intro x _
  have hends := ends_through g.types x.1 x.2 (k.depth + 1) ⟨l, inner⟩
  refine ⟨?_, hends.of_eq, hends.path_eq, hends.values_eq⟩
  rw [Selection.through, Selection.foldl_follow]
  rfl

theorem partition_append {α : Type} {p : α → Bool} {xs ys : List α} (hxs : ∀ x ∈ xs, p x = false)
    (hys : ∀ y ∈ ys, p y = true) : (xs ++ ys).partition p = (ys, xs) := by
  have hnot : ∀ y ∈ ys, ¬ (not ∘ p) y = true := by
    intro y hy
    rw [Function.comp_apply, hys y hy]
    exact Bool.noConfusion
  rw [List.partition_eq_filter_filter, List.filter_append, List.filter_append,
    List.filter_eq_nil_iff.mpr fun x hx => by rw [hxs x hx]; exact Bool.noConfusion,
    List.filter_eq_self.mpr hys, List.filter_eq_nil_iff.mpr hnot,
    List.filter_eq_self.mpr fun x hx => by rw [Function.comp_apply, hxs x hx]; rfl,
    List.nil_append, List.append_nil]

/-- **An end tag** closes the selections that the start tag has opened. -/
theorem HasRead.stop_eq {inner : Forest DeclaredTag} {k' : Keys}
    (h : HasRead g.types (chain ++ [l.tag.name]) inner
      (k.opened g l (chain ++ [l.tag.name])) k')
    (hs : ∀ s ∈ k.selections, s.depth ≤ k.depth) :
    k'.stop g = ((settled g k k' l inner chain).closeLedger.left,
      (k'.selections.map (·.stop g.types)).flatMap (·.2) ++
        (picksOf (·.selects (chain ++ [l.tag.name])) k'.activations).flatMap fun x =>
          x.1.of.constraint.verdict g.types x.1.tuples ⟨l, inner⟩) := by
  have hdepth : k'.depth = k.depth + 1 := h.depth_eq
  have hparted : ((k'.selections.map (·.stop g.types)).map (·.1)).partition (·.depth == k'.depth) =
      ((chosen g k l (chain ++ [l.tag.name])).map fun x =>
        (select x.1 x.2 (k.depth + 1) l.path).through g.types ⟨l, inner⟩,
      k.selections.map (Selection.through g.types ⟨l, inner⟩)) := by
    rw [h.stopped_selections]
    refine partition_append (fun s' hs' => ?_) fun s' hs' => ?_
    · obtain ⟨s, hmem, rfl⟩ := List.mem_map.mp hs'
      have hle := hs s hmem
      rw [Selection.through, Selection.depth_foldl_follow, hdepth, beq_eq_false_iff_ne]
      omega
    · obtain ⟨x, -, rfl⟩ := List.mem_map.mp hs'
      rw [Selection.through, Selection.depth_foldl_follow, hdepth]
      exact beq_self_eq_true _
  have hclosed := closeSelections_eq (k := { k' with
    selections := k.selections.map (Selection.through g.types ⟨l, inner⟩) }) h.forall₂_ends
      (picks_picksOf _)
  unfold stop
  rw [if_neg (by omega)]
  dsimp only
  rw [hparted]
  dsimp only
  rw [hclosed]
  rfl

end Keys

end MarkupGrammar
