/-! # Labelled trees and their events

A document as a checker sees it: elements that carry labels of any type, and texts between them. The
content of an element is a `Forest`; an element with its content is a `Tree`. A tree stands for the
events of its tags and texts in document order. -/

namespace MarkupGrammar

/-- The content of an element: texts, and elements with their labels, in order. -/
inductive Forest (α : Type) where
  | nil
  | piece (s : String) (rest : Forest α)
  | element (label : α) (inner rest : Forest α)

/-- An element: its label and its content. -/
structure Tree (α : Type) where
  label : α
  inner : Forest α

/-- A tag or a text of a document. -/
inductive Forest.Event (α : Type) where
  | start (label : α)
  | piece (s : String)
  | stop (label : α)

namespace Forest

variable {α β : Type}

/-- The events of tags and texts, in document order. -/
def events : Forest α → List (Event α)
  | nil => []
  | piece s rest => .piece s :: rest.events
  | element l inner rest => .start l :: (inner.events ++ .stop l :: rest.events)

/-- The text in all elements, in document order. -/
def text : Forest α → String
  | nil => ""
  | piece s rest => s ++ rest.text
  | element _ inner rest => inner.text ++ rest.text

/-- The elements, in the order of their start tags. -/
def trees : Forest α → List (Tree α)
  | nil => []
  | piece _ rest => rest.trees
  | element l inner rest => ⟨l, inner⟩ :: (inner.trees ++ rest.trees)

/-- The labels of the outermost elements. -/
def labels : Forest α → List α
  | nil => []
  | piece _ rest => rest.labels
  | element l _ rest => l :: rest.labels

/-- The texts outside of elements. -/
def pieces : Forest α → List String
  | nil => []
  | piece s rest => s :: rest.pieces
  | element _ _ rest => rest.pieces

/-- How deep elements are nested. -/
def height : Forest α → Nat
  | nil => 0
  | piece _ rest => rest.height
  | element _ inner rest => max (inner.height + 1) rest.height

/-- The forest with other labels. -/
def map (f : α → β) : Forest α → Forest β
  | nil => nil
  | piece s rest => piece s (rest.map f)
  | element l inner rest => element (f l) (inner.map f) (rest.map f)

/-- The event with another label. -/
def Event.map (f : α → β) : Event α → Event β
  | .start l => .start (f l)
  | .piece s => .piece s
  | .stop l => .stop (f l)

theorem events_map (f : α → β) (c : Forest α) : (c.map f).events = c.events.map (Event.map f) := by
  induction c with
  | nil => rfl
  | piece s rest ih => simp [map, events, ih, Event.map]
  | element l inner rest ihi ihr => simp [map, events, ihi, ihr, Event.map]

/-! ## Depth -/

/-- The number of open elements after an event. -/
def Event.after (depth : Nat) : Event α → Nat
  | .start _ => depth + 1
  | .piece _ => depth
  | .stop _ => depth - 1

/-- The number of open elements after events. -/
def depthAfter (depth : Nat) (events : List (Event α)) : Nat := events.foldl Event.after depth

/-- No start tag of the events leaves more than `bound` elements open. -/
def Within (bound depth : Nat) (events : List (Event α)) : Prop :=
  ∀ before l after, events = before ++ .start l :: after → depthAfter depth before < bound

theorem within_nil {bound depth : Nat} : Within bound depth ([] : List (Event α)) := by
  intro before l after h
  cases before with
  | nil => exact nomatch h
  | cons e before => exact nomatch h

theorem within_cons {bound depth : Nat} {e : Event α} {events : List (Event α)} :
    Within bound depth (e :: events) ↔
      (∀ l, e = .start l → depth < bound) ∧ Within bound (e.after depth) events := by
  constructor
  · intro h
    refine ⟨fun l hl => ?_, fun before l after heq => ?_⟩
    · exact h [] l events (by rw [hl]; rfl)
    · exact h (e :: before) l after (by rw [heq]; rfl)
  · rintro ⟨hstart, hrest⟩ before l after heq
    cases before with
    | nil => exact hstart l (List.cons.inj heq).1
    | cons e' before =>
      obtain ⟨rfl, hevents⟩ := List.cons.inj heq
      exact hrest before l after hevents

theorem depthAfter_events (depth : Nat) (f : Forest α) : depthAfter depth f.events = depth := by
  induction f generalizing depth with
  | nil => rfl
  | piece s rest ih => exact ih depth
  | element l inner rest ihi ihr =>
    have hinner := ihi (depth + 1)
    rw [events, depthAfter, List.foldl_cons, List.foldl_append, List.foldl_cons]
    change depthAfter ((depthAfter (depth + 1) inner.events) - 1) rest.events = depth
    rw [hinner, Nat.add_sub_cancel, ihr]

/-- Some start tag leaves as many elements open as the height tells. -/
theorem exists_deepest (f : Forest α) (hpos : 0 < f.height) (depth : Nat) :
    ∃ before l after, f.events = before ++ .start l :: after ∧
      depthAfter depth before + 1 = depth + f.height := by
  induction f generalizing depth with
  | nil => exact absurd hpos (Nat.lt_irrefl 0)
  | piece s rest ih =>
    obtain ⟨before, l, after, heq, hdepth⟩ := ih hpos depth
    exact ⟨.piece s :: before, l, after, by rw [events, heq]; rfl, hdepth⟩
  | element l inner rest ihi ihr =>
    rw [height]
    by_cases hrest : inner.height + 1 ≤ rest.height
    · -- the deepest element comes behind
      obtain ⟨before, l', after, heq, hdepth⟩ := ihr (by omega) depth
      refine ⟨.start l :: (inner.events ++ .stop l :: before), l', after, ?_, ?_⟩
      · rw [events, heq]
        simp
      · have hinner := depthAfter_events (depth + 1) inner
        rw [depthAfter, List.foldl_cons, List.foldl_append, List.foldl_cons]
        change depthAfter ((depthAfter (depth + 1) inner.events) - 1) before + 1 = _
        rw [hinner, Nat.add_sub_cancel, hdepth]
        omega
    · by_cases hinner : inner.height = 0
      · -- the element itself is the deepest
        refine ⟨[], l, inner.events ++ .stop l :: rest.events, rfl, ?_⟩
        change depth + 1 = _
        omega
      · obtain ⟨before, l', after, heq, hdepth⟩ := ihi (by omega) (depth + 1)
        refine ⟨.start l :: before, l', after ++ .stop l :: rest.events, ?_, ?_⟩
        · rw [events, heq]
          simp
        · change depthAfter (depth + 1) before + 1 = _
          omega

end Forest

namespace Tree

variable {α β : Type}

/-- The events of tags and texts, in document order. -/
def events (t : Tree α) : List (Forest.Event α) :=
  .start t.label :: (t.inner.events ++ [.stop t.label])

/-- The element and those in it, in the order of their start tags. -/
def trees (t : Tree α) : List (Tree α) := t :: t.inner.trees

/-- How deep elements are nested. -/
def height (t : Tree α) : Nat := t.inner.height + 1

/-- The tree with other labels. -/
def map (f : α → β) (t : Tree α) : Tree β := ⟨f t.label, t.inner.map f⟩

end Tree

end MarkupGrammar
