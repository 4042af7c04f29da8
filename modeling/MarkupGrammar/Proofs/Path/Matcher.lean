import MarkupGrammar.Proofs.Path.Selection

/-! # Matching a tree

A matcher that is fed with the events of a tree selects what the paths select
(`run_events_eq_answers`). Between its start and its end tag an element only leaves its text behind,
for the elements around it that are selected; so one statement about the content of elements carries
the induction (`run_forest`). -/

namespace MarkupGrammar

/-! ## Walks along a path

A walk keeps step with one path. At an element its positions are the numbers of steps that lead
there, or it skips elements because there is no such number (`Tracks`); a start tag keeps this up
(`tracks_start`), and the end tag undoes what the start tag did, whatever the walk
(`stop_start`). -/

namespace LocationPath

variable {p : LocationPath} {w : Walk} {below : List Name} {e : TagEvent} {positions : List Nat}
  {n : Name} {k : Nat}

/-- The numbers of steps that lead to the last element of a chain. -/
def Position (p : LocationPath) (below : List Name) (k : Nat) : Prop :=
  k ≤ p.steps.length ∧ (p.upTo k).Reaches below

theorem position_length : p.Position below p.steps.length ↔ p.Reaches below := by
  rw [Position, upTo_length]
  exact and_iff_right (Nat.le_refl _)

/-! ## Positions -/

theorem mem_reach_context : k ∈ p.reach true positions n ↔ p.Position [] k := by
  have hreach : k ∈ p.reach true positions n ↔ k = 0 := by
    simp [reach]
  rw [hreach]
  constructor
  · rintro rfl
    exact ⟨Nat.zero_le _, reaches_upTo_zero_nil⟩
  · rintro ⟨hle, hk⟩
    cases k with
    | zero => rfl
    | succ k => exact absurd hk (not_reaches_upTo_succ_nil (Nat.lt_of_succ_le hle))

theorem mem_reach_child : k ∈ p.reach false positions n ↔
    (k = 0 ∧ p.descendant) ∨
      ∃ i ∈ positions, k = i + 1 ∧ ∃ test, p.steps[i]? = some test ∧ test.accepts n := by
  have hstep : k ∈ (positions.filter fun i => (p.steps[i]?).any (·.accepts n)).map (· + 1) ↔
      ∃ i ∈ positions, k = i + 1 ∧ ∃ test, p.steps[i]? = some test ∧ test.accepts n := by
    simp only [List.mem_map, List.mem_filter, Option.any_eq_true]
    constructor
    · rintro ⟨i, ⟨hi, test, htest, hn⟩, rfl⟩
      exact ⟨i, hi, rfl, test, htest, hn⟩
    · rintro ⟨i, hi, rfl, test, htest, hn⟩
      exact ⟨i, ⟨hi, test, htest, hn⟩, rfl⟩
  unfold reach
  simp only [Bool.false_eq_true, if_false]
  split
  · rename_i h
    have hd : p.descendant = true := by simp_all
    rw [List.mem_append, hstep, List.mem_singleton, and_iff_left hd, or_comm]
  · rename_i h
    rw [hstep]
    constructor
    · exact .inr
    · rintro (⟨rfl, hd⟩ | h')
      · have hmem : 0 ∈
            (positions.filter fun i => (p.steps[i]?).any (·.accepts n)).map (· + 1) := by
          by_contra hno
          exact h (by simp_all)
        exact hstep.mp hmem
      · exact h'

/-- The positions at a child follow from those at its parent. -/
theorem mem_reach (hp : ∀ k, k ∈ positions ↔ p.Position below k) :
    k ∈ p.reach false positions n ↔ p.Position (below ++ [n]) k := by
  rw [mem_reach_child]
  cases k with
  | zero =>
    rw [Position, reaches_upTo_zero_concat]
    simp
  | succ k =>
    constructor
    · rintro (⟨hk, -⟩ | ⟨i, hi, hik, test, htest, hn⟩)
      · exact absurd hk (Nat.succ_ne_zero k)
      · obtain rfl : k = i := Nat.succ.inj hik
        have hlt : k < p.steps.length := (List.getElem?_eq_some_iff.mp htest).1
        exact ⟨hlt, (reaches_upTo_succ_concat htest).mpr ⟨((hp k).mp hi).2, hn⟩⟩
    · rintro ⟨hlt, hk⟩
      have htest := List.getElem?_eq_getElem (Nat.lt_of_succ_le hlt)
      obtain ⟨hk, hn⟩ := (reaches_upTo_succ_concat htest).mp hk
      exact .inr ⟨k, (hp k).mpr ⟨Nat.le_of_succ_le hlt, hk⟩, rfl, _, htest, hn⟩

/-! ## Walks -/

/-- The walk is at the last element of a chain. -/
def Walk.Tracks (w : Walk) (p : LocationPath) (below : List Name) : Prop :=
  if w.skipped = 0 then ∀ k, k ∈ w.positions ↔ p.Position below k else ∀ k, ¬ p.Position below k

/-- Where the parent has no position, its children have none. -/
theorem not_position_concat (h : ∀ k, ¬ p.Position below k) : ¬ p.Position (below ++ [n]) k := by
  have hreach : k ∈ p.reach false [] n ↔ p.Position (below ++ [n]) k :=
    mem_reach fun k => iff_of_false List.not_mem_nil (h k)
  rw [← hreach, mem_reach_child]
  rintro (⟨-, hd⟩ | ⟨i, hi, -⟩)
  · refine h 0 ⟨Nat.zero_le _, ?_⟩
    exact (reaches_of_no_steps p.upTo_zero_steps).mpr (.inl hd)
  · exact List.not_mem_nil hi

/-- A start tag, from the positions that are reached at it. -/
theorem start_of_reach {isContext : Bool} (hw : w.skipped = 0)
    (h : ∀ k, k ∈ p.reach isContext w.positions e.name ↔ p.Position below k) :
    (w.start p e isContext).2.Tracks p below ∧
      (w.start p e isContext).1 = if p.Reaches below then p.hit e else .nothing := by
  have hlast : p.steps.length ∈ p.reach isContext w.positions e.name ↔ p.Reaches below :=
    (h _).trans position_length
  unfold Walk.start
  rw [if_neg (by omega)]
  dsimp only
  by_cases hempty : p.reach isContext w.positions e.name = []
  · rw [if_pos (by simp [hempty])]
    have hnone : ∀ k, ¬ p.Position below k := by
      intro k hk
      have hmem := (h k).mpr hk
      rw [hempty] at hmem
      exact List.not_mem_nil hmem
    refine ⟨hnone, ?_⟩
    rw [if_neg fun hr => hnone _ (position_length.mpr hr)]
  · rw [if_neg (by simp [hempty])]
    refine ⟨?_, ?_⟩
    · rw [Walk.Tracks, if_pos hw]
      exact h
    · simp only [List.contains_iff_mem, hlast]

/-- The start tag of the context. -/
theorem tracks_start_context (p : LocationPath) (e : TagEvent) :
    ((({} : Walk).start p e true).2).Tracks p [] ∧
      (({} : Walk).start p e true).1 = if p.Reaches [] then p.hit e else .nothing :=
  start_of_reach rfl fun _ => mem_reach_context

/-- The start tag of a child. -/
theorem tracks_start (h : w.Tracks p below) (e : TagEvent) :
    (w.start p e false).2.Tracks p (below ++ [e.name]) ∧
      (w.start p e false).1 =
        if p.Reaches (below ++ [e.name]) then p.hit e else .nothing := by
  unfold Walk.Tracks at h
  split at h
  · rename_i hw
    exact start_of_reach hw fun _ => mem_reach h
  · rename_i hw
    have hnone : ∀ k, ¬ p.Position (below ++ [e.name]) k := fun k => not_position_concat h
    rw [Walk.start, if_pos (by omega), if_neg fun hr => hnone _ (position_length.mpr hr)]
    refine ⟨?_, rfl⟩
    rw [Walk.Tracks, if_neg (Nat.succ_ne_zero _)]
    exact hnone

/-- An end tag tells what the start tag hit, and leads back to the walk before it. -/
theorem stop_start (w : Walk) (p : LocationPath) (e : TagEvent) (isContext : Bool) :
    (w.start p e isContext).2.stop = ((w.start p e isContext).1 == .element, w) := by
  obtain ⟨positions, opened, skipped⟩ := w
  unfold Walk.start
  split
  · simp [Walk.stop]
  · rename_i hskip
    obtain rfl : skipped = 0 := Nat.eq_zero_of_not_pos hskip
    dsimp only
    split
    · simp [Walk.stop]
    · simp [Walk.stop]

end LocationPath

variable {e : PathExpression} {m : Matcher} {below here : List Name} {tag : TagEvent} {s : String}

/-! ## Hits of an expression -/

/-- What a path hits at the last element of a chain. -/
def LocationPath.hitAt (p : LocationPath) (below : List Name) (tag : TagEvent) : LocationPath.Hit :=
  if p.Reaches below then p.hit tag else .nothing

theorem LocationPath.hitAt_eq_element {p : LocationPath} :
    p.hitAt below tag = .element ↔ p.attribute? = none ∧ p.Reaches below := by
  unfold hitAt hit
  by_cases hr : p.Reaches below
  · rw [if_pos hr, and_iff_left hr]
    cases p.attribute? with
    | none => simp
    | some test =>
      cases h : tag.attributes.find? fun a => test.accepts a.name <;> simp [h]
  · rw [if_neg hr]
    simp [hr]

/-- The attribute that a hit delivers. -/
def LocationPath.Hit.selected? : LocationPath.Hit → Option Selected
  | .attr a => some ⟨true, a.name, a.value, a.type?⟩
  | _ => none

namespace PathExpression

theorem any_hitAt : (e.paths.map (·.hitAt below tag)).any (· == .element) =
    decide (e.SelectsElement below) := by
  rw [Bool.eq_iff_iff, decide_eq_true_iff, List.any_map, List.any_eq_true]
  simp only [Function.comp_apply, beq_iff_eq, LocationPath.hitAt_eq_element]
  rfl

theorem findSome?_hitAt : (e.paths.map (·.hitAt below tag)).findSome? LocationPath.Hit.selected? =
    e.captured below tag.attributes := by
  rw [List.findSome?_map]
  unfold captured
  congr 1
  funext p
  simp only [Function.comp_apply, LocationPath.hitAt, LocationPath.hit]
  by_cases hr : p.Reaches below
  · rw [if_pos hr, if_pos hr]
    cases p.attribute? with
    | none => rfl
    | some test =>
      cases h : tag.attributes.find? fun a => test.accepts a.name <;>
        simp [h, LocationPath.Hit.selected?]
  · rw [if_neg hr, if_neg hr]
    rfl

theorem isSome_captured : (e.captured below tag.attributes).isSome ↔
    ∃ a ∈ tag.attributes, e.SelectsAttribute below a := by
  simp only [captured, List.isSome_findSome?, List.any_eq_true, SelectsAttribute,
    Option.any_eq_true]
  constructor
  · rintro ⟨p, hp, h⟩
    split at h
    · rename_i hr
      rw [Option.isSome_map, Option.isSome_iff_exists] at h
      obtain ⟨a, ha⟩ := h
      obtain ⟨test, htest, ha⟩ := Option.bind_eq_some_iff.mp ha
      have hn : test.accepts a.name = true :=
        List.find?_some (p := fun a : TypedAttribute => test.accepts a.name) ha
      exact ⟨a, List.mem_of_find?_eq_some ha, p, hp, hr, test, htest, hn⟩
    · exact absurd h Bool.noConfusion
  · rintro ⟨a, ha, p, hp, hr, test, htest, hn⟩
    refine ⟨p, hp, ?_⟩
    rw [if_pos hr, htest, Option.isSome_map, Option.bind_some, List.find?_isSome]
    exact ⟨a, ha, hn⟩

end PathExpression

namespace Matcher

/-! ## Tags -/

/-- The matcher is at the last element of a chain below its context. -/
structure Follows (m : Matcher) (e : PathExpression) (below : List Name) : Prop where
  isOpen : m.frames ≠ []
  paths : m.walks.map (·.1) = e.paths
  tracks : ∀ x ∈ m.walks, x.2.Tracks x.1 below

theorem Follows.characters (h : m.Follows e below) (s : String) :
    (m.characters s).Follows e below where
  isOpen := by
    simpa [Matcher.characters] using h.isOpen
  paths := h.paths
  tracks := h.tracks

/-- What the walks hit at a start tag. -/
def hits (m : Matcher) (tag : TagEvent) : List LocationPath.Hit :=
  m.walks.map fun x => (x.2.start x.1 tag m.frames.isEmpty).1

theorem start_fst (m : Matcher) (tag : TagEvent) : (m.start tag).1 =
    ⟨(m.hits tag).any (· == .element) || ((m.hits tag).findSome? LocationPath.Hit.selected?).isSome,
      (m.hits tag).findSome? LocationPath.Hit.selected?⟩ := by
  unfold start hits
  simp only [List.map_map]
  rfl

theorem start_frames (m : Matcher) (tag : TagEvent) : (m.start tag).2.frames =
    ⟨tag.name, tag.type?, if m.collectsText && (m.hits tag).any (· == .element) then some ""
      else none⟩ :: m.frames := by
  unfold start hits
  simp only [List.map_map]
  rfl

/-- The start tag leads the matcher to the last element of a chain. -/
structure Enters (m : Matcher) (tag : TagEvent) (e : PathExpression) (here : List Name) : Prop where
  hits : m.hits tag = e.paths.map (·.hitAt here tag)
  follows : (m.start tag).2.Follows e here

theorem enters_of_tracks (hp : m.walks.map (·.1) = e.paths)
    (h : ∀ x ∈ m.walks, (x.2.start x.1 tag m.frames.isEmpty).2.Tracks x.1 here ∧
      (x.2.start x.1 tag m.frames.isEmpty).1 = x.1.hitAt here tag) : m.Enters tag e here := by
  refine ⟨?_, ?_, ?_, ?_⟩
  · rw [← hp, List.map_map]
    exact List.map_congr_left fun x hx => (h x hx).2
  · exact List.cons_ne_nil _ _
  · simp [start, ← hp, Function.comp_def]
  · intro x hx
    simp only [start, List.map_map, List.mem_map] at hx
    obtain ⟨y, hy, rfl⟩ := hx
    exact (h y hy).1

/-- The first start tag is that of the context. -/
theorem enters_context (e : PathExpression) (collects : Bool) (tag : TagEvent) :
    (ofExpression e collects).Enters tag e [] := by
  refine enters_of_tracks (by simp [ofExpression, Function.comp_def]) fun x hx => ?_
  obtain ⟨p, -, rfl⟩ := List.mem_map.mp hx
  exact LocationPath.tracks_start_context p tag

/-- The start tag of a child. -/
theorem Follows.enters (h : m.Follows e below) (tag : TagEvent) :
    m.Enters tag e (below ++ [tag.name]) := by
  have hempty : m.frames.isEmpty = false := by
    simpa using h.isOpen
  refine enters_of_tracks h.paths fun x hx => ?_
  rw [hempty]
  exact LocationPath.tracks_start (h.tracks x hx) tag

theorem Enters.start_eq (h : m.Enters tag e here) : (m.start tag).1 = e.startAnswer here tag := by
  rw [start_fst, h.hits, PathExpression.any_hitAt, PathExpression.findSome?_hitAt,
    PathExpression.startAnswer]
  congr 1
  rw [Bool.eq_iff_iff, Bool.or_eq_true, decide_eq_true_iff, decide_eq_true_iff,
    PathExpression.isSome_captured]

/-- After a start tag and a text, the end tag delivers the element and leaves the text behind. -/
theorem Enters.stop_eq (h : m.Enters tag e here) (s : String) :
    ((m.start tag).2.characters s).stop =
      (e.delivered here tag (if m.collectsText then s else ""), m.characters s) := by
  have hsel : (m.hits tag).any (· == .element) = decide (e.SelectsElement here) := by
    rw [h.hits, PathExpression.any_hitAt]
  have hwalks : ((m.start tag).2.characters s).walks.map (fun x => (x.1, x.2.stop)) =
      m.walks.map fun x =>
        (x.1, (x.2.start x.1 tag m.frames.isEmpty).1 == .element, x.2) := by
    simp [characters, start, Function.comp_def, LocationPath.stop_start]
  have hany : (m.walks.map fun x =>
      (x.1, (x.2.start x.1 tag m.frames.isEmpty).1 == .element, x.2)).any (·.2.1) =
        decide (e.SelectsElement here) := by
    rw [← hsel, Matcher.hits, List.any_map, List.any_map]
    rfl
  have hframes : ((m.start tag).2.characters s).frames =
      ⟨tag.name, tag.type?, (if m.collectsText && decide (e.SelectsElement here) then some ""
        else none).map (· ++ s)⟩ :: (m.characters s).frames := by
    rw [characters, start_frames, hsel]
    rfl
  unfold stop
  simp only [hwalks, hframes, hany]
  rw [PathExpression.delivered]
  refine Prod.ext ?_ ?_
  · by_cases he : e.SelectsElement here
    · cases m.collectsText <;> simp [he]
    · simp [he]
  · simp [characters, start, Function.comp_def]

/-! ## Trees -/

/-- The answer to an event. -/
def step (m : Matcher) : Forest.Event TagEvent → Answer × Matcher
  | .start tag => (.start (m.start tag).1, (m.start tag).2)
  | .piece s => (.piece, m.characters s)
  | .stop _ => (.stop m.stop.1, m.stop.2)

/-- The answers to events in order. -/
def run (m : Matcher) : List (Forest.Event TagEvent) → List Answer × Matcher
  | [] => ([], m)
  | event :: events =>
    let (answers, after) := run (m.step event).2 events
    ((m.step event).1 :: answers, after)

theorem run_append (m : Matcher) (es fs : List (Forest.Event TagEvent)) :
    m.run (es ++ fs) = ((m.run es).1 ++ ((m.run es).2.run fs).1, ((m.run es).2.run fs).2) := by
  induction es generalizing m with
  | nil => rfl
  | cons event es ih =>
    rw [List.cons_append, run, ih, run]
    rfl

theorem characters_append (m : Matcher) (s t : String) :
    (m.characters s).characters t = m.characters (s ++ t) := by
  simp [characters, Function.comp_def, String.append_assoc]

theorem characters_empty (m : Matcher) : m.characters "" = m := by
  simp [characters]

/-- An element with its tags, from what is known of its content. -/
theorem Enters.run_eq (h : m.Enters tag e here) {inner : Forest TagEvent}
    (hinner : (m.start tag).2.run inner.events = (inner.answers e m.collectsText here,
      (m.start tag).2.characters inner.text)) (es : List (Forest.Event TagEvent)) :
    m.run (.start tag :: (inner.events ++ .stop tag :: es)) =
      (.start (e.startAnswer here tag) :: (inner.answers e m.collectsText here ++
        .stop (e.delivered here tag (if m.collectsText then inner.text else "")) ::
          ((m.characters inner.text).run es).1), ((m.characters inner.text).run es).2) := by
  have hstop := h.stop_eq inner.text
  rw [run, step, run_append, hinner, run, step, hstop, h.start_eq]

/-- **The content of an element leaves its text behind, and no more.** -/
theorem run_forest (h : m.Follows e below) (f : Forest TagEvent) :
    m.run f.events = (f.answers e m.collectsText below, m.characters f.text) := by
  induction f generalizing m below with
  | nil =>
    rw [Forest.text, characters_empty]
    rfl
  | piece s rest ih =>
    rw [Forest.events, run, step, ih (h.characters s), characters_append]
    rfl
  | element tag inner rest ihi ihr =>
    have hin := h.enters tag
    rw [Forest.events, hin.run_eq (ihi hin.follows), ihr (h.characters inner.text),
      characters_append]
    rfl

/-- The events of a tree whose root is the context. -/
theorem run_tree (e : PathExpression) (collects : Bool) (t : Tree TagEvent) :
    (ofExpression e collects).run t.events = (t.answers e collects, ofExpression e collects) := by
  have hin := enters_context e collects t.label
  rw [Tree.events, hin.run_eq (run_forest hin.follows t.inner), run]
  rfl

/-- **A matcher selects what the paths select, and ends as it began.** The answers to the events of
a tree, its root being the context, are those of the paths; after the last event no element is open
and all walks are at their beginning. A path leads to an element at a certain depth below the
context: as deep as it has steps, or at least as deep; and each of the last names passes its
step. -/
theorem run_events_eq_answers (e : PathExpression) (collects : Bool) (t : Tree TagEvent) :
    (ofExpression e collects).run t.events = (t.answers e collects, ofExpression e collects) ∧
      ∀ (p : LocationPath) (below : List Name), p.Reaches below ↔
        (if p.descendant then p.steps.length ≤ below.length
          else below.length = p.steps.length) ∧
        ∀ i test n, p.steps[i]? = some test →
          below[below.length - p.steps.length + i]? = some n → test.accepts n :=
  ⟨run_tree e collects t, fun _ _ => LocationPath.reaches_iff_getElem?⟩

end Matcher

end MarkupGrammar
