import MarkupGrammar.Document.PooledKeys
import MarkupGrammar.Proofs.Keys.Field

/-! # Reusing matchers makes no difference

No step of a matcher changes what it is once it has been cleared, so each matcher in use or in the
pool *fits* its use: cleared, it is a new matcher for it. With such a pool the keys go through the
same states as without (`PooledKeys.Sound.start_eq`), and the pool stays so. -/

namespace MarkupGrammar

variable {g : Grammar}

/-! ## Clearing -/

namespace Matcher

theorem clear_ofExpression (e : PathExpression) (collectsText : Bool) :
    (ofExpression e collectsText).clear = ofExpression e collectsText := by
  simp [clear, ofExpression]

theorem clear_start (m : Matcher) (e : TagEvent) : (m.start e).2.clear = m.clear := by
  simp [clear, start]

theorem clear_characters (m : Matcher) (text : String) : (m.characters text).clear = m.clear :=
  rfl

theorem clear_stop (m : Matcher) : m.stop.2.clear = m.clear := by
  unfold stop
  cases m.frames with
  | nil => simp [clear]
  | cons f frames => simp [clear]

end Matcher

/-! ## The pool -/

/-- A new matcher for a use. -/
def MatcherUse.new? (g : Grammar) (u : MatcherUse) : Option Matcher :=
  (g.constraints[u.constraint]?).bind fun c =>
    match u.field? with
    | none => some (.ofExpression c.selector false)
    | some i => (c.fields[i]?).map (.ofExpression · true)

namespace MatcherPool

/-- Each matcher fits its use. -/
def Sound (g : Grammar) (p : MatcherPool) : Prop := ∀ x ∈ p.free, x.1.new? g = some x.2.clear

variable {p : MatcherPool} {u : MatcherUse} {m new : Matcher}

theorem sound_empty : ({} : MatcherPool).Sound g := fun _ hx => absurd hx List.not_mem_nil

theorem Sound.give (h : p.Sound g) (hm : u.new? g = some m.clear) : (p.give u m).Sound g :=
  List.forall_mem_cons.mpr ⟨hm, h⟩

/-- A matcher of the pool is as good as a new one. -/
theorem Sound.take (h : p.Sound g) (hu : u.new? g = some new) :
    (p.take u new).1 = new ∧ (p.take u new).2.Sound g := by
  unfold MatcherPool.take
  split
  · rename_i u' m hfind
    obtain rfl : u' = u := by simpa using List.find?_some hfind
    have hm : u'.new? g = some m.clear := h _ (List.mem_of_find?_eq_some hfind)
    exact ⟨Option.some.inj (hm.symm.trans hu), fun x hx => h x (List.mem_of_mem_eraseP hx)⟩
  · exact ⟨rfl, h⟩

/-- A list is left as it is if each of its entries is, whatever sound pool it meets. -/
theorem Sound.along {α : Type} (h : p.Sound g) (f : MatcherPool → α → α × MatcherPool)
    (xs : List α)
    (hf : ∀ x ∈ xs, ∀ q : MatcherPool, q.Sound g → (f q x).1 = x ∧ (f q x).2.Sound g) :
    (p.along f xs).1 = xs ∧ (p.along f xs).2.Sound g := by
  induction xs generalizing p with
  | nil => exact ⟨rfl, h⟩
  | cons x xs ih =>
    obtain ⟨hx, hp⟩ := hf x List.mem_cons_self p h
    obtain ⟨hxs, hlast⟩ := ih hp fun y hy => hf y (List.mem_cons_of_mem x hy)
    exact ⟨congrArg₂ List.cons hx hxs, hlast⟩

end MatcherPool

/-! ## Activations and selections -/

/-- The number is that of the constraint. -/
def NumberedConstraint.IsOf (g : Grammar) (c : NumberedConstraint) : Prop :=
  g.constraints[c.number]? = some c.constraint

theorem NumberedConstraint.IsOf.new?_selector {c : NumberedConstraint} (h : c.IsOf g) :
    MatcherUse.new? g ⟨c.number, none⟩ = some (.ofExpression c.constraint.selector false) :=
  Option.bind_eq_some_iff.mpr ⟨c.constraint, h, rfl⟩

theorem NumberedConstraint.IsOf.new?_field {c : NumberedConstraint} (h : c.IsOf g) (i : Nat) :
    MatcherUse.new? g ⟨c.number, some i⟩ =
      (c.constraint.fields[i]?).map (.ofExpression · true) := by
  unfold MatcherUse.new?
  dsimp only
  rw [h, Option.bind_some]

/-- The activation is one of the grammar, and its matcher fits. -/
structure Activation.Sound (g : Grammar) (a : Activation) : Prop where
  isOf : a.of.IsOf g
  clear_matcher : a.matcher.clear = .ofExpression a.of.constraint.selector false

/-- The selection is one of the grammar, and its matchers fit. -/
structure Selection.Sound (g : Grammar) (s : Selection) : Prop where
  isOf : s.of.IsOf g
  clear_matchers : s.fields.map (·.matcher.clear) =
    s.of.constraint.fields.map (.ofExpression · true)

namespace MatcherPool

variable {p : MatcherPool} {a : Activation} {s : Selection}

theorem Sound.takeActivation (h : p.Sound g) (ha : a.of.IsOf g)
    (hnew : a.matcher = .ofExpression a.of.constraint.selector false) :
    (p.takeActivation a).1 = a ∧ (p.takeActivation a).2.Sound g := by
  have hu : MatcherUse.new? g ⟨a.of.number, none⟩ = some a.matcher := by
    rw [ha.new?_selector, hnew]
  obtain ⟨hm, hp⟩ := h.take hu
  exact ⟨congrArg (fun matcher => { a with matcher }) hm, hp⟩

/-- A selection that begins begins as it would with new matchers. -/
theorem Sound.takeSelection (h : p.Sound g) (hs : s.of.IsOf g)
    (hnew : s.fields = s.of.constraint.fields.map FieldWalk.ofExpression) :
    (p.takeSelection s).1 = s ∧ (p.takeSelection s).2.Sound g := by
  have hfield (x : FieldWalk × Nat) (hx : x ∈ s.fields.zipIdx) (q : MatcherPool) (hq : q.Sound g) :
      (takeField s.of.number q x).1 = x ∧ (takeField s.of.number q x).2.Sound g := by
    obtain ⟨f, i⟩ := x
    have hi : s.fields[i]? = some f := List.mem_zipIdx_iff_getElem?.mp hx
    rw [hnew, List.getElem?_map] at hi
    obtain ⟨e, he, rfl⟩ := Option.map_eq_some_iff.mp hi
    have hu : MatcherUse.new? g ⟨s.of.number, some i⟩ =
        some (FieldWalk.ofExpression e).matcher := by
      rw [hs.new?_field, he]
      rfl
    obtain ⟨hm, hp⟩ := hq.take hu
    exact ⟨congrArg (fun matcher => ({ FieldWalk.ofExpression e with matcher }, i)) hm, hp⟩
  obtain ⟨hfields, hp⟩ := h.along _ _ hfield
  refine ⟨?_, hp⟩
  unfold MatcherPool.takeSelection
  dsimp only
  rw [hfields, List.zipIdx_map_fst]

theorem Sound.giveActivations {as : List Activation} (h : p.Sound g)
    (has : ∀ a ∈ as, a.Sound g) : (p.giveActivations as).Sound g := by
  unfold MatcherPool.giveActivations
  refine List.foldlRecOn (motive := fun p : MatcherPool => p.Sound g) as _ h fun p hp a ha => ?_
  exact hp.give (by rw [(has a ha).isOf.new?_selector, (has a ha).clear_matcher])

theorem Sound.giveSelection (h : p.Sound g) (hs : s.Sound g) : (p.giveSelection s).Sound g := by
  unfold MatcherPool.giveSelection
  refine List.foldlRecOn (motive := fun p : MatcherPool => p.Sound g) _ _ h fun p hp x hx => ?_
  obtain ⟨f, i⟩ := x
  refine hp.give ?_
  have hi : s.fields[i]? = some f := List.mem_zipIdx_iff_getElem?.mp hx
  have hclear := congrArg (·[i]?) hs.clear_matchers
  rw [List.getElem?_map, List.getElem?_map, hi] at hclear
  rw [hs.isOf.new?_field, ← hclear]
  rfl

theorem Sound.giveSelections {ss : List Selection} (h : p.Sound g) (hss : ∀ s ∈ ss, s.Sound g) :
    (p.giveSelections ss).Sound g := by
  unfold MatcherPool.giveSelections
  refine List.foldlRecOn (motive := fun p : MatcherPool => p.Sound g) ss _ h fun p hp s hs => ?_
  exact hp.giveSelection (hss s hs)

end MatcherPool

/-! ### Steps -/

theorem Activation.Sound.of_matcher {a : Activation} (h : a.Sound g) {m : Matcher}
    (hm : m.clear = a.matcher.clear) : ({ a with matcher := m } : Activation).Sound g :=
  ⟨h.isOf, hm.trans h.clear_matcher⟩

theorem Activation.Sound.start {a : Activation} (h : a.Sound g) (e : TagEvent) :
    (Keys.Activation.start a e).2.Sound g :=
  h.of_matcher (Matcher.clear_start a.matcher e)

namespace Selection

variable {s : Selection} {types : TypeTable}

theorem Sound.advance (h : s.Sound g) {step : Matcher → Option Selected × Matcher}
    (hstep : ∀ m, (step m).2.clear = m.clear) : (s.advance types step).1.Sound g := by
  rw [advance_fst]
  refine ⟨h.isOf, ?_⟩
  rw [← h.clear_matchers, List.map_map]
  exact List.map_congr_left fun f _ => hstep f.matcher

theorem Sound.start (h : s.Sound g) (e : TagEvent) : (s.start types e).1.Sound g :=
  h.advance fun m => Matcher.clear_start m e

theorem Sound.stop (h : s.Sound g) : (s.stop types).1.Sound g :=
  h.advance Matcher.clear_stop

theorem Sound.characters (h : s.Sound g) (text : String) : (s.characters text).Sound g := by
  refine ⟨h.isOf, Eq.trans ?_ h.clear_matchers⟩
  unfold Selection.characters
  rw [List.map_map]
  exact List.map_congr_left fun f _ => Matcher.clear_characters f.matcher text

theorem sound_select {a : Activation} (ha : a.of.IsOf g) (place depth : Nat) (path : String) :
    (Keys.select a place depth path).Sound g := by
  refine ⟨ha, ?_⟩
  unfold Keys.select
  rw [List.map_map]
  exact List.map_congr_left fun e _ => Matcher.clear_ofExpression e true

end Selection

/-! ## The state -/

/-- The matchers in use fit. -/
structure Keys.Sound (g : Grammar) (k : Keys) : Prop where
  activations : ∀ a ∈ k.activations, a.Sound g
  selections : ∀ s ∈ k.selections, s.Sound g

namespace Keys

variable {k : Keys}

theorem Sound.characters (h : k.Sound g) (text : String) : (k.characters text).Sound g :=
  ⟨h.activations, List.forall_mem_map.mpr fun s hs => (h.selections s hs).characters text⟩

theorem Sound.closeComplete (h : k.Sound g) (s : Selection) : (k.closeComplete s).1.Sound g := by
  unfold Keys.closeComplete
  dsimp only
  split
  · exact h
  · rename_i a ha
    split
    · exact ⟨h.activations, h.selections⟩
    · exact h
    · split
      · exact h
      · refine ⟨fun b hb => ?_, h.selections⟩
        rcases List.mem_or_eq_of_mem_set hb with hb | rfl
        · exact h.activations b hb
        · exact ⟨(h.activations a (List.mem_of_getElem? ha)).isOf,
            (h.activations a (List.mem_of_getElem? ha)).clear_matcher⟩

theorem Sound.closeSelection (h : k.Sound g) (s : Selection) : (k.closeSelection s).1.Sound g := by
  unfold Keys.closeSelection
  dsimp only
  split
  · exact h.closeComplete s
  · split <;> exact h

theorem Sound.closeSelections (h : k.Sound g) (ss : List Selection) :
    (k.closeSelections ss).1.Sound g := by
  induction ss generalizing k with
  | nil => exact h
  | cons s ss ih => exact ih (h.closeSelection s)

theorem Sound.closeLedger (h : k.Sound g) : k.closeLedger.Sound g := by
  unfold Keys.closeLedger
  split
  · exact h
  · exact ⟨h.activations, h.selections⟩

theorem Sound.withSelections (h : k.Sound g) {ss : List Selection} (hss : ∀ s ∈ ss, s.Sound g) :
    ({ k with selections := ss } : Keys).Sound g :=
  ⟨h.activations, hss⟩

/-- The selections that have followed an end tag. -/
theorem Sound.stopped (h : k.Sound g) :
    ∀ s ∈ (k.selections.map (·.stop g.types)).map (·.1), s.Sound g := by
  rw [List.map_map]
  exact List.forall_mem_map.mpr fun s hs => (h.selections s hs).stop

theorem Sound.stop (h : k.Sound g) : (k.stop g).1.Sound g := by
  unfold Keys.stop
  split
  · exact h
  · dsimp only
    rw [List.partition_eq_filter_filter]
    have hclosed (kept : Selection → Bool) (closing : List Selection) :=
      ((h.withSelections fun s hs => h.stopped s (List.mem_of_mem_filter (p := kept) hs)
        ).closeSelections closing).closeLedger
    refine ⟨fun a ha => ?_, (hclosed _ _).selections⟩
    obtain ⟨b, hb, rfl⟩ := List.mem_map.mp (List.mem_of_mem_filter ha)
    exact ((hclosed _ _).activations b hb).of_matcher (Matcher.clear_stop b.matcher)

/-- Activations of an element begin with new matchers. -/
theorem of_mem_activationsOf {element? : Option Nat} {depth : Nat} {a : Activation}
    (h : a ∈ activationsOf g element? depth) :
    a.of.IsOf g ∧ a.matcher = .ofExpression a.of.constraint.selector false := by
  unfold activationsOf at h
  split at h
  · exact absurd h List.not_mem_nil
  · obtain ⟨number, -, h⟩ := List.mem_filterMap.mp h
    obtain ⟨c, hc, rfl⟩ := Option.map_eq_some_iff.mp h
    exact ⟨hc, rfl⟩

theorem sound_of_mem_activationsOf {element? : Option Nat} {depth : Nat} {a : Activation}
    (h : a ∈ activationsOf g element? depth) : a.Sound g := by
  obtain ⟨hof, hmatcher⟩ := of_mem_activationsOf h
  exact ⟨hof, by rw [hmatcher, Matcher.clear_ofExpression]⟩

/-- The activations after a start tag, each with whether it selects the element. -/
theorem Sound.followed (h : k.Sound g) (element? : Option Nat) (e : TagEvent) :
    ∀ x ∈ (k.activations ++ activationsOf g element? (k.depth + 1)).map (Activation.start · e),
      x.2.Sound g := by
  refine List.forall_mem_map.mpr fun a ha => ?_
  rcases List.mem_append.mp ha with ha | ha
  · exact (h.activations a ha).start e
  · exact (sound_of_mem_activationsOf ha).start e

theorem Sound.start (h : k.Sound g) (element? : Option Nat) (e : TagEvent) (path : String) :
    (k.start g element? e path).1.Sound g := by
  refine ⟨fun a ha => ?_, fun s hs => ?_⟩
  · obtain ⟨x, hx, rfl⟩ := List.mem_map.mp ha
    exact h.followed element? e x hx
  · rcases List.mem_append.mp hs with hs | hs
    · obtain ⟨y, hy, rfl⟩ := List.mem_map.mp hs
      obtain ⟨t, ht, rfl⟩ := List.mem_map.mp hy
      exact (h.selections t ht).start e
    · obtain ⟨y, hy, rfl⟩ := List.mem_map.mp hs
      obtain ⟨x, hx, rfl⟩ := List.mem_map.mp hy
      have hmem := List.fst_mem_of_mem_zipIdx (List.mem_of_mem_filter hx)
      exact (Selection.sound_select (h.followed element? e x.1 hmem).isOf _ _ path).start e

end Keys

/-- The matchers in use and those in the pool fit. -/
structure PooledKeys.Sound (g : Grammar) (k : PooledKeys) : Prop where
  keys : k.keys.Sound g
  pool : k.pool.Sound g

namespace PooledKeys

variable {k : PooledKeys}

theorem sound_empty : ({} : PooledKeys).Sound g :=
  ⟨⟨fun _ ha => absurd ha List.not_mem_nil, fun _ hs => absurd hs List.not_mem_nil⟩,
    MatcherPool.sound_empty⟩

theorem Sound.clear (h : k.Sound g) : k.clear.Sound g :=
  ⟨sound_empty.keys,
    (h.pool.giveActivations h.keys.activations).giveSelections h.keys.selections⟩

/-- What a selector begins with at a start tag. -/
theorem of_mem_selecting {as : List (Bool × Activation)} {s : Selection} {depth : Nat}
    {path : String} (has : ∀ x ∈ as, x.2.Sound g)
    (hs : s ∈ (as.zipIdx.filter fun ((isSelected, _), _) => isSelected).map
      fun ((_, a), place) => Keys.select a place depth path) :
    s.of.IsOf g ∧ s.fields = s.of.constraint.fields.map FieldWalk.ofExpression := by
  obtain ⟨x, hx, rfl⟩ := List.mem_map.mp hs
  have hmem := List.fst_mem_of_mem_zipIdx (List.mem_of_mem_filter hx)
  exact ⟨(has x.1 hmem).isOf, rfl⟩

/-- **Start tags with a pool** lead to the same keys and reports as without. -/
theorem Sound.start_eq (h : k.Sound g) (element? : Option Nat) (e : TagEvent) (path : String) :
    ((k.start g element? e path).1.keys, (k.start g element? e path).2) =
        k.keys.start g element? e path ∧
      (k.start g element? e path).1.pool.Sound g := by
  obtain ⟨hbegun, hpool⟩ := h.pool.along MatcherPool.takeActivation
    (Keys.activationsOf g element? (k.keys.depth + 1)) fun a ha q hq =>
      hq.takeActivation (Keys.of_mem_activationsOf ha).1 (Keys.of_mem_activationsOf ha).2
  obtain ⟨hselected, hpool⟩ := hpool.along MatcherPool.takeSelection
    ((((k.keys.activations ++ Keys.activationsOf g element? (k.keys.depth + 1)).map
      (Keys.Activation.start · e)).zipIdx.filter fun x => x.1.1).map
        fun x => Keys.select x.1.2 x.2 (k.keys.depth + 1) path) fun s hs q hq =>
      hq.takeSelection (of_mem_selecting (h.keys.followed element? e) hs).1
        (of_mem_selecting (h.keys.followed element? e) hs).2
  unfold PooledKeys.start Keys.start
  dsimp only
  rw [hbegun, hselected]
  exact ⟨by simp only [List.map_map, Function.comp_def], hpool⟩

theorem Sound.start (h : k.Sound g) (element? : Option Nat) (e : TagEvent) (path : String) :
    (k.start g element? e path).1.Sound g := by
  obtain ⟨heq, hpool⟩ := h.start_eq element? e path
  have hkeys : (k.start g element? e path).1.keys = (k.keys.start g element? e path).1 :=
    congrArg Prod.fst heq
  exact ⟨hkeys ▸ h.keys.start element? e path, hpool⟩

theorem Sound.characters (h : k.Sound g) (text : String) : (k.characters text).Sound g :=
  ⟨h.keys.characters text, h.pool⟩

theorem Sound.stop (h : k.Sound g) : (k.stop g).1.Sound g := by
  refine ⟨h.keys.stop, ?_⟩
  unfold PooledKeys.stop
  dsimp only
  split
  · exact h.pool
  · refine (h.pool.giveSelections fun s hs => ?_).giveActivations fun a ha => ?_
    · obtain ⟨b, hb, rfl⟩ :=
        List.mem_map.mp (List.mem_of_mem_filter (List.mem_reverse.mp hs))
      exact (h.keys.selections b hb).stop
    · obtain ⟨b, hb, rfl⟩ :=
        List.mem_map.mp (List.mem_of_mem_filter (List.mem_reverse.mp ha))
      exact (h.keys.activations b hb).of_matcher (Matcher.clear_stop b.matcher)

theorem Sound.finish (h : k.Sound g) : (k.finish g).1.Sound g :=
  ⟨⟨h.keys.activations, h.keys.selections⟩, h.pool⟩

end PooledKeys

end MarkupGrammar
