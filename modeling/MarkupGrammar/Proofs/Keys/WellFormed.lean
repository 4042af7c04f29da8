import MarkupGrammar.Proofs.Grammar.WellFormed
import MarkupGrammar.Proofs.Keys.Pool

/-! # Keys that stay in the grammar

Activations stand in the order of their depths, each selection knows the place of its activation,
and each open element has a ledger. Every event keeps it so (`Keys.WellFormed.start`,
`Keys.WellFormed.stop`), also when start tags and end tags do not match: an end tag takes away the
activations of the innermost element, which are the last ones, so the places of the others stay. -/

namespace MarkupGrammar

variable {g : Grammar} {k k' : Keys} {s : Selection}

/-- The selection is of an activation that is there. -/
structure Selection.WellFormed (g : Grammar) (places : List (NumberedConstraint × Nat))
    (depth : Nat) (s : Selection) : Prop where
  isOf : s.of.IsOf g
  place : ∃ d ≤ s.depth, places[s.activation]? = some (s.of, d)
  depth_le : s.depth ≤ depth
  length_fields : s.fields.length = s.of.constraint.fields.length

/-- The reference is by and to constraints of the grammar. -/
structure OpenReference.WellFormed (g : Grammar) (r : OpenReference) : Prop where
  isOf : r.of.IsOf g
  refer_lt : r.refer < g.constraints.size

/-- The activation without what it has found. -/
def Activation.bare (a : Activation) : Activation := { a with tuples := [] }

namespace Keys

/-- The constraints of the activations, each with the depth of its element. -/
def places (k : Keys) : List (NumberedConstraint × Nat) :=
  k.activations.map fun a => (a.of, a.depth)

/-- What the keys refer to is there. -/
structure WellFormed (g : Grammar) (k : Keys) : Prop where
  length_ledgers : k.ledgers.length = k.depth
  isOf : ∀ x ∈ k.places, x.1.IsOf g
  depth_pos : ∀ x ∈ k.places, 0 < x.2
  depth_le : ∀ x ∈ k.places, x.2 ≤ k.depth
  sorted : k.places.Pairwise (·.2 ≤ ·.2)
  selections : ∀ s ∈ k.selections, s.WellFormed g k.places k.depth
  references : ∀ r ∈ k.waiting ++ k.dangling, r.WellFormed g

theorem wellFormed_empty : ({} : Keys).WellFormed g where
  length_ledgers := rfl
  isOf _ h := nomatch h
  depth_pos _ h := nomatch h
  depth_le _ h := nomatch h
  sorted := .nil
  selections _ h := nomatch h
  references _ h := nomatch h

end Keys

/-! ## Selections -/

namespace Selection

variable {places places' : List (NumberedConstraint × Nat)} {depth depth' : Nat}

theorem WellFormed.advance (h : s.WellFormed g places depth) (types : TypeTable)
    (step : Matcher → Option Selected × Matcher) :
    (s.advance types step).1.WellFormed g places depth := by
  rw [advance_fst]
  exact ⟨h.isOf, h.place, h.depth_le, (List.length_map _).trans h.length_fields⟩

theorem WellFormed.characters (h : s.WellFormed g places depth) (text : String) :
    (s.characters text).WellFormed g places depth :=
  ⟨h.isOf, h.place, h.depth_le, (List.length_map _).trans h.length_fields⟩

/-- More activations leave the selection as it is. -/
theorem WellFormed.append (h : s.WellFormed g places depth) (hd : depth ≤ depth') :
    s.WellFormed g (places ++ places') depth' := by
  obtain ⟨d, hd', hplace⟩ := h.place
  refine ⟨h.isOf, ⟨d, hd', ?_⟩, h.depth_le.trans hd, h.length_fields⟩
  rw [List.getElem?_append_left (List.getElem?_eq_some_iff.mp hplace).1]
  exact hplace

end Selection

namespace Keys

/-! ## Start tags -/

theorem depth_of_mem_activationsOf {element? : Option Nat} {depth : Nat} {a : Activation}
    (h : a ∈ activationsOf g element? depth) : a.depth = depth := by
  unfold activationsOf at h
  split at h
  · exact absurd h List.not_mem_nil
  · obtain ⟨number, -, h⟩ := List.mem_filterMap.mp h
    obtain ⟨c, -, rfl⟩ := Option.map_eq_some_iff.mp h
    rfl

theorem places_start (element? : Option Nat) (e : TagEvent) (path : String) :
    (k.start g element? e path).1.places =
      k.places ++ (activationsOf g element? (k.depth + 1)).map fun a => (a.of, a.depth) := by
  unfold Keys.start places
  dsimp only
  rw [List.map_map, List.map_map, List.map_append]
  rfl

theorem WellFormed.start (h : k.WellFormed g) (element? : Option Nat) (e : TagEvent)
    (path : String) : (k.start g element? e path).1.WellFormed g := by
  have hplaces := places_start (g := g) (k := k) element? e path
  have hdepth : (k.start g element? e path).1.depth = k.depth + 1 := rfl
  have hnew {x : NumberedConstraint × Nat} (hx : x ∈ (activationsOf g element? (k.depth + 1)).map
      fun a => (a.of, a.depth)) : x.1.IsOf g ∧ x.2 = k.depth + 1 := by
    obtain ⟨a, ha, rfl⟩ := List.mem_map.mp hx
    exact ⟨(of_mem_activationsOf ha).1, depth_of_mem_activationsOf ha⟩
  have hle : ∀ x ∈ (k.start g element? e path).1.places, x.1.IsOf g ∧ 0 < x.2 ∧
      x.2 ≤ k.depth + 1 := by
    rw [hplaces]
    intro x hx
    rcases List.mem_append.mp hx with hx | hx
    · exact ⟨h.isOf x hx, h.depth_pos x hx, (h.depth_le x hx).trans (Nat.le_succ _)⟩
    · obtain ⟨hof, hd⟩ := hnew hx
      exact ⟨hof, by omega, hd.le⟩
  refine ⟨congrArg (· + 1) h.length_ledgers, fun x hx => (hle x hx).1, fun x hx => (hle x hx).2.1,
    fun x hx => (hle x hx).2.2, ?_, fun s hs => ?_, h.references⟩
  · rw [hplaces]
    refine List.pairwise_append.mpr ⟨h.sorted, ?_, fun x hx y hy => ?_⟩
    · exact List.pairwise_of_forall_mem_list fun x hx y hy =>
        ((hnew hx).2.trans (hnew hy).2.symm).le
    · rw [(hnew hy).2]
      exact (h.depth_le x hx).trans (Nat.le_succ _)
  · rcases List.mem_append.mp hs with hs | hs
    · obtain ⟨y, hy, rfl⟩ := List.mem_map.mp hs
      obtain ⟨t, ht, rfl⟩ := List.mem_map.mp hy
      rw [hplaces, hdepth]
      exact ((h.selections t ht).advance _ _).append (Nat.le_succ _)
    · obtain ⟨y, hy, rfl⟩ := List.mem_map.mp hs
      obtain ⟨x, hx, rfl⟩ := List.mem_map.mp hy
      have hat := List.mem_zipIdx_iff_getElem?.mp (List.mem_of_mem_filter hx)
      have hplace : (k.start g element? e path).1.places[x.2]? = some (x.1.2.of, x.1.2.depth) := by
        unfold Keys.start places
        dsimp only
        rw [List.getElem?_map, List.getElem?_map, hat]
        rfl
      obtain ⟨hof, -, hd⟩ := hle _ (List.mem_of_getElem? hplace)
      have hselect : (select x.1.2 x.2 (k.depth + 1) path).WellFormed g
          (k.start g element? e path).1.places (k.depth + 1) :=
        ⟨hof, ⟨_, hd, hplace⟩, le_rfl, List.length_map _⟩
      exact hselect.advance _ _

theorem WellFormed.characters (h : k.WellFormed g) (text : String) :
    (k.characters text).WellFormed g where
  length_ledgers := h.length_ledgers
  isOf := h.isOf
  depth_pos := h.depth_pos
  depth_le := h.depth_le
  sorted := h.sorted
  selections := List.forall_mem_map.mpr fun s hs => (h.selections s hs).characters text
  references := h.references

/-! ## End tags -/

/-- The stacks are the same, but for tuples and references that have been found. -/
structure SameStacks (k k' : Keys) : Prop where
  depth : k'.depth = k.depth
  activations : k'.activations.map Activation.bare = k.activations.map Activation.bare
  selections : k'.selections = k.selections
  length_ledgers : k'.ledgers.length = k.ledgers.length
  waiting : ∀ r ∈ k'.waiting, r ∈ k.waiting ∨ ∃ a ∈ k.activations, a.depth = r.depth

theorem sameStacks_refl (k : Keys) : SameStacks k k := ⟨rfl, rfl, rfl, rfl, fun _ hr => .inl hr⟩

/-- Each activation is still there, and at its place. -/
theorem SameStacks.getElem?_activations (h : SameStacks k k') {i : Nat} {a : Activation}
    (ha : k.activations[i]? = some a) : ∃ a', k'.activations[i]? = some a' ∧ a'.bare = a.bare := by
  have hbare := congrArg (·[i]?) h.activations
  rw [List.getElem?_map, List.getElem?_map, ha] at hbare
  exact Option.map_eq_some_iff.mp hbare

theorem SameStacks.symm_activations (h : SameStacks k k') {a' : Activation}
    (ha : a' ∈ k'.activations) : ∃ a ∈ k.activations, a.bare = a'.bare :=
  List.mem_map.mp (h.activations ▸ List.mem_map_of_mem ha)

theorem SameStacks.trans {k'' : Keys} (h : SameStacks k k') (h' : SameStacks k' k'') :
    SameStacks k k'' where
  depth := h'.depth.trans h.depth
  activations := h'.activations.trans h.activations
  selections := h'.selections.trans h.selections
  length_ledgers := h'.length_ledgers.trans h.length_ledgers
  waiting r hr := by
    rcases h'.waiting r hr with hr | ⟨a', ha', hdepth⟩
    · exact h.waiting r hr
    · obtain ⟨a, ha, hbare⟩ := h.symm_activations ha'
      exact .inr ⟨a, ha, (congrArg Activation.depth hbare).trans hdepth⟩

theorem sameStacks_enter {a : Activation} {place : Nat} (ha : k.activations[place]? = some a)
    (tuple : FieldTuple) : SameStacks k (k.enter a place tuple) where
  depth := rfl
  activations := by
    unfold Keys.enter
    dsimp only
    obtain ⟨hlt, rfl⟩ := List.getElem?_eq_some_iff.mp ha
    rw [List.map_set]
    conv_rhs => rw [← List.set_getElem_self hlt, List.map_set]
    rfl
  selections := rfl
  length_ledgers := List.length_modify _ _ _
  waiting _ hr := .inl hr

theorem sameStacks_closeComplete (k : Keys) (s : Selection) :
    SameStacks k (k.closeComplete s).1 := by
  unfold Keys.closeComplete
  dsimp only
  split
  · exact sameStacks_refl k
  · rename_i a ha
    split
    · refine ⟨rfl, rfl, rfl, rfl, fun r hr => ?_⟩
      rcases List.mem_append.mp hr with hr | hr
      · exact .inl hr
      · obtain rfl := List.mem_singleton.mp hr
        exact .inr ⟨a, List.mem_of_getElem? ha, rfl⟩
    · exact sameStacks_refl k
    · split
      · exact sameStacks_refl k
      · exact sameStacks_enter ha s.tuple

theorem sameStacks_closeSelection (k : Keys) (s : Selection) :
    SameStacks k (k.closeSelection s).1 := by
  unfold Keys.closeSelection
  dsimp only
  split
  · exact sameStacks_closeComplete k s
  · split <;> exact sameStacks_refl k

theorem sameStacks_closeSelections (k : Keys) (ss : List Selection) :
    SameStacks k (k.closeSelections ss).1 := by
  induction ss generalizing k with
  | nil => exact sameStacks_refl k
  | cons s ss ih => exact (sameStacks_closeSelection k s).trans (ih _)

/-- Nothing is different but for what has been found. -/
structure Keeps (g : Grammar) (k k' : Keys) : Prop where
  depth : k'.depth = k.depth
  places : k'.places = k.places
  selections : k'.selections = k.selections
  length_ledgers : k'.ledgers.length = k.ledgers.length
  references : (∀ r ∈ k.waiting ++ k.dangling, r.WellFormed g) →
    ∀ r ∈ k'.waiting ++ k'.dangling, r.WellFormed g

theorem SameStacks.places_eq (h : SameStacks k k') : k'.places = k.places := by
  have hplaces := congrArg (List.map fun a => (a.of, a.depth)) h.activations
  rwa [List.map_map, List.map_map] at hplaces

theorem SameStacks.keeps (h : SameStacks k k')
    (hr : (∀ r ∈ k.waiting ++ k.dangling, r.WellFormed g) →
      ∀ r ∈ k'.waiting ++ k'.dangling, r.WellFormed g) : Keeps g k k' :=
  ⟨h.depth, h.places_eq, h.selections, h.length_ledgers, hr⟩

theorem Keeps.wellFormed (hk : Keeps g k k') (h : k.WellFormed g) : k'.WellFormed g where
  length_ledgers := by rw [hk.length_ledgers, hk.depth, h.length_ledgers]
  isOf := by rw [hk.places]; exact h.isOf
  depth_pos := by rw [hk.places]; exact h.depth_pos
  depth_le := by rw [hk.places, hk.depth]; exact h.depth_le
  sorted := by rw [hk.places]; exact h.sorted
  selections := by rw [hk.selections, hk.places, hk.depth]; exact h.selections
  references := hk.references h.references

theorem references_closeComplete (hg : g.WellFormed) (hs : s.of.IsOf g)
    (h : ∀ r ∈ k.waiting ++ k.dangling, r.WellFormed g) :
    ∀ r ∈ (k.closeComplete s).1.waiting ++ (k.closeComplete s).1.dangling, r.WellFormed g := by
  unfold Keys.closeComplete
  dsimp only
  split
  · exact h
  · split
    · rename_i refer _ hrefer
      intro r hr
      rw [List.append_assoc] at hr
      rcases List.mem_append.mp hr with hr | hr
      · exact h r (List.mem_append_left _ hr)
      · rcases List.mem_cons.mp hr with rfl | hr
        · obtain ⟨t, ht, -⟩ :=
            (hg.constraints _ (Array.mem_of_getElem? hs)).target refer hrefer
          exact ⟨hs, (Array.getElem?_eq_some_iff.mp ht).1⟩
        · exact h r (List.mem_append_right _ hr)
    · exact h
    · split <;> exact h

theorem references_closeSelection (hg : g.WellFormed) (hs : s.of.IsOf g)
    (h : ∀ r ∈ k.waiting ++ k.dangling, r.WellFormed g) :
    ∀ r ∈ (k.closeSelection s).1.waiting ++ (k.closeSelection s).1.dangling, r.WellFormed g := by
  unfold Keys.closeSelection
  dsimp only
  split
  · exact references_closeComplete hg hs h
  · split <;> exact h

theorem references_closeSelections (hg : g.WellFormed) {ss : List Selection}
    (hs : ∀ s ∈ ss, s.of.IsOf g) (h : ∀ r ∈ k.waiting ++ k.dangling, r.WellFormed g) :
    ∀ r ∈ (k.closeSelections ss).1.waiting ++ (k.closeSelections ss).1.dangling,
      r.WellFormed g := by
  induction ss generalizing k with
  | nil => exact h
  | cons s ss ih =>
    obtain ⟨hs, hss⟩ := List.forall_mem_cons.mp hs
    exact ih hss (references_closeSelection hg hs h)

theorem keeps_closeSelections (hg : g.WellFormed) {ss : List Selection}
    (hs : ∀ s ∈ ss, s.of.IsOf g) : Keeps g k (k.closeSelections ss).1 :=
  (sameStacks_closeSelections k ss).keeps (references_closeSelections hg hs)

theorem places_closeLedger : k.closeLedger.places = k.places := by
  unfold Keys.closeLedger
  split <;> rfl

theorem selections_closeLedger : k.closeLedger.selections = k.selections := by
  unfold Keys.closeLedger
  split <;> rfl

theorem depth_closeLedger : k.closeLedger.depth = k.depth := by
  unfold Keys.closeLedger
  split <;> rfl

theorem length_ledgers_closeLedger : k.closeLedger.ledgers.length = k.ledgers.length - 1 := by
  unfold Keys.closeLedger
  split
  · rename_i h
    rw [h]
    rfl
  · rename_i ledger outer h
    rw [h]
    cases outer <;> rfl

theorem references_closeLedger (h : ∀ r ∈ k.waiting ++ k.dangling, r.WellFormed g) :
    ∀ r ∈ k.closeLedger.waiting ++ k.closeLedger.dangling, r.WellFormed g := by
  have hwaiting (r : OpenReference) (hr : r ∈ k.waiting) := h r (List.mem_append_left _ hr)
  unfold Keys.closeLedger
  split
  · exact h
  · dsimp only
    rw [List.partition_eq_filter_filter]
    intro r hr
    rcases List.mem_append.mp hr with hr | hr
    · exact hwaiting r (List.mem_of_mem_filter hr)
    · rcases List.mem_append.mp hr with hr | hr
      · exact h r (List.mem_append_right _ hr)
      · exact hwaiting r (List.mem_of_mem_filter (List.mem_of_mem_filter hr))

section Sorted

variable {α : Type} {f : α → Nat} {l : List α} {n : Nat}

/-- What is deepest stands behind the rest. -/
theorem filter_append_filter_of_sorted (hs : l.Pairwise (f · ≤ f ·)) (hle : ∀ x ∈ l, f x ≤ n) :
    l.filter (f · != n) ++ l.filter (f · == n) = l := by
  induction l with
  | nil => rfl
  | cons x l ih =>
    obtain ⟨hfirst, hs⟩ := List.pairwise_cons.mp hs
    obtain ⟨hx, hle⟩ := List.forall_mem_cons.mp hle
    by_cases hxn : f x = n
    · have hall : ∀ y ∈ l, f y = n := fun y hy => (hle y hy).antisymm (hxn ▸ hfirst y hy)
      have hnone : (x :: l).filter (f · != n) = [] := by
        rw [List.filter_eq_nil_iff]
        exact List.forall_mem_cons.mpr ⟨by simp [hxn], fun y hy => by simp [hall y hy]⟩
      rw [hnone, List.nil_append, List.filter_eq_self]
      exact List.forall_mem_cons.mpr ⟨by simp [hxn], fun y hy => by simp [hall y hy]⟩
    · rw [List.filter_cons_of_pos (by simpa using hxn),
        List.filter_cons_of_neg (by simpa using hxn), List.cons_append, ih hs hle]

/-- Places before those of the innermost element stay. -/
theorem getElem?_filter_of_sorted {i : Nat} {x : α} (hs : l.Pairwise (f · ≤ f ·))
    (hle : ∀ x ∈ l, f x ≤ n) (hx : l[i]? = some x) (hn : f x ≠ n) :
    (l.filter (f · != n))[i]? = some x := by
  rw [← filter_append_filter_of_sorted hs hle] at hx
  rcases Nat.lt_or_ge i (l.filter (f · != n)).length with hi | hi
  · rwa [List.getElem?_append_left hi] at hx
  · rw [List.getElem?_append_right hi] at hx
    exact absurd (by simpa using (List.mem_filter.mp (List.mem_of_getElem? hx)).2) hn

end Sorted

/-- The innermost element is left, its selections having been closed. -/
def leave (k : Keys) : Keys :=
  { k.closeLedger with
    depth := k.closeLedger.depth - 1
    activations := (k.closeLedger.activations.map fun a =>
      { a with matcher := a.matcher.stop.2 }).filter (·.depth != k.closeLedger.depth) }

/-- An end tag closes the selections of the innermost element, the last first, and leaves it. -/
theorem stop_of_depth_ne_zero (g : Grammar) (h : k.depth ≠ 0) : k.stop g =
    let followed := k.selections.map (·.stop g.types)
    let closed := ({ k with
      selections := (followed.map (·.1)).filter (·.depth != k.depth) } : Keys).closeSelections
        ((followed.map (·.1)).filter (·.depth == k.depth)).reverse
    (closed.1.leave, followed.flatMap (·.2) ++ closed.2) := by
  unfold Keys.stop
  rw [if_neg h]
  dsimp only
  rw [List.partition_eq_filter_filter]
  rfl

theorem places_leave : k.leave.places = k.places.filter (·.2 != k.depth) := by
  have hplaces : k.closeLedger.places.filter (·.2 != k.closeLedger.depth) =
      k.places.filter (·.2 != k.depth) := by rw [places_closeLedger, depth_closeLedger]
  rw [← hplaces]
  unfold leave places
  dsimp only
  rw [List.filter_map, List.filter_map, List.map_map]
  rfl

theorem WellFormed.leave (h : k.WellFormed g)
    (hs : ∀ s ∈ k.selections, s.depth ≠ k.depth) : k.leave.WellFormed g := by
  have hd : k.leave.depth = k.depth - 1 := congrArg (· - 1) depth_closeLedger
  have hmem {x : NumberedConstraint × Nat} (hx : x ∈ k.leave.places) :
      x ∈ k.places ∧ x.2 ≠ k.depth := by
    rw [places_leave, List.mem_filter, bne_iff_ne] at hx
    exact hx
  refine ⟨?_, fun x hx => h.isOf x (hmem hx).1, fun x hx => h.depth_pos x (hmem hx).1,
    fun x hx => ?_, ?_, fun s hmems => ?_, references_closeLedger h.references⟩
  · rw [hd, ← h.length_ledgers]
    exact length_ledgers_closeLedger
  · have hle := h.depth_le x (hmem hx).1
    have hne := (hmem hx).2
    omega
  · rw [places_leave]
    exact h.sorted.filter _
  · change s ∈ k.closeLedger.selections at hmems
    rw [selections_closeLedger] at hmems
    have hne := hs s hmems
    obtain ⟨hof, ⟨d, hds, hplace⟩, hle, hfields⟩ := h.selections s hmems
    refine ⟨hof, ⟨d, hds, ?_⟩, by omega, hfields⟩
    rw [places_leave]
    exact getElem?_filter_of_sorted h.sorted h.depth_le hplace (by omega)

theorem WellFormed.stop (h : k.WellFormed g) (hg : g.WellFormed) : (k.stop g).1.WellFormed g := by
  by_cases hdepth : k.depth = 0
  · unfold Keys.stop
    rw [if_pos hdepth]
    exact h
  · rw [stop_of_depth_ne_zero g hdepth]
    have hfollowed : ∀ s ∈ (k.selections.map (·.stop g.types)).map (·.1),
        s.WellFormed g k.places k.depth := by
      rw [List.map_map]
      exact List.forall_mem_map.mpr fun s hs => (h.selections s hs).advance _ _
    dsimp only
    generalize (k.selections.map (·.stop g.types)).map (·.1) = followed at hfollowed ⊢
    have hof : ∀ s ∈ (followed.filter (·.depth == k.depth)).reverse, s.of.IsOf g := fun s hs =>
      (hfollowed s (List.mem_of_mem_filter (List.mem_reverse.mp hs))).isOf
    have hopen : ({ k with selections := followed.filter (·.depth != k.depth) } :
        Keys).WellFormed g :=
      { h with selections := fun s hs => hfollowed s (List.mem_of_mem_filter hs) }
    have hkeeps := keeps_closeSelections
      (k := { k with selections := followed.filter (·.depth != k.depth) }) hg hof
    refine (hkeeps.wellFormed hopen).leave fun s hs => ?_
    rw [hkeeps.selections] at hs
    rw [hkeeps.depth]
    exact bne_iff_ne.mp (List.mem_filter.mp hs).2

theorem WellFormed.finish (h : k.WellFormed g) : (k.finish g).1.WellFormed g :=
  { h with references := fun _ hr => (nomatch hr) }

end Keys

/-! ## Keys with a pool -/

/-- What the keys refer to is there, and the matchers fit their uses. -/
structure PooledKeys.WellFormed (g : Grammar) (k : PooledKeys) : Prop where
  keys : k.keys.WellFormed g
  sound : k.Sound g

namespace PooledKeys

variable {k : PooledKeys}

theorem wellFormed_empty : ({} : PooledKeys).WellFormed g := ⟨Keys.wellFormed_empty, sound_empty⟩

theorem WellFormed.clear (h : k.WellFormed g) : k.clear.WellFormed g :=
  ⟨Keys.wellFormed_empty, h.sound.clear⟩

theorem WellFormed.start (h : k.WellFormed g) (element? : Option Nat) (e : TagEvent)
    (path : String) : (k.start g element? e path).1.WellFormed g := by
  have heq : (k.start g element? e path).1.keys = (k.keys.start g element? e path).1 :=
    congrArg Prod.fst (h.sound.start_eq element? e path).1
  refine ⟨?_, h.sound.start element? e path⟩
  rw [heq]
  exact h.keys.start element? e path

theorem WellFormed.characters (h : k.WellFormed g) (text : String) :
    (k.characters text).WellFormed g :=
  ⟨h.keys.characters text, h.sound.characters text⟩

theorem WellFormed.stop (h : k.WellFormed g) (hg : g.WellFormed) : (k.stop g).1.WellFormed g :=
  ⟨h.keys.stop hg, h.sound.stop⟩

theorem WellFormed.finish (h : k.WellFormed g) : (k.finish g).1.WellFormed g :=
  ⟨h.keys.finish, h.sound.finish⟩

end PooledKeys

end MarkupGrammar
