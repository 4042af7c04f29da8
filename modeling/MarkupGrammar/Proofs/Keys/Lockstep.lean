import MarkupGrammar.Proofs.Keys.WellFormed
import Mathlib.Data.List.DropRight

/-! # Keys in step

The ledgers, activations, selections and waiting references of keys are stacks that grow and shrink
at different moments of an event. At the end of each event they agree with the number of open
elements: there is a ledger for each, activations and selections are by open elements and in their
order, and each matcher has followed the elements from the one that it began at (`Keys.InStep`).
That holds in every state of keys with a pool, however many end tags there are
(`PooledKeys.run_inStep`). So an end tag takes what it closes from the ends of the stacks, and no
complete tuple is lost for want of its activation or its ledger. -/

namespace MarkupGrammar

variable {g : Grammar} {k k' : Keys} {s : Selection} {a : Activation} {depth : Nat}
  {activations : List Activation}

/-! ## Matchers -/

namespace Matcher

theorem depth_start (m : Matcher) (e : TagEvent) : (m.start e).2.depth = m.depth + 1 := rfl

theorem depth_characters (m : Matcher) (text : String) : (m.characters text).depth = m.depth :=
  List.length_map _

theorem depth_stop (m : Matcher) : m.stop.2.depth = m.depth - 1 := by
  unfold stop depth
  cases m.frames <;> rfl

end Matcher

theorem Selection.depth_advance (s : Selection) (types : TypeTable)
    (step : Matcher → Option Selected × Matcher) : (s.advance types step).1.depth = s.depth := by
  rw [advance_fst]

/-- The depths of the matchers of a selection after a step. -/
theorem Selection.depth_matchers_advance (types : TypeTable)
    (step : Matcher → Option Selected × Matcher) {m n : Nat}
    (h : ∀ f ∈ s.fields, f.matcher.depth = m)
    (hstep : ∀ w : Matcher, w.depth = m → (step w).2.depth = n) :
    ∀ f ∈ (s.advance types step).1.fields, f.matcher.depth = n := by
  rw [advance_fst]
  exact List.forall_mem_map.mpr fun f hf => hstep _ (h f hf)

theorem Selection.depth_matchers_start (types : TypeTable) (e : TagEvent) {n : Nat}
    (h : ∀ f ∈ s.fields, f.matcher.depth = n) :
    ∀ f ∈ (s.start types e).1.fields, f.matcher.depth = n + 1 :=
  depth_matchers_advance types _ h fun w hw => (w.depth_start e).trans (congrArg (· + 1) hw)

theorem Selection.depth_matchers_stop (types : TypeTable) {n : Nat}
    (h : ∀ f ∈ s.fields, f.matcher.depth = n + 1) :
    ∀ f ∈ (s.stop types).1.fields, f.matcher.depth = n :=
  depth_matchers_advance types _ h fun w hw => w.depth_stop.trans (congrArg (· - 1) hw)

/-! ## States in step -/

/-- The activation is by an open element, and its selector has followed the elements since. -/
structure Activation.InStep (depth : Nat) (a : Activation) : Prop where
  depth_pos : 0 < a.depth
  depth_le : a.depth ≤ depth
  matcher : a.matcher.depth = depth - a.depth + 1

theorem Activation.inStep_bare : a.bare.InStep depth ↔ a.InStep depth :=
  ⟨fun h => ⟨h.depth_pos, h.depth_le, h.matcher⟩, fun h => ⟨h.depth_pos, h.depth_le, h.matcher⟩⟩

/-- The activation of the selection is there. -/
def Selection.Linked (activations : List Activation) (s : Selection) : Prop :=
  ∃ a, activations[s.activation]? = some a ∧ a.of = s.of ∧ a.depth ≤ s.depth

/-- The selection is of an open element by an activation that is there, and its fields have followed
the elements since. -/
structure Selection.InStep (depth : Nat) (activations : List Activation) (s : Selection) :
    Prop where
  depth_pos : 0 < s.depth
  depth_le : s.depth ≤ depth
  matchers : ∀ f ∈ s.fields, f.matcher.depth = depth - s.depth + 1
  linked : s.Linked activations

/-- A step of the fields leaves the rest of a selection as it is. -/
theorem Selection.inStep_advance (types : TypeTable)
    (step : Matcher → Option Selected × Matcher) (hpos : 0 < s.depth) (hle : s.depth ≤ depth)
    (hmatchers : ∀ f ∈ (s.advance types step).1.fields, f.matcher.depth = depth - s.depth + 1)
    (hlinked : s.Linked activations) : (s.advance types step).1.InStep depth activations := by
  rw [advance_fst] at hmatchers ⊢
  exact ⟨hpos, hle, hmatchers, hlinked⟩

/-- The stacks agree with the number of open elements. -/
structure Keys.InStep (k : Keys) : Prop where
  length_ledgers : k.ledgers.length = k.depth
  activations : ∀ a ∈ k.activations, a.InStep k.depth
  activations_sorted : k.activations.Pairwise (·.depth ≤ ·.depth)
  selections : ∀ s ∈ k.selections, s.InStep k.depth k.activations
  selections_sorted : k.selections.Pairwise (·.depth ≤ ·.depth)
  waiting : ∀ r ∈ k.waiting, r.depth ≤ k.depth

namespace Keys

theorem inStep_empty : ({} : Keys).InStep where
  length_ledgers := rfl
  activations _ h := nomatch h
  activations_sorted := .nil
  selections _ h := nomatch h
  selections_sorted := .nil
  waiting _ h := nomatch h

/-! ## Start tags and text -/

theorem activations_start (element? : Option Nat) (e : TagEvent) (path : String) :
    (k.start g element? e path).1.activations =
      (k.activations ++ activationsOf g element? (k.depth + 1)).map
        fun a => { a with matcher := (a.matcher.start e).2 } :=
  List.map_map

/-- The selections that begin with an element are behind the others. -/
theorem exists_selections_start (element? : Option Nat) (e : TagEvent) (path : String) :
    ∃ begun, (k.start g element? e path).1.selections =
        k.selections.map (fun s => (s.start g.types e).1) ++ begun ∧
      ∀ s ∈ begun, ∃ a place, (k.start g element? e path).1.activations[place]? = some a ∧
        s = ((select a place (k.depth + 1) path).start g.types e).1 := by
  refine ⟨_, congrArg (· ++ _) List.map_map, fun s hs => ?_⟩
  obtain ⟨y, hy, rfl⟩ := List.mem_map.mp hs
  obtain ⟨x, hx, rfl⟩ := List.mem_map.mp hy
  have hat := List.mem_zipIdx_iff_getElem?.mp (List.mem_of_mem_filter hx)
  exact ⟨x.1.2, x.2, List.getElem?_map.trans (congrArg (Option.map _) hat), rfl⟩

theorem InStep.start (h : k.InStep) (element? : Option Nat) (e : TagEvent) (path : String) :
    (k.start g element? e path).1.InStep := by
  have hactivations := activations_start (g := g) (k := k) element? e path
  have hnew {a : Activation} (ha : a ∈ activationsOf g element? (k.depth + 1)) :
      a.depth = k.depth + 1 ∧ a.matcher.depth = 0 :=
    ⟨depth_of_mem_activationsOf ha, congrArg Matcher.depth (of_mem_activationsOf ha).2⟩
  have hsteps : ∀ a ∈ (k.start g element? e path).1.activations, a.InStep (k.depth + 1) := by
    rw [hactivations]
    refine List.forall_mem_map.mpr fun a ha => ?_
    rcases List.mem_append.mp ha with ha | ha
    · obtain ⟨hpos, hle, hmatcher⟩ := h.activations a ha
      have hstart := Matcher.depth_start a.matcher e
      exact ⟨hpos, hle.trans (Nat.le_succ _), by dsimp only; omega⟩
    · obtain ⟨hdepth, hmatcher⟩ := hnew ha
      have hstart := Matcher.depth_start a.matcher e
      exact ⟨by dsimp only; omega, hdepth.le, by dsimp only; omega⟩
  obtain ⟨begun, hselections, hbegun⟩ :=
    exists_selections_start (g := g) (k := k) element? e path
  refine ⟨congrArg (· + 1) h.length_ledgers, hsteps, ?_, fun s hs => ?_, ?_,
    fun r hr => (h.waiting r hr).trans (Nat.le_succ _)⟩
  · rw [hactivations]
    refine List.pairwise_map.mpr (List.pairwise_append.mpr ⟨h.activations_sorted, ?_, ?_⟩)
    · exact List.pairwise_of_forall_mem_list fun a ha b hb =>
        ((hnew ha).1.trans (hnew hb).1.symm).le
    · intro a ha b hb
      exact ((h.activations a ha).depth_le.trans (Nat.le_succ _)).trans (hnew hb).1.ge
  · change s.InStep (k.depth + 1) _
    rw [hselections] at hs
    rcases List.mem_append.mp hs with hs | hs
    · obtain ⟨t, ht, rfl⟩ := List.mem_map.mp hs
      obtain ⟨hpos, hle, hmatchers, a, ha, hof, hdepth⟩ := h.selections t ht
      have hstart := Selection.depth_matchers_start g.types e hmatchers
      rw [← Nat.sub_add_comm hle] at hstart
      have hat : (k.start g element? e path).1.activations[t.activation]? =
          some { a with matcher := (a.matcher.start e).2 } := by
        rw [hactivations, List.getElem?_map,
          List.getElem?_append_left (List.getElem?_eq_some_iff.mp ha).1, ha]
        rfl
      exact Selection.inStep_advance g.types _ hpos (hle.trans (Nat.le_succ _)) hstart
        ⟨_, hat, hof, hdepth⟩
    · obtain ⟨a, place, ha, rfl⟩ := hbegun s hs
      have hdepth := (hsteps a (List.mem_of_getElem? ha)).depth_le
      have hselect : ∀ f ∈ (select a place (k.depth + 1) path).fields, f.matcher.depth = 0 :=
        List.forall_mem_map.mpr fun _ _ => rfl
      have hstart := Selection.depth_matchers_start g.types e hselect
      rw [← Nat.sub_self (k.depth + 1)] at hstart
      exact Selection.inStep_advance g.types _ (Nat.succ_pos _) le_rfl hstart ⟨a, ha, rfl, hdepth⟩
  · rw [hselections]
    have hof (s : Selection) : (s.start g.types e).1.depth = s.depth := s.depth_advance g.types _
    have hdepth {s : Selection} (hs : s ∈ begun) : s.depth = k.depth + 1 := by
      obtain ⟨a, place, -, rfl⟩ := hbegun s hs
      exact hof _
    refine List.pairwise_append.mpr ⟨List.pairwise_map.mpr ?_, ?_, ?_⟩
    · simp only [hof]
      exact h.selections_sorted
    · exact List.pairwise_of_forall_mem_list fun s hs t ht =>
        ((hdepth hs).trans (hdepth ht).symm).le
    · refine List.forall_mem_map.mpr fun s hs t ht => ?_
      rw [hof, hdepth ht]
      exact (h.selections s hs).depth_le.trans (Nat.le_succ _)

theorem InStep.characters (h : k.InStep) (text : String) : (k.characters text).InStep where
  length_ledgers := h.length_ledgers
  activations := h.activations
  activations_sorted := h.activations_sorted
  selections := List.forall_mem_map.mpr fun s hs => by
    obtain ⟨hpos, hle, hmatchers, hlinked⟩ := h.selections s hs
    refine ⟨hpos, hle, List.forall_mem_map.mpr fun f hf => ?_, hlinked⟩
    rw [Matcher.depth_characters]
    exact hmatchers f hf
  selections_sorted := List.pairwise_map.mpr h.selections_sorted
  waiting := h.waiting

/-! ## End tags -/

/-- The selections after they have followed an end tag. -/
def followed (g : Grammar) (k : Keys) : List Selection :=
  k.selections.map fun s => (s.stop g.types).1

theorem depth_selection_stop (s : Selection) : (s.stop g.types).1.depth = s.depth :=
  s.depth_advance _ _

theorem InStep.followed_sorted (h : k.InStep) : (k.followed g).Pairwise (·.depth ≤ ·.depth) := by
  refine List.pairwise_map.mpr ?_
  simp only [depth_selection_stop]
  exact h.selections_sorted

/-- The keys when the first selection is closed at an end tag. -/
def closingState (g : Grammar) (k : Keys) : Keys :=
  { k with selections := (k.followed g).filter (·.depth != k.depth) }

theorem stop_eq_leave (h : k.depth ≠ 0) : (k.stop g).1 =
    ((k.closingState g).closeSelections (PooledKeys.closing g k)).1.leave := by
  rw [stop_of_depth_ne_zero g h]
  dsimp only
  rw [List.map_map]
  rfl

theorem waiting_closeLedger (h : k.ledgers ≠ []) :
    k.closeLedger.waiting = k.waiting.filter (·.depth != k.depth) := by
  obtain ⟨ledger, outer, hl⟩ := List.exists_cons_of_ne_nil h
  unfold closeLedger
  rw [hl]
  dsimp only
  rw [List.partition_eq_filter_filter]
  rfl

theorem activations_leave : k.leave.activations =
    (k.activations.filter (·.depth != k.depth)).map fun a =>
      { a with matcher := a.matcher.stop.2 } := by
  have hsame : k.closeLedger.activations = k.activations := by
    unfold closeLedger
    split <;> rfl
  unfold leave
  dsimp only
  rw [hsame, depth_closeLedger, List.filter_map]
  rfl

theorem InStep.leave (h : k.InStep) (hsame : SameStacks (k.closingState g) k')
    (hdepth : k.depth ≠ 0) : k'.leave.InStep := by
  have hk' : k'.depth = k.depth := hsame.depth
  have hleave : k'.leave.depth = k.depth - 1 := by
    rw [← hk']
    exact congrArg (· - 1) depth_closeLedger
  have hbare : k'.activations.map Activation.bare = k.activations.map Activation.bare :=
    hsame.activations
  have hactivations : ∀ a ∈ k'.activations, a.InStep k.depth := by
    have hall : ∀ a ∈ k.activations.map Activation.bare, a.InStep k.depth :=
      List.forall_mem_map.mpr fun a ha => Activation.inStep_bare.mpr (h.activations a ha)
    rw [← hbare] at hall
    exact fun a ha => Activation.inStep_bare.mp (hall _ (List.mem_map_of_mem ha))
  have hsorted : k'.activations.Pairwise (·.depth ≤ ·.depth) := by
    have hall : (k.activations.map Activation.bare).Pairwise (·.depth ≤ ·.depth) :=
      List.pairwise_map.mpr h.activations_sorted
    rw [← hbare, List.pairwise_map] at hall
    exact hall
  have hle : ∀ a ∈ k'.activations, a.depth ≤ k'.depth := fun a ha =>
    hk' ▸ (hactivations a ha).depth_le
  have hselections : k'.leave.selections = (k.followed g).filter (·.depth != k.depth) :=
    (selections_closeLedger).trans hsame.selections
  refine ⟨?_, ?_, ?_, ?_, ?_, ?_⟩
  · rw [hleave, ← h.length_ledgers]
    exact length_ledgers_closeLedger.trans (congrArg (· - 1) hsame.length_ledgers)
  · rw [activations_leave, hleave]
    refine List.forall_mem_map.mpr fun a ha => ?_
    obtain ⟨ha, hne⟩ := List.mem_filter.mp ha
    obtain ⟨hpos, hle, hmatcher⟩ := hactivations a ha
    rw [bne_iff_ne, hk'] at hne
    have hstop := a.matcher.depth_stop
    exact ⟨hpos, by dsimp only; omega, by dsimp only; omega⟩
  · rw [activations_leave]
    exact List.pairwise_map.mpr (hsorted.filter _)
  · rw [hselections, hleave]
    intro s hs
    obtain ⟨hs, hne⟩ := List.mem_filter.mp hs
    obtain ⟨t, ht, rfl⟩ := List.mem_map.mp hs
    obtain ⟨hpos, hle', hmatchers, a, ha, hof, had⟩ := h.selections t ht
    rw [depth_selection_stop, bne_iff_ne] at hne
    have hstop := Selection.depth_matchers_stop g.types hmatchers
    rw [show k.depth - t.depth = k.depth - 1 - t.depth + 1 by omega] at hstop
    obtain ⟨a', ha', hab⟩ := hsame.getElem?_activations ha
    have hof' : a'.bare.of = a.bare.of := congrArg Activation.of hab
    have had' : a'.bare.depth = a.bare.depth := congrArg Activation.depth hab
    change a'.of = a.of at hof'
    change a'.depth = a.depth at had'
    have hat := getElem?_filter_of_sorted hsorted hle ha' (by omega)
    refine Selection.inStep_advance g.types _ hpos (by omega) hstop
      ⟨{ a' with matcher := a'.matcher.stop.2 }, ?_, hof'.trans hof, had'.trans_le had⟩
    rw [activations_leave, List.getElem?_map, hat]
    rfl
  · rw [hselections]
    exact h.followed_sorted.filter _
  · have hledgers : k'.ledgers ≠ [] := by
      rw [← List.length_pos_iff_ne_nil, hsame.length_ledgers]
      exact h.length_ledgers ▸ Nat.pos_of_ne_zero hdepth
    intro r hr
    rw [hleave]
    obtain ⟨hr, hne⟩ := List.mem_filter.mp (waiting_closeLedger hledgers ▸ hr)
    rw [bne_iff_ne, hk'] at hne
    have hle : r.depth ≤ k.depth := by
      rcases hsame.waiting r hr with hr | ⟨a, ha, hra⟩
      · exact h.waiting r hr
      · exact hra ▸ (h.activations a ha).depth_le
    omega

theorem InStep.stop (h : k.InStep) : (k.stop g).1.InStep := by
  by_cases hdepth : k.depth = 0
  · unfold Keys.stop
    rwa [if_pos hdepth]
  · rw [stop_eq_leave hdepth]
    exact h.leave (sameStacks_closeSelections _ _) hdepth

theorem InStep.finish (h : k.InStep) (g : Grammar) : (k.finish g).1.InStep :=
  { h with waiting := fun _ hr => (nomatch hr) }

/-! ### What is closed -/

/-- What has the depth `n` is at the end of the stack, where it is taken from. -/
def AtEnd {α : Type} (depth : α → Nat) (n : Nat) (l : List α) : Prop :=
  l.rtakeWhile (depth · == n) = l.filter (depth · == n) ∧
    l.rdropWhile (depth · == n) = l.filter (depth · != n)

theorem atEnd_of_sorted {α : Type} {f : α → Nat} {n : Nat} {l : List α}
    (hs : l.Pairwise (f · ≤ f ·)) (hle : ∀ x ∈ l, f x ≤ n) : AtEnd f n l := by
  have hsplit := congrArg List.reverse (filter_append_filter_of_sorted hs hle)
  rw [List.reverse_append] at hsplit
  have hdeepest : ∀ x ∈ (l.filter (f · == n)).reverse, (f x == n) = true := fun x hx =>
    (List.mem_filter.mp (List.mem_reverse.mp hx)).2
  have hothers : ∀ x ∈ (l.filter (f · != n)).reverse, ¬ (f x == n) = true := fun x hx => by
    simpa using (List.mem_filter.mp (List.mem_reverse.mp hx)).2
  constructor
  · rw [List.rtakeWhile, ← hsplit, List.takeWhile_append_of_pos hdeepest,
      List.takeWhile_eq_nil_iff.mpr fun _ => hothers _ (List.get_mem _ _),
      List.append_nil, List.reverse_reverse]
  · rw [List.rdropWhile, ← hsplit, List.dropWhile_append_of_pos hdeepest,
      List.dropWhile_eq_self_iff.mpr fun _ => hothers _ (List.getElem_mem _),
      List.reverse_reverse]

/-- Selections that are closed in order, each with the keys when it is closed. -/
def closings (k : Keys) : List Selection → List (Keys × Selection)
  | [] => []
  | s :: rest => (k, s) :: (k.closeSelection s).1.closings rest

theorem sameStacks_of_mem_closings {ss : List Selection} {x : Keys × Selection}
    (h : x ∈ k.closings ss) : SameStacks k x.1 ∧ x.2 ∈ ss := by
  induction ss generalizing k with
  | nil => exact nomatch h
  | cons s ss ih =>
    rcases List.mem_cons.mp h with rfl | h
    · exact ⟨sameStacks_refl k, List.mem_cons_self⟩
    · obtain ⟨hsame, hmem⟩ := ih h
      exact ⟨(sameStacks_closeSelection k s).trans hsame, List.mem_cons_of_mem s hmem⟩

/-- What has become of the complete tuple of a selection by an activation, after it was closed. A
reference waits. Any other tuple has been reported if the activation had it before; otherwise it is
with the activation and in the ledger of the activating element. -/
def Settled (s : Selection) (a : Activation) (k : Keys) (reported : List Violation) : Prop :=
  let c := s.of.constraint
  match c.kind, c.refer? with
  | .keyref, some refer => ⟨s.of, refer, a.depth, s.tuple, s.path⟩ ∈ k.waiting
  | .keyref, none => True
  | _, _ =>
    if a.tuples.contains s.tuple then
      reported = [⟨.duplicateKey s.tuple c.kind c.name, some c.name,
        some (Violation.tupleText s.tuple), some s.path⟩]
    else
      k.activations[s.activation]? = some { a with tuples := s.tuple :: a.tuples } ∧
        ∃ ledger, k.ledgers[k.depth - a.depth]? = some ledger ∧ (s.of.number, s.tuple) ∈ ledger

theorem settled_enter (ha : k.activations[s.activation]? = some a) (hof : a.of = s.of)
    (hledger : k.depth - a.depth < k.ledgers.length) (v : Violation) :
    let r := if a.tuples.contains s.tuple then (k, [v]) else (k.enter a s.activation s.tuple, [])
    if a.tuples.contains s.tuple then r.2 = [v]
    else
      r.1.activations[s.activation]? = some { a with tuples := s.tuple :: a.tuples } ∧
        ∃ ledger, r.1.ledgers[r.1.depth - a.depth]? = some ledger ∧
          (s.of.number, s.tuple) ∈ ledger := by
  dsimp only
  split
  · rfl
  · refine ⟨List.getElem?_set_self (List.getElem?_eq_some_iff.mp ha).1,
      (s.of.number, s.tuple) :: k.ledgers[k.depth - a.depth], ?_, List.mem_cons_self⟩
    unfold enter
    rw [List.getElem?_modify_eq, List.getElem?_eq_getElem hledger, hof]
    rfl

theorem settled_closeSelection (ha : k.activations[s.activation]? = some a) (hof : a.of = s.of)
    (hledger : k.depth - a.depth < k.ledgers.length) (hmissing : s.missing = []) :
    Settled s a (k.closeSelection s).1 (k.closeSelection s).2 := by
  have hclose : k.closeSelection s = k.closeComplete s := by
    unfold closeSelection
    rw [hmissing]
    rfl
  rw [hclose]
  unfold closeComplete Settled
  rw [ha]
  dsimp only
  cases s.of.constraint.kind with
  | unique | key => exact settled_enter ha hof hledger _
  | keyref =>
    cases s.of.constraint.refer? with
    | some refer => exact List.mem_append_right _ List.mem_cons_self
    | none => trivial

/-- **A selection that is closed finds its activation and the ledger of its element**, whatever was
closed before, so that a complete tuple is not lost. -/
theorem InStep.closings (h : k.InStep) {x : Keys × Selection}
    (hx : x ∈ (k.closingState g).closings (PooledKeys.closing g k)) :
    ∃ a, x.1.activations[x.2.activation]? = some a ∧ a.of = x.2.of ∧
      a.InStep x.1.depth ∧ x.1.ledgers.length = x.1.depth ∧
      (x.2.missing = [] →
        Settled x.2 a (x.1.closeSelection x.2).1 (x.1.closeSelection x.2).2) := by
  obtain ⟨hsame, hmem⟩ := sameStacks_of_mem_closings hx
  have hdepth : x.1.depth = k.depth := hsame.depth
  have hledgers : x.1.ledgers.length = k.ledgers.length := hsame.length_ledgers
  obtain ⟨t, ht, hstop⟩ := List.mem_map.mp (List.mem_of_mem_filter (List.mem_reverse.mp hmem))
  have hlinked : x.2.Linked k.activations := by
    have hlinked := (h.selections t ht).linked
    rw [← hstop]
    unfold Selection.stop
    rw [Selection.advance_fst]
    exact hlinked
  obtain ⟨b, hb, hof, -⟩ := hlinked
  obtain ⟨a, ha, hbare⟩ := hsame.getElem?_activations hb
  have hstep : a.InStep k.depth := by
    rw [← Activation.inStep_bare, hbare, Activation.inStep_bare]
    exact h.activations b (List.mem_of_getElem? hb)
  have hofa : a.bare.of = b.bare.of := congrArg Activation.of hbare
  refine ⟨a, ha, Eq.trans hofa hof, hdepth ▸ hstep, by rw [hledgers, hdepth, h.length_ledgers],
    settled_closeSelection ha (Eq.trans hofa hof) ?_⟩
  have hpos := hstep.depth_pos
  have hle := hstep.depth_le
  rw [hledgers, h.length_ledgers, hdepth]
  omega

end Keys

/-! ## Calls -/

namespace PooledKeys

/-- A call of keys with a pool. -/
inductive Call where
  | start (element? : Option Nat) (e : TagEvent) (path : String)
  | characters (text : String)
  | stop
  | finish
  | clear

/-- Answers a call with the reports that it brings. -/
def call (g : Grammar) (k : PooledKeys) : Call → PooledKeys × List Violation
  | .start element? e path => k.start g element? e path
  | .characters text => (k.characters text, [])
  | .stop => k.stop g
  | .finish => k.finish g
  | .clear => (k.clear, [])

/-- The state after some calls. -/
def run (g : Grammar) (k : PooledKeys) (calls : List Call) : PooledKeys :=
  calls.foldl (fun k c => (k.call g c).1) k

/-- The keys are in step and the matchers fit, also those in the pool. -/
structure InStep (g : Grammar) (k : PooledKeys) : Prop where
  keys : k.keys.InStep
  sound : k.Sound g

variable {k : PooledKeys}

theorem InStep.call (h : k.InStep g) (c : Call) : (k.call g c).1.InStep g := by
  cases c with
  | start element? e path =>
    have hkeys : (k.start g element? e path).1.keys = (k.keys.start g element? e path).1 :=
      congrArg Prod.fst (h.sound.start_eq element? e path).1
    refine ⟨?_, h.sound.start element? e path⟩
    change (k.start g element? e path).1.keys.InStep
    rw [hkeys]
    exact h.keys.start element? e path
  | characters text => exact ⟨h.keys.characters text, h.sound.characters text⟩
  | stop => exact ⟨h.keys.stop, h.sound.stop⟩
  | finish => exact ⟨h.keys.finish g, h.sound.finish⟩
  | clear => exact ⟨Keys.inStep_empty, h.sound.clear⟩

theorem InStep.run (h : k.InStep g) (calls : List Call) : (k.run g calls).InStep g := by
  induction calls generalizing k with
  | nil => exact h
  | cons c calls ih => exact ih (h.call c)

/-- **Keys stay in step**, whatever calls are made. What ends with the innermost element is then at
the end of its stack, and when a selection is closed its activation and the ledger of the activating
element are there, so that a complete tuple waits, is reported or is recorded. -/
theorem run_inStep (g : Grammar) (calls : List Call) :
    let k := (run g {} calls).keys
    k.InStep ∧
      Keys.AtEnd Activation.depth k.depth k.activations ∧
      Keys.AtEnd Selection.depth k.depth k.selections ∧
      ∀ x ∈ (k.closingState g).closings (closing g k),
        ∃ a, x.1.activations[x.2.activation]? = some a ∧ a.of = x.2.of ∧
          a.InStep x.1.depth ∧ x.1.ledgers.length = x.1.depth ∧
          (x.2.missing = [] →
            Keys.Settled x.2 a (x.1.closeSelection x.2).1 (x.1.closeSelection x.2).2) := by
  have hempty : ({} : PooledKeys).InStep g := ⟨Keys.inStep_empty, sound_empty⟩
  have h := (hempty.run calls).keys
  exact ⟨h, Keys.atEnd_of_sorted h.activations_sorted fun a ha => (h.activations a ha).depth_le,
    Keys.atEnd_of_sorted h.selections_sorted fun s hs => (h.selections s hs).depth_le,
    fun _ => h.closings⟩

end PooledKeys

end MarkupGrammar
