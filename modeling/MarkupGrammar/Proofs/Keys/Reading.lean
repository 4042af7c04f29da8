import MarkupGrammar.Proofs.Keys.Tags
import Mathlib.Data.List.Perm.Basic

/-! # Reading the content of elements

What happens to the state while the content of an element is read (`Keys.Reads`): the activations by
the open elements note what they select in it, and the elements in it leave behind what they have
recorded, and the references that they have not found. This is carried from a part of the content to
the next (`Reads.append`) and from the content of an element to the element (`Reads.element`). -/

namespace MarkupGrammar

variable {g : Grammar} {types : TypeTable} {k k' : Keys} {a : Activation} {tag : TagEvent}
  {chain : List Name} {l : DeclaredTag} {inner : Forest DeclaredTag}

/-! ## Parts of content -/

namespace Forest

variable {α : Type}

/-- Content followed by other content. -/
def append : Forest α → Forest α → Forest α
  | nil, rest => rest
  | piece s f, rest => piece s (f.append rest)
  | element l inner f, rest => element l inner (f.append rest)

theorem events_append (f f' : Forest α) : (f.append f').events = f.events ++ f'.events := by
  induction f with
  | nil => rfl
  | piece s rest ih => rw [append, events, ih, events, List.cons_append]
  | element l inner rest _ ih =>
    rw [append, events, ih, events, List.cons_append, List.append_assoc, List.cons_append]

theorem trees_append (f f' : Forest α) : (f.append f').trees = f.trees ++ f'.trees := by
  induction f with
  | nil => rfl
  | piece s rest ih => exact ih
  | element l inner rest _ ih =>
    rw [append, trees, ih, trees, List.cons_append, List.append_assoc]

theorem selected_append (e : PathExpression) (below : List Name) (f f' : Forest DeclaredTag) :
    (f.append f').selected e below = f.selected e below ++ f'.selected e below := by
  induction f with
  | nil => rfl
  | piece s rest ih => exact ih
  | element l inner rest _ ih =>
    rw [append, selected, ih, selected, List.append_assoc, List.append_assoc]

theorem activations_append (g : Grammar) (f f' : Forest DeclaredTag) :
    (f.append f').activations g = f.activations g ++ f'.activations g := by
  rw [activations, trees_append, List.flatMap_append]
  rfl

end Forest

theorem Activation.selectedIn_append (f f' : Forest DeclaredTag) :
    a.selectedIn chain (f.append f') = a.selectedIn chain f ++ a.selectedIn chain f' :=
  Forest.selected_append _ _ f f'

/-! ## Fields with several values -/

theorem Selection.kind_advance {s : Selection} {step : Matcher → Option Selected × Matcher}
    {v : Violation} (hv : v ∈ (s.advance types step).2) : v.kind = .fieldMultipleMatch := by
  simp only [advance, List.mem_flatMap, List.mem_map] at hv
  obtain ⟨_, ⟨x, -, rfl⟩, hv⟩ := hv
  unfold FieldWalk.recordSelected FieldWalk.record at hv
  split at hv
  · split at hv
    · exact absurd hv List.not_mem_nil
    · split at hv
      · exact absurd hv List.not_mem_nil
      · rw [List.mem_singleton.mp hv]
        rfl
  · exact absurd hv List.not_mem_nil

namespace Keys

/-- The violations apart from fields with several values. -/
def reported (vs : List Violation) : List Violation :=
  vs.filter fun v => v.kind ≠ .fieldMultipleMatch

@[simp] theorem reported_append (vs ws : List Violation) :
    reported (vs ++ ws) = reported vs ++ reported ws := List.filter_append _ _

theorem reported_eq_nil {vs : List Violation} (h : ∀ v ∈ vs, v.kind = .fieldMultipleMatch) :
    reported vs = [] := by
  refine List.filter_eq_nil_iff.mpr fun v hv => ?_
  rw [decide_eq_true_eq, not_not]
  exact h v hv

/-- Steps of selections report nothing else. -/
theorem reported_advance {α : Type} (selection : α → Selection) (xs : List α)
    (step : Matcher → Option Selected × Matcher) :
    reported ((xs.map fun x => (selection x).advance types step).flatMap (·.2)) = [] := by
  refine reported_eq_nil fun v hv => ?_
  obtain ⟨_, hs, hv⟩ := List.mem_flatMap.mp hv
  obtain ⟨x, -, rfl⟩ := List.mem_map.mp hs
  exact Selection.kind_advance hv

theorem reported_start (k : Keys) (element? : Option Nat) (tag : TagEvent) (path : String) :
    reported (k.start g element? tag path).2 = [] := by
  have hfollowed : reported ((k.selections.map (·.start g.types tag)).flatMap (·.2)) = [] :=
    reported_advance id _ _
  unfold start
  dsimp only
  rw [reported_append, hfollowed, List.nil_append]
  exact reported_advance _ _ _

theorem reported_verdict {c : Constraint} {tuples : List FieldTuple} {t : Tree DeclaredTag} :
    reported (c.verdict types tuples t) = c.verdict types tuples t := by
  refine List.filter_eq_self.mpr fun v hv => ?_
  rcases Constraint.kind_of_mem_verdict hv with hk | hk
  · rw [hk]
    rfl
  · rw [hk]
    rfl

/-! ## What is read -/

/-- Follows an event. -/
def step (g : Grammar) (k : Keys) : Forest.Event DeclaredTag → Keys × List Violation
  | .start l => k.start g l.element? l.tag l.path
  | .piece s => (k.characters s, [])
  | .stop _ => k.stop g

/-- Follows events; gives all that is reported. -/
def run (g : Grammar) (k : Keys) : List (Forest.Event DeclaredTag) → Keys × List Violation
  | [] => (k, [])
  | e :: es =>
    let (k, first) := k.step g e
    let (k, others) := k.run g es
    (k, first ++ others)

theorem run_append (k : Keys) (es es' : List (Forest.Event DeclaredTag)) :
    k.run g (es ++ es') = (((k.run g es).1.run g es').1,
      (k.run g es).2 ++ ((k.run g es).1.run g es').2) := by
  induction es generalizing k with
  | nil => rfl
  | cons e es ih =>
    rw [List.cons_append, run, run]
    dsimp only
    rw [ih, List.append_assoc]

end Keys

/-- The activation has recorded a tuple, under the number of its constraint. -/
def Activated.Records (types : TypeTable) (b : Activated) (x : Nat × FieldTuple) : Prop :=
  b.of.number = x.1 ∧ x.2 ∈ b.recorded types

namespace Keys

/-- What the ledgers of open elements hold of elements that have ended, after some content of the
innermost has been read. -/
def mergedAfter (g : Grammar) (depth : Nat) (f : Forest DeclaredTag)
    (merged : Nat → Nat × FieldTuple → Prop) (d : Nat) (x : Nat × FieldTuple) : Prop :=
  merged d x ∨ d = depth ∧ ∃ b ∈ f.activations g, b.Records g.types x

/-- Content of the last element of a chain has been read, and violations have been reported. -/
structure Reads (g : Grammar) (chain : List Name) (merged : Nat → Nat × FieldTuple → Prop)
    (f : Forest DeclaredTag) (k k' : Keys) (vs : List Violation) : Prop
    extends HasRead g.types chain f k k' where
  violations : (reported vs).Perm
    ((k.activations.flatMap fun a => a.verdicts g.types (a.selectedIn chain f)) ++
      (f.activations g).flatMap (·.verdicts g.types))
  waiting : k'.waiting.Perm (k.waiting ++
    k.activations.flatMap fun a => (a.selectedIn chain f).flatMap (a.references g.types))
  dangling : (k'.dangling.map (danglingViolation g)).Perm (k.dangling.map (danglingViolation g) ++
    (f.activations g).flatMap (·.unresolved g))
  ledgers : k'.LedgersHold (mergedAfter g chain.length f merged)

variable {merged : Nat → Nat × FieldTuple → Prop} {f f' : Forest DeclaredTag}
  {vs vs' : List Violation}

theorem Reads.at (h : k.At chain merged) (hr : Reads g chain merged f k k' vs) :
    k'.At chain (mergedAfter g chain.length f merged) := by
  refine ⟨hr.depth_eq.trans h.depth_eq, fun a ha => ?_, fun s hs => ?_, fun r hr' => ?_, hr.ledgers⟩
  · rw [hr.activations_eq] at ha
    obtain ⟨b, hb, rfl⟩ := List.mem_map.mp ha
    obtain ⟨hpos, hle, hsel, hm⟩ := h.activations b hb
    exact ⟨hpos, hle, hsel, hm⟩
  · rw [hr.selections_eq] at hs
    obtain ⟨s, hmem, rfl⟩ := List.mem_map.mp hs
    rw [Selection.depth_foldl_follow]
    exact h.selections s hmem
  · rcases List.mem_append.mp (hr.waiting.mem_iff.mp hr') with hr' | hr'
    · exact h.waiting r hr'
    · obtain ⟨a, ha, hr'⟩ := List.mem_flatMap.mp hr'
      obtain ⟨t, -, hr'⟩ := List.mem_flatMap.mp hr'
      rw [Activation.depth_of_mem_references hr']
      exact (h.activations a ha).le

/-! ### Parts -/

/-- Without elements only the selections go on. -/
theorem HasRead.reads (h : k.At chain merged) (hr : HasRead g.types chain f k k')
    (hsel : ∀ e below, f.selected e below = []) (htrees : f.trees = [])
    (hledgers : k'.ledgers = k.ledgers) (hwaiting : k'.waiting = k.waiting)
    (hdangling : k'.dangling = k.dangling) : Reads g chain merged f k k' [] := by
  have hnone : f.activations g = [] := by
    rw [Forest.activations, htrees, List.flatMap_nil]
  have hin (a : Activation) : a.selectedIn chain f = [] := hsel _ _
  have hactivations : k'.activations = k.activations := by
    refine hr.activations_eq.trans (List.map_id'' (fun a => ?_) _)
    rw [hin]
    rfl
  refine ⟨hr, ?_, ?_, ?_, ?_⟩
  · have hverdicts : (k.activations.flatMap fun a => a.verdicts g.types (a.selectedIn chain f)) =
        [] := by
      refine List.flatMap_eq_nil_iff.mpr fun a _ => ?_
      rw [hin]
      rfl
    rw [hverdicts, hnone]
    exact .nil
  · have hreferences : (k.activations.flatMap fun a =>
        (a.selectedIn chain f).flatMap (a.references g.types)) = [] := by
      refine List.flatMap_eq_nil_iff.mpr fun a _ => ?_
      rw [hin]
      rfl
    rw [hreferences, hwaiting, List.append_nil]
  · rw [hnone, hdangling, List.flatMap_nil, List.append_nil]
  · obtain ⟨hlen, hdepth, hmem⟩ := h.ledgers
    refine ⟨?_, ?_, fun d hd hdk x => ?_⟩
    · rw [hledgers, hr.depth_eq, hlen]
    · rw [hactivations, hr.depth_eq]
      exact hdepth
    · rw [hr.depth_eq] at hdk
      have hat : k'.ledgerAt d = k.ledgerAt d := by
        rw [ledgerAt, hledgers, hr.depth_eq, ledgerAt]
      rw [hat, hactivations, mergedAfter, hnone, hmem d hd hdk]
      simp

theorem Reads.nil (h : k.At chain merged) : Reads g chain merged .nil k k [] :=
  HasRead.reads h ⟨rfl, (List.map_id' _).symm, (List.map_id' _).symm⟩ (fun _ _ => rfl) rfl rfl rfl
    rfl

theorem Reads.piece (h : k.At chain merged) (s : String) :
    Reads g chain merged (.piece s .nil) k (k.characters s) [] :=
  HasRead.reads h ⟨rfl, (List.map_id' _).symm, rfl⟩ (fun _ _ => rfl) rfl rfl rfl rfl

/-! ### One part after the other -/

theorem perm_append_append {α : Type} (a b c d : List α) :
    (a ++ b ++ (c ++ d)).Perm (a ++ c ++ (b ++ d)) := by
  rw [List.append_assoc, List.append_assoc]
  exact (List.perm_append_comm_assoc b c d).append_left a

theorem HasRead.append {k₁ k₂ : Keys} (h : HasRead types chain f k k₁)
    (h' : HasRead types chain f' k₁ k₂) : HasRead types chain (f.append f') k k₂ := by
  refine ⟨h'.depth_eq.trans h.depth_eq, ?_, ?_⟩
  · rw [h'.activations_eq, h.activations_eq, List.map_map]
    refine List.map_congr_left fun a _ => ?_
    rw [Activation.selectedIn_append, Activation.note_append]
    rfl
  · rw [h'.selections_eq, h.selections_eq, List.map_map]
    refine List.map_congr_left fun s _ => ?_
    rw [Forest.events_append, List.foldl_append]
    rfl

theorem Reads.append {k₁ k₂ : Keys} (h : Reads g chain merged f k k₁ vs)
    (h' : Reads g chain (mergedAfter g chain.length f merged) f' k₁ k₂ vs') :
    Reads g chain merged (f.append f') k k₂ (vs ++ vs') := by
  refine ⟨h.toHasRead.append h'.toHasRead, ?_, ?_, ?_, ?_⟩
  · have hv := h'.violations
    rw [h.activations_eq, List.flatMap_map] at hv
    rw [reported_append, Forest.activations_append, List.flatMap_append]
    refine (h.violations.append hv).trans ((perm_append_append _ _ _ _).trans ?_)
    refine .append_right _ ((List.flatMap_append_perm _ _ _).trans (.of_eq ?_))
    refine congrArg (List.flatMap · k.activations) (funext fun a => ?_)
    rw [Activation.selectedIn_append, Activation.verdicts_append]
    rfl
  · have hw := h'.waiting
    rw [h.activations_eq, List.flatMap_map] at hw
    refine hw.trans ((h.waiting.append_right _).trans ?_)
    rw [List.append_assoc]
    refine .append_left _ ((List.flatMap_append_perm _ _ _).trans (.of_eq ?_))
    refine congrArg (List.flatMap · k.activations) (funext fun a => ?_)
    rw [Activation.selectedIn_append, List.flatMap_append]
    rfl
  · rw [Forest.activations_append, List.flatMap_append, ← List.append_assoc]
    exact h'.dangling.trans (h.dangling.append_right _)
  · obtain ⟨hlen, hdepth, hmem⟩ := h'.ledgers
    refine ⟨hlen, hdepth, fun d hd hdk x => (hmem d hd hdk x).trans (or_congr_right ?_)⟩
    simp only [mergedAfter, Forest.activations_append, List.mem_append, or_and_right, exists_or,
      and_or_left, or_assoc]

end Keys

end MarkupGrammar
