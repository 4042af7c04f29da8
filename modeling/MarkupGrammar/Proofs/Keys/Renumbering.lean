import MarkupGrammar.Proofs.Grammar.Renumbering
import MarkupGrammar.Proofs.Keys.WellFormed

/-! # Keys in grammars with other numbers

Activations, selections, references and the entries of ledgers carry the numbers of their
constraints. In a renumbered grammar renumbered keys report the same at every event and stay
renumbered (`Keys.start_renumber`, `Keys.stop_renumber`, `Keys.finish_renumber`): reports give the
names of constraints, and different constraints keep different numbers, so the same tuples are found
in a ledger. -/

namespace MarkupGrammar

variable {σ ρ : Nat → Nat} {g g' : Grammar} {k : Keys} {s : Selection}

/-- The constraint with its numbers changed. -/
def NumberedConstraint.renumber (σ ρ : Nat → Nat) (c : NumberedConstraint) : NumberedConstraint :=
  ⟨ρ c.number, c.constraint.renumber σ ρ⟩

/-- The selection with the numbers of its constraint changed. -/
def Selection.renumber (σ ρ : Nat → Nat) (s : Selection) : Selection :=
  { s with of := s.of.renumber σ ρ }

/-- The activation with the numbers of its constraint changed. -/
def Activation.renumber (σ ρ : Nat → Nat) (a : Activation) : Activation :=
  { a with of := a.of.renumber σ ρ }

/-- The reference with the numbers of its constraints changed. -/
def OpenReference.renumber (σ ρ : Nat → Nat) (r : OpenReference) : OpenReference :=
  { r with of := r.of.renumber σ ρ, refer := ρ r.refer }

/-- The ledger with the numbers of constraints changed. -/
def Ledger.renumber (ρ : Nat → Nat) (l : Ledger) : Ledger := l.map fun x => (ρ x.1, x.2)

theorem Ledger.contains_renumber (hρ : Function.Injective ρ) (l : Ledger) (number : Nat)
    (tuple : FieldTuple) :
    (l.renumber ρ).contains (ρ number, tuple) = l.contains (number, tuple) := by
  have hnumber (n : Nat) : (ρ number == ρ n) = (number == n) :=
    Bool.eq_iff_iff.mpr (by simp [hρ.eq_iff])
  unfold renumber
  rw [List.contains_eq_any_beq, List.contains_eq_any_beq, List.any_map]
  refine congrArg l.any (funext fun x => ?_)
  exact congrArg (· && tuple == x.2) (hnumber x.1)

namespace Keys

/-- The keys with the numbers of constraints and of their elements changed. -/
def renumber (σ ρ : Nat → Nat) (k : Keys) : Keys :=
  { k with
    activations := k.activations.map (·.renumber σ ρ)
    selections := k.selections.map (·.renumber σ ρ)
    ledgers := k.ledgers.map (·.renumber ρ)
    waiting := k.waiting.map (·.renumber σ ρ)
    dangling := k.dangling.map (·.renumber σ ρ) }

/-! ## Start tags -/

theorem activationsOf_renumber (h : g.Renumbered σ ρ g') (element? : Option Nat) (depth : Nat) :
    activationsOf g' (element?.map σ) depth =
      (activationsOf g element? depth).map (·.renumber σ ρ) := by
  unfold activationsOf
  cases element? with
  | none => rfl
  | some i =>
    have hrel := h.element i
    rw [Option.map_some, Option.bind_some, Option.bind_some]
    generalize g.elements[i]? = d?, g'.elements[σ i]? = d'? at hrel ⊢
    cases hrel with
    | none => rfl
    | some hd =>
      dsimp only
      rw [hd.constraints, List.filterMap_map, List.map_filterMap]
      refine List.filterMap_congr fun number _ => ?_
      rw [Function.comp_apply, h.constraint, Option.map_map, Option.map_map]
      rfl

/-- **A start tag** reports the same in a renumbered grammar. -/
theorem start_renumber (h : g.Renumbered σ ρ g') (k : Keys) (element? : Option Nat) (e : TagEvent)
    (path : String) : (k.renumber σ ρ).start g' (element?.map σ) e path =
      ((k.start g element? e path).1.renumber σ ρ, (k.start g element? e path).2) := by
  have hfollowed : (k.selections.map (·.renumber σ ρ)).map (·.start g.types e) =
      (k.selections.map (·.start g.types e)).map fun x => (x.1.renumber σ ρ, x.2) := by
    rw [List.map_map, List.map_map]
    rfl
  have hactivations (new : List Activation) :
      (k.activations.map (·.renumber σ ρ) ++ new.map (·.renumber σ ρ)).map (Activation.start · e) =
        ((k.activations ++ new).map (Activation.start · e)).map fun x =>
          (x.1, x.2.renumber σ ρ) := by
    rw [← List.map_append, List.map_map, List.map_map]
    rfl
  have hselected (as : List (Bool × Activation)) :
      (((as.map fun x => (x.1, x.2.renumber σ ρ)).zipIdx.filter fun x => x.1.1).map fun x =>
        (select x.1.2 x.2 (k.depth + 1) path).start g.types e) =
      ((as.zipIdx.filter fun x => x.1.1).map fun x =>
        (select x.1.2 x.2 (k.depth + 1) path).start g.types e).map fun x =>
          (x.1.renumber σ ρ, x.2) := by
    rw [List.zipIdx_map, List.filter_map, List.map_map, List.map_map]
    rfl
  unfold Keys.start renumber
  dsimp only
  rw [activationsOf_renumber h, h.types, hfollowed, hactivations, hselected]
  simp only [List.map_append, List.map_map, List.map_cons, List.flatMap_map]
  rfl

theorem characters_renumber (k : Keys) (text : String) :
    (k.renumber σ ρ).characters text = (k.characters text).renumber σ ρ := by
  unfold Keys.characters renumber
  dsimp only
  rw [List.map_map, List.map_map]
  rfl

/-! ## End tags -/

theorem enter_renumber (k : Keys) (a : Activation) (place : Nat) (tuple : FieldTuple) :
    (k.renumber σ ρ).enter (a.renumber σ ρ) place tuple = (k.enter a place tuple).renumber σ ρ := by
  have hledgers : (k.ledgers.map (·.renumber ρ)).modify (k.depth - a.depth)
      ((ρ a.of.number, tuple) :: ·) =
        (k.ledgers.modify (k.depth - a.depth) ((a.of.number, tuple) :: ·)).map
          (·.renumber ρ) := by
    refine List.ext_getElem? fun i => ?_
    rw [List.getElem?_modify, List.getElem?_map, List.getElem?_map, List.getElem?_modify]
    cases k.ledgers[i]? with
    | none => rfl
    | some l =>
      by_cases hi : k.depth - a.depth = i
      · simp only [hi]
        rfl
      · simp only [hi]
        rfl
  unfold Keys.enter renumber
  dsimp only
  rw [List.map_set, ← hledgers]
  rfl

/-- A reference waits in both. -/
theorem wait_renumber (k : Keys) (r : OpenReference) :
    ({ k.renumber σ ρ with waiting := (k.renumber σ ρ).waiting ++ [r.renumber σ ρ] } : Keys) =
      Keys.renumber σ ρ { k with waiting := k.waiting ++ [r] } := by
  unfold renumber
  rw [List.map_append]
  rfl

theorem closeComplete_renumber (k : Keys) (s : Selection) :
    (k.renumber σ ρ).closeComplete (s.renumber σ ρ) =
      ((k.closeComplete s).1.renumber σ ρ, (k.closeComplete s).2) := by
  have hplace : (k.renumber σ ρ).activations[(s.renumber σ ρ).activation]? =
      (k.activations[s.activation]?).map (·.renumber σ ρ) := List.getElem?_map
  have hkind : (s.renumber σ ρ).of.constraint.kind = s.of.constraint.kind := rfl
  have hrefer : (s.renumber σ ρ).of.constraint.refer? = s.of.constraint.refer?.map ρ := rfl
  unfold Keys.closeComplete
  dsimp only
  rw [hplace, hkind, hrefer]
  cases k.activations[s.activation]? with
  | none => rfl
  | some a =>
    have hrecorded : (a.renumber σ ρ).tuples = a.tuples := rfl
    have htuple : (s.renumber σ ρ).tuple = s.tuple := rfl
    dsimp only [Option.map_some]
    rw [hrecorded, htuple]
    have hentered (kind : ConstraintKind) : (if a.tuples.contains s.tuple then
        (k.renumber σ ρ, [⟨.duplicateKey s.tuple kind s.of.constraint.name,
          some s.of.constraint.name, some (Violation.tupleText s.tuple), some s.path⟩])
        else ((k.renumber σ ρ).enter (a.renumber σ ρ) s.activation s.tuple, [])) =
      ((if a.tuples.contains s.tuple then
        (k, [⟨.duplicateKey s.tuple kind s.of.constraint.name,
          some s.of.constraint.name, some (Violation.tupleText s.tuple), some s.path⟩])
        else (k.enter a s.activation s.tuple, [])).map (Keys.renumber σ ρ) id :
          Keys × List Violation) := by
      rw [enter_renumber]
      split <;> rfl
    cases s.of.constraint.kind with
    | keyref =>
      cases s.of.constraint.refer? with
      | none => rfl
      | some refer => exact Prod.ext (wait_renumber k ⟨s.of, refer, a.depth, s.tuple, s.path⟩) rfl
    | key => cases s.of.constraint.refer? <;> exact hentered .key
    | unique => cases s.of.constraint.refer? <;> exact hentered .unique

theorem closeSelection_renumber (k : Keys) (s : Selection) :
    (k.renumber σ ρ).closeSelection (s.renumber σ ρ) =
      ((k.closeSelection s).1.renumber σ ρ, (k.closeSelection s).2) := by
  have hmissing : (s.renumber σ ρ).missing = s.missing := rfl
  unfold Keys.closeSelection
  rw [hmissing, closeComplete_renumber]
  dsimp only
  split
  · rfl
  · have hkind : (s.renumber σ ρ).of.constraint.kind = s.of.constraint.kind := rfl
    rw [hkind]
    split <;> rfl

theorem closeSelections_renumber (k : Keys) (ss : List Selection) :
    (k.renumber σ ρ).closeSelections (ss.map (·.renumber σ ρ)) =
      ((k.closeSelections ss).1.renumber σ ρ, (k.closeSelections ss).2) := by
  induction ss generalizing k with
  | nil => rfl
  | cons s ss ih =>
    rw [List.map_cons, closeSelections, closeSelections, closeSelection_renumber]
    dsimp only
    rw [ih]

theorem closeLedger_renumber (hρ : Function.Injective ρ) (k : Keys) :
    (k.renumber σ ρ).closeLedger = k.closeLedger.renumber σ ρ := by
  obtain ⟨depth, activations, selections, ledgers, waiting, dangling⟩ := k
  cases ledgers with
  | nil => rfl
  | cons ledger outer =>
    have hmissing (rs : List OpenReference) : (rs.map (·.renumber σ ρ)).filter
        (fun r => !(Ledger.renumber ρ ledger).contains (r.refer, r.tuple)) =
          (rs.filter fun r => !ledger.contains (r.refer, r.tuple)).map (·.renumber σ ρ) := by
      rw [List.filter_map]
      refine congrArg (List.map _) (List.filter_congr fun r _ => ?_)
      exact congrArg not (Ledger.contains_renumber hρ ledger r.refer r.tuple)
    unfold Keys.closeLedger renumber
    dsimp only
    rw [List.map_cons]
    dsimp only
    rw [List.partition_eq_filter_filter, List.partition_eq_filter_filter]
    dsimp only
    rw [List.filter_map, List.filter_map, hmissing, ← List.map_append]
    refine congrArg (fun ledgers => (⟨depth, _, _, ledgers, _, _⟩ : Keys)) ?_
    cases outer with
    | nil => rfl
    | cons parent rest => exact congrArg (· :: _) (List.map_append).symm

theorem leave_renumber (hρ : Function.Injective ρ) (k : Keys) :
    (k.renumber σ ρ).leave = k.leave.renumber σ ρ := by
  have hactivations (k : Keys) : ((k.renumber σ ρ).activations.map fun a =>
      { a with matcher := a.matcher.stop.2 }).filter (·.depth != k.depth) =
      ((k.activations.map fun a => { a with matcher := a.matcher.stop.2 }).filter
        (·.depth != k.depth)).map (·.renumber σ ρ) := by
    unfold renumber
    dsimp only
    rw [List.map_map, List.filter_map, List.filter_map, List.map_map]
    rfl
  unfold leave
  rw [closeLedger_renumber hρ]
  exact congrArg (fun activations => ({ k.closeLedger.renumber σ ρ with
    depth := k.closeLedger.depth - 1, activations } : Keys)) (hactivations k.closeLedger)

/-- **An end tag** reports the same in a renumbered grammar. -/
theorem stop_renumber (h : g.Renumbered σ ρ g') (k : Keys) : (k.renumber σ ρ).stop g' =
    ((k.stop g).1.renumber σ ρ, (k.stop g).2) := by
  by_cases hdepth : k.depth = 0
  · have hdepth' : (k.renumber σ ρ).depth = 0 := hdepth
    unfold Keys.stop
    rw [if_pos hdepth, if_pos hdepth']
  · have hfollowed : (k.renumber σ ρ).selections.map (·.stop g'.types) =
        (k.selections.map (·.stop g.types)).map fun x => (x.1.renumber σ ρ, x.2) := by
      unfold renumber
      dsimp only
      rw [h.types, List.map_map, List.map_map]
      rfl
    have hparts (p : Nat → Bool) (fs : List (Selection × List Violation)) :
        ((fs.map fun x => (x.1.renumber σ ρ, x.2)).map (·.1)).filter (fun s => p s.depth) =
          ((fs.map (·.1)).filter fun s => p s.depth).map (·.renumber σ ρ) := by
      rw [List.map_map, List.filter_map, List.filter_map, List.map_map]
      rfl
    rw [stop_of_depth_ne_zero g hdepth, stop_of_depth_ne_zero g' (k := k.renumber σ ρ) hdepth]
    dsimp only
    rw [hfollowed]
    generalize k.selections.map (·.stop g.types) = fs
    have hclosed := closeSelections_renumber (σ := σ) (ρ := ρ)
      { k with selections := (fs.map (·.1)).filter (·.depth != k.depth) }
      ((fs.map (·.1)).filter (·.depth == k.depth)).reverse
    rw [List.map_reverse, ← hparts (· == k.depth)] at hclosed
    have hopen : ({ k.renumber σ ρ with
        selections := ((fs.map fun x => (x.1.renumber σ ρ, x.2)).map (·.1)).filter
          (·.depth != k.depth) } : Keys) =
        Keys.renumber σ ρ { k with selections := (fs.map (·.1)).filter (·.depth != k.depth) } :=
      congrArg (fun selections => ({ k.renumber σ ρ with selections } : Keys))
        (hparts (· != k.depth) fs)
    have hd : (k.renumber σ ρ).depth = k.depth := rfl
    dsimp only at hopen
    rw [hd] at hopen ⊢
    rw [hopen, hclosed]
    dsimp only
    rw [leave_renumber h.injective, List.flatMap_map]

/-! ## The end of the document -/

theorem danglingViolation_renumber (h : g.Renumbered σ ρ g') (r : OpenReference) :
    danglingViolation g' (r.renumber σ ρ) = danglingViolation g r := by
  have hrefer : (r.renumber σ ρ).refer = ρ r.refer := rfl
  unfold danglingViolation
  dsimp only
  rw [hrefer, h.constraint]
  cases g.constraints[r.refer]? <;> rfl

/-- **The end of a document** reports the same in a renumbered grammar. -/
theorem finish_renumber (h : g.Renumbered σ ρ g') (k : Keys) : (k.renumber σ ρ).finish g' =
    ((k.finish g).1.renumber σ ρ, (k.finish g).2) := by
  refine Prod.ext rfl ?_
  unfold Keys.finish renumber
  dsimp only
  rw [← List.map_append, List.map_map]
  exact List.map_congr_left fun r _ => danglingViolation_renumber h r

end Keys

end MarkupGrammar
