import MarkupGrammar.Proofs.Keys.Reading

/-! # Reading an element

From what reading the content of an element does to the state after its start tag follows what
reading the element does (`Reads.element`), and so what reading any content does (`reads_run`). The
references that wait for the end of the element are looked up in its ledger, which by then holds
what all activations by the element and in it have recorded. -/

namespace MarkupGrammar

variable {g : Grammar} {types : TypeTable} {k k' : Keys} {a : Activation} {chain : List Name}
  {l : DeclaredTag} {inner : Forest DeclaredTag} {merged : Nat → Nat × FieldTuple → Prop}
  {vs vs' : List Violation}

/-- The activation at its beginning, for an element at a depth. -/
def Activated.begun (depth : Nat) (b : Activated) : Activation :=
  { of := b.of, depth, matcher := .ofExpression b.of.constraint.selector false }

theorem Activated.records_begun {b : Activated} (depth : Nat) {x : Nat × FieldTuple} :
    ((b.begun depth).note types b.selected).Records x ↔ b.Records types x := by
  refine and_congr_right fun _ => ?_
  change x.2 ∈ b.selected.foldl (b.of.constraint.noted types) [] ↔ _
  rw [Constraint.mem_foldl_noted, Activated.recorded]
  simp

namespace Keys

/-! ## After the start tag -/

/-- The activations by an element have recorded nothing at its start tag. -/
theorem records_entered {x : Nat × FieldTuple} {d : Nat} :
    (∃ a ∈ (k.entered g l).map (·.enter l.tag), a.depth = d ∧ a.Records x) ↔
      ∃ a ∈ k.activations, a.depth = d ∧ a.Records x := by
  constructor
  · rintro ⟨_, ha, hd, hx⟩
    obtain ⟨a, hmem, rfl⟩ := List.mem_map.mp ha
    rcases List.mem_append.mp hmem with hmem | hmem
    · exact ⟨a, hmem, hd, hx⟩
    · rw [activationsOf_eq] at hmem
      obtain ⟨c, -, rfl⟩ := List.mem_map.mp hmem
      exact absurd hx.2 List.not_mem_nil
  · rintro ⟨a, ha, hd, hx⟩
    exact ⟨a.enter l.tag, List.mem_map_of_mem (List.mem_append_left _ ha), hd, hx⟩

theorem ledgerAt_opened {d : Nat} (hd : d ≤ k.depth) :
    (k.opened g l chain).ledgerAt d = k.ledgerAt d := by
  have hsub : k.depth + 1 - d = k.depth - d + 1 := by omega
  unfold ledgerAt opened
  dsimp only
  rw [hsub, List.getElem?_cons_succ]

theorem ledgerAt_opened_self : (k.opened g l chain).ledgerAt (k.depth + 1) = [] := by
  unfold ledgerAt opened
  dsimp only
  rw [Nat.sub_self, List.getElem?_cons_zero, Option.getD_some]

theorem At.opened (h : k.At chain merged) (hg : SelectElements g) (l : DeclaredTag) :
    (k.opened g l (chain ++ [l.tag.name])).At (chain ++ [l.tag.name])
      fun d x => d ≤ chain.length ∧ merged d x := by
  have hlen : (chain ++ [l.tag.name]).length = chain.length + 1 := List.length_append
  have hfollows : ∀ a ∈ (k.entered g l).map (·.enter l.tag), a.Follows (chain ++ [l.tag.name]) := by
    intro _ ha
    obtain ⟨a, hmem, rfl⟩ := List.mem_map.mp ha
    exact (h.enters hg l a hmem).follows
  have hdepth : k.depth + 1 = (chain ++ [l.tag.name]).length := by rw [h.depth_eq, hlen]
  refine ⟨hdepth, hfollows, fun s hs => ?_, fun r hr => ?_, ?_, fun a ha => ?_,
    fun d hd hdk x => ?_⟩
  · rcases List.mem_append.mp hs with hs | hs
    · obtain ⟨s, hmem, rfl⟩ := List.mem_map.mp hs
      have hle := h.selections s hmem
      rw [Selection.follow_eq]
      exact Nat.le_trans hle (by omega)
    · obtain ⟨x, -, rfl⟩ := List.mem_map.mp hs
      rw [Selection.follow_eq]
      exact Nat.le_of_eq hdepth
  · have hle := h.waiting r hr
    omega
  · change k.ledgers.length + 1 = k.depth + 1
    rw [h.ledgers.length_eq]
  · have hf := hfollows a ha
    exact ⟨hf.pos, Nat.le_trans hf.le (Nat.le_of_eq hdepth.symm)⟩
  · change _ ↔ (∃ a ∈ (k.entered g l).map (·.enter l.tag), a.depth = d ∧ a.Records x) ∨ _
    have hdepth := h.depth_eq
    rw [records_entered]
    by_cases hdle : d ≤ k.depth
    · rw [ledgerAt_opened hdle, h.ledgers.mem_iff d hd hdle, and_iff_right (by omega)]
    · -- the ledger of the element is empty, and no activation before is by the element
      have hself : d = k.depth + 1 := by
        change d ≤ k.depth + 1 at hdk
        omega
      rw [hself, ledgerAt_opened_self]
      constructor
      · exact fun hx => absurd hx List.not_mem_nil
      · rintro (⟨a, ha, had, -⟩ | ⟨hle, -⟩)
        · have hle := (h.activations a ha).le
          omega
        · omega

/-- An activation by the element selects the same in the chain and in the element. -/
theorem At.selectedAt_begun (h : k.At chain merged) {c : NumberedConstraint} :
    (Activated.begun (k.depth + 1) ⟨c, l, inner⟩).selectedAt (chain ++ [l.tag.name]) ⟨l, inner⟩ =
      Activated.selected ⟨c, l, inner⟩ := by
  have hlen : (chain ++ [l.tag.name]).length = k.depth + 1 := by
    rw [List.length_append, h.depth_eq]
    rfl
  unfold Activation.selectedAt Activation.selectedIn Activation.selects Activated.begun
  dsimp only
  rw [List.drop_eq_nil_of_le (Nat.le_of_eq hlen)]
  simp only [decide_eq_true_eq]
  rfl

/-- The activations by the element are separate from those before. -/
theorem At.flatMap_entered {β : Type} (h : k.At chain merged) (g : Grammar) (l : DeclaredTag)
    (inner : Forest DeclaredTag) (F : List (Tree DeclaredTag) → Activation → List β) :
    ((k.entered g l).flatMap fun a => F (a.selectedAt (chain ++ [l.tag.name]) ⟨l, inner⟩) a) =
      (k.activations.flatMap fun a => F (a.selectedIn chain (.element l inner .nil)) a) ++
        ((Tree.mk l inner).activated g).flatMap fun b => F b.selected (b.begun (k.depth + 1)) := by
  rw [entered, List.flatMap_append, activationsOf_eq, List.flatMap_map, Tree.activated,
    List.flatMap_map]
  congr 1
  · refine List.flatMap_congr fun a ha => ?_
    rw [(h.activations a ha).selectedIn_element]
  · refine List.flatMap_congr fun c _ => ?_
    exact congrArg (F · (Activated.begun (k.depth + 1) ⟨c, l, inner⟩)) h.selectedAt_begun

/-! ## Before the ledger is closed -/

theorem HasRead.activations_settled
    (h : HasRead g.types (chain ++ [l.tag.name]) inner (k.opened g l (chain ++ [l.tag.name])) k') :
    (settled g k k' l inner chain).activations = (k.entered g l).map fun a =>
      (a.enter l.tag).note g.types (a.selectedAt (chain ++ [l.tag.name]) ⟨l, inner⟩) := by
  have hclosed : (settled g k k' l inner chain).activations = k'.activations.map fun a =>
      if a.selects (chain ++ [l.tag.name]) then a.noted g.types ⟨l, inner⟩ else a :=
    activations_closeAll_picksOf
  rw [hclosed, h.activations_eq]
  change List.map _ (List.map _ ((k.entered g l).map _)) = _
  rw [List.map_map, List.map_map]
  refine List.map_congr_left fun a _ => ?_
  rw [Activation.selectedAt, Activation.note_append]
  change (if a.selects (chain ++ [l.tag.name]) then (((a.enter l.tag).note g.types
    (a.selectedIn (chain ++ [l.tag.name]) inner)).noted g.types ⟨l, inner⟩) else _) = _
  split <;> rfl

/-- The activations that select the element, by what they were before its start tag. -/
theorem HasRead.flatMap_picksOf {β : Type} (h : HasRead types chain inner (k.opened g l chain) k')
    (F : Activation → List β) :
    ((picksOf (·.selects chain) k'.activations).flatMap fun x => F x.1).Perm
      ((k.entered g l).flatMap fun a => if a.selects chain then
        F ((a.enter l.tag).note types (a.selectedIn chain inner)) else []) := by
  refine (Keys.flatMap_picksOf F k'.activations).trans (.of_eq ?_)
  rw [h.activations_eq]
  change ((((k.entered g l).map _).map _).flatMap _) = _
  rw [List.flatMap_map, List.flatMap_map]
  rfl

/-! ## Closing the ledger -/

/-- The ledgers after the innermost element has ended. -/
def closedLedgers (k : Keys) : List Ledger :=
  match k.ledgers with
  | ledger :: parent :: rest => (ledger ++ parent) :: rest
  | _ => []

theorem length_closedLedgers : k.closedLedgers.length = k.ledgers.length - 1 := by
  unfold closedLedgers
  match k.ledgers with
  | [] => rfl
  | [_] => rfl
  | _ :: _ :: _ => rfl

theorem closeLedger_eq (hlen : k.ledgers.length = k.depth) (hpos : 0 < k.depth) :
    k.closeLedger = { k with
      ledgers := k.closedLedgers
      waiting := k.waiting.filter fun r => !(r.depth == k.depth)
      dangling := k.dangling ++ (k.waiting.filter (·.depth == k.depth)).filter fun r =>
        !(k.ledgerAt k.depth).contains (r.refer, r.tuple) } := by
  unfold closeLedger closedLedgers ledgerAt
  rw [Nat.sub_self]
  cases hl : k.ledgers with
  | nil =>
    rw [hl, List.length_nil] at hlen
    omega
  | cons ledger outer =>
    rw [List.partition_eq_filter_filter]
    cases outer <;> rfl

/-- The ledger of the innermost element is added to that of its parent. -/
theorem mem_ledgerAt_closed (hlen : k.ledgers.length = k.depth) {d : Nat} (hd : 0 < d)
    (hlt : d < k.depth) {x : Nat × FieldTuple} {waiting dangling : List OpenReference} :
    x ∈ ({ k with ledgers := k.closedLedgers, waiting, dangling } : Keys).left.ledgerAt d ↔
      x ∈ k.ledgerAt d ∨ d + 1 = k.depth ∧ x ∈ k.ledgerAt k.depth := by
  unfold left ledgerAt closedLedgers
  dsimp only
  rw [Nat.sub_self]
  match hl : k.ledgers with
  | [] =>
    rw [hl, List.length_nil] at hlen
    omega
  | [ledger] =>
    rw [hl, List.length_singleton] at hlen
    omega
  | ledger :: parent :: rest =>
    by_cases hparent : d + 1 = k.depth
    · have hzero : k.depth - 1 - d = 0 := by omega
      have hone : k.depth - d = 1 := by omega
      rw [hzero, hone]
      simp [hparent, or_comm]
    · obtain ⟨i, hi⟩ : ∃ i, k.depth - 1 - d = i + 1 := ⟨k.depth - 1 - d - 1, by omega⟩
      have hi' : k.depth - d = i + 1 + 1 := by omega
      rw [hi, hi']
      simp [hparent]

/-! ## After the end tag -/

section Stop

variable (h : k.At chain merged) (hg : SelectElements g)
  (hr : Reads g (chain ++ [l.tag.name]) (fun d x => d ≤ chain.length ∧ merged d x) inner
    (k.opened g l (chain ++ [l.tag.name])) k' vs)

include hr in
/-- The state before the ledger of the element is closed has kept its ledgers. -/
theorem Reads.ledgers_settled :
    (settled g k k' l inner chain).LedgersHold
      (mergedAfter g (chain.length + 1) inner fun d x => d ≤ chain.length ∧ merged d x) := by
  have hlen : (chain ++ [l.tag.name]).length = chain.length + 1 := List.length_append
  have hledgers := hr.ledgers
  rw [hlen] at hledgers
  refine LedgersHold.closeAll ?_ (picks_picksOf _)
  exact ⟨hledgers.length_eq, hledgers.depth, hledgers.mem_iff⟩

include hr in
theorem Reads.depth_settled : (settled g k k' l inner chain).depth = k.depth + 1 := by
  rw [settled, depth_closeAll]
  exact hr.depth_eq

include hr in
theorem Reads.closeLedger_settled :
    (settled g k k' l inner chain).closeLedger =
      let k₂ := settled g k k' l inner chain
      { k₂ with
        ledgers := k₂.closedLedgers
        waiting := k₂.waiting.filter fun r => !(r.depth == k.depth + 1)
        dangling := k₂.dangling ++ (k₂.waiting.filter (·.depth == k.depth + 1)).filter fun r =>
          !(k₂.ledgerAt (k.depth + 1)).contains (r.refer, r.tuple) } := by
  have hdepth := hr.depth_settled
  rw [closeLedger_eq hr.ledgers_settled.length_eq (by omega), hdepth]
  rw [← hdepth]

include hr in
theorem Reads.depth_left : (settled g k k' l inner chain).closeLedger.left.depth = k.depth := by
  rw [hr.closeLedger_settled, left]
  dsimp only
  rw [hr.depth_settled, Nat.add_sub_cancel]

include hr in
/-- The activations by the element have no part in the ledgers around it. -/
theorem Reads.records_left {d : Nat} (hd : d ≤ k.depth) {x : Nat × FieldTuple} :
    (∃ a ∈ (settled g k k' l inner chain).closeLedger.left.activations,
        a.depth = d ∧ a.Records x) ↔
      ∃ a ∈ (settled g k k' l inner chain).activations, a.depth = d ∧ a.Records x := by
  have hdepth := hr.depth_settled
  rw [hr.closeLedger_settled, left]
  constructor
  · rintro ⟨_, ha, had, hx⟩
    obtain ⟨a, hmem, rfl⟩ := List.mem_map.mp (List.mem_filter.mp ha).1
    exact ⟨a, hmem, had, hx⟩
  · rintro ⟨a, ha, had, hx⟩
    refine ⟨a.leave, List.mem_filter.mpr ⟨List.mem_map_of_mem ha, ?_⟩, had, hx⟩
    change (a.depth != _) = true
    rw [bne_iff_ne, hdepth]
    omega

include h hr

theorem Reads.stop_eq : k'.stop g =
    ((settled g k k' l inner chain).closeLedger.left,
      (k'.selections.map (·.stop g.types)).flatMap (·.2) ++
        (picksOf (·.selects (chain ++ [l.tag.name])) k'.activations).flatMap fun x =>
          x.1.of.constraint.verdict g.types x.1.tuples ⟨l, inner⟩) := by
  refine hr.toHasRead.stop_eq fun s hs => ?_
  rw [h.depth_eq]
  exact h.selections s hs

include hg in
/-- The activations by the element are gone, and the others have noted what they have selected in
it. -/
theorem Reads.activations_left :
    (settled g k k' l inner chain).closeLedger.left.activations =
      k.activations.map fun a =>
        a.note g.types (a.selectedIn chain (.element l inner .nil)) := by
  rw [hr.closeLedger_settled, left]
  dsimp only
  rw [hr.depth_settled, hr.toHasRead.activations_settled, List.map_map]
  have hleave : ((k.entered g l).map (Activation.leave ∘ fun a =>
      (a.enter l.tag).note g.types (a.selectedAt (chain ++ [l.tag.name]) ⟨l, inner⟩))) =
      (k.entered g l).map fun a =>
        a.note g.types (a.selectedAt (chain ++ [l.tag.name]) ⟨l, inner⟩) := by
    refine List.map_congr_left fun a ha => ?_
    have hback := (h.enters hg l a ha).leave_enter
    change ((a.enter l.tag).leave).note g.types _ = _
    rw [hback]
  rw [hleave, List.filter_map, entered, List.filter_append, List.filter_eq_self.mpr,
    List.filter_eq_nil_iff.mpr, List.append_nil]
  · refine List.map_congr_left fun a ha => ?_
    rw [(h.activations a ha).selectedIn_element]
  · intro a ha
    rw [activationsOf_eq] at ha
    obtain ⟨c, -, rfl⟩ := List.mem_map.mp ha
    simp [Activation.note]
  · intro a ha
    have hle := (h.activations a ha).le
    have hdepth := h.depth_eq
    change (a.depth != k.depth + 1) = true
    rw [bne_iff_ne]
    omega

end Stop

/-! ## References -/

theorem perm_filter_append {α : Type} {p : α → Bool} {ws xs ys : List α} (h : ws.Perm (xs ++ ys))
    (hxs : ∀ x ∈ xs, p x = false) (hys : ∀ y ∈ ys, p y = true) :
    (ws.filter p).Perm ys ∧ (ws.filter fun x => !p x).Perm xs := by
  have hparted := partition_append hxs hys
  rw [List.partition_eq_filter_filter, Prod.mk.injEq] at hparted
  obtain ⟨hp, hnot⟩ := hparted
  constructor
  · rw [← hp]
    exact h.filter p
  · rw [← hnot]
    exact h.filter _

section References

variable (h : k.At chain merged)
  (hr : Reads g (chain ++ [l.tag.name]) (fun d x => d ≤ chain.length ∧ merged d x) inner
    (k.opened g l (chain ++ [l.tag.name])) k' vs)

include h hr

/-- At the end of an element the references of all elements that have been selected in it wait. -/
theorem Reads.waiting_settled :
    (settled g k k' l inner chain).waiting.Perm
      (k.waiting ++ (k.activations.flatMap fun a =>
        (a.selectedIn chain (.element l inner .nil)).flatMap (a.references g.types)) ++
      ((Tree.mk l inner).activated g).flatMap fun b =>
        b.selected.flatMap ((b.begun (k.depth + 1)).references g.types)) := by
  have hpicks := hr.toHasRead.flatMap_picksOf fun a => a.references g.types ⟨l, inner⟩
  have hinner := hr.waiting
  change k'.waiting.Perm (k.waiting ++ ((k.entered g l).map _).flatMap _) at hinner
  have hentered := h.flatMap_entered g l inner fun ts a => ts.flatMap (a.references g.types)
  rw [List.append_assoc, ← hentered, settled, waiting_closeAll]
  refine (hinner.append hpicks).trans ?_
  rw [List.flatMap_map, List.append_assoc]
  refine .append_left _ ((List.flatMap_append_perm _ _ _).trans (.of_eq ?_))
  refine List.flatMap_congr fun a _ => ?_
  rw [Activation.selectedAt, List.flatMap_append]
  refine congrArg (_ ++ ·) ?_
  split
  · rw [List.flatMap_singleton]
    rfl
  · rfl

/-- The references of the element itself are ready, and those of the elements around it go on. -/
theorem Reads.waiting_left :
    ((settled g k k' l inner chain).waiting.filter (·.depth == k.depth + 1)).Perm
        (((Tree.mk l inner).activated g).flatMap fun b =>
          b.selected.flatMap ((b.begun (k.depth + 1)).references g.types)) ∧
      ((settled g k k' l inner chain).waiting.filter fun r => !(r.depth == k.depth + 1)).Perm
        (k.waiting ++ k.activations.flatMap fun a =>
          (a.selectedIn chain (.element l inner .nil)).flatMap (a.references g.types)) := by
  have hdepth := h.depth_eq
  refine perm_filter_append (hr.waiting_settled h) (fun r hr' => ?_) fun r hr' => ?_
  · rw [beq_eq_false_iff_ne]
    rcases List.mem_append.mp hr' with hr' | hr'
    · have hle := h.waiting r hr'
      omega
    · obtain ⟨a, ha, hr'⟩ := List.mem_flatMap.mp hr'
      obtain ⟨t, -, hr'⟩ := List.mem_flatMap.mp hr'
      have hle := (h.activations a ha).le
      rw [Activation.depth_of_mem_references hr']
      omega
  · obtain ⟨b, -, hr'⟩ := List.mem_flatMap.mp hr'
    obtain ⟨t, -, hr'⟩ := List.mem_flatMap.mp hr'
    rw [Activation.depth_of_mem_references hr']
    exact beq_self_eq_true _

/-- What the activations by the element have recorded at its end. -/
theorem Reads.records_settled {x : Nat × FieldTuple} :
    (∃ a ∈ (settled g k k' l inner chain).activations, a.depth = k.depth + 1 ∧ a.Records x) ↔
      ∃ b ∈ (Tree.mk l inner).activated g, b.Records g.types x := by
  have hdepth := h.depth_eq
  rw [hr.toHasRead.activations_settled]
  constructor
  · rintro ⟨_, ha, had, hx⟩
    obtain ⟨a, hmem, rfl⟩ := List.mem_map.mp ha
    rcases List.mem_append.mp hmem with hmem | hmem
    · -- the activations before are by elements around this one
      have hle := (h.activations a hmem).le
      change a.depth = k.depth + 1 at had
      omega
    · rw [activationsOf_eq] at hmem
      obtain ⟨c, hc, rfl⟩ := List.mem_map.mp hmem
      refine ⟨⟨c, l, inner⟩, List.mem_map_of_mem hc, ?_⟩
      rw [← Activated.records_begun (k.depth + 1), ← h.selectedAt_begun]
      exact hx
  · rintro ⟨b, hb, hx⟩
    obtain ⟨c, hc, rfl⟩ := List.mem_map.mp hb
    rw [← Activated.records_begun (k.depth + 1), ← h.selectedAt_begun] at hx
    have hmem : Activated.begun (k.depth + 1) ⟨c, l, inner⟩ ∈ k.entered g l := by
      rw [entered, activationsOf_eq]
      exact List.mem_append_right _ (List.mem_map_of_mem hc)
    exact ⟨_, List.mem_map_of_mem hmem, rfl, hx⟩

/-- **The ledger of an element** holds at its end what all activations by the element and in it have
recorded. -/
theorem Reads.mem_ledgerAt_settled (number : Nat) (v : FieldTuple) :
    (number, v) ∈ (settled g k k' l inner chain).ledgerAt (k.depth + 1) ↔
      Activated.isRecordedIn g ⟨l, inner⟩ number v := by
  have hledgers := hr.ledgers_settled
  have hdepth := h.depth_eq
  rw [hledgers.mem_iff _ (Nat.succ_pos _) (Nat.le_of_eq hr.depth_settled.symm),
    hr.records_settled h, Activated.isRecordedIn, Tree.activations_eq]
  simp only [mergedAfter, List.mem_append, or_and_right, exists_or]
  refine or_congr_right ?_
  constructor
  · rintro (⟨hle, -⟩ | ⟨-, hinner⟩)
    · omega
    · exact hinner
  · exact fun hinner => .inr ⟨by omega, hinner⟩

end References

theorem unresolved_of_ledger {b : Activated} {depth : Nat} {ledger : Ledger}
    (hledger : ∀ number v, (number, v) ∈ ledger ↔ Activated.isRecordedIn g b.element number v) :
    ((b.selected.flatMap ((b.begun depth).references g.types)).filter fun r =>
      !ledger.contains (r.refer, r.tuple)).map (danglingViolation g) = b.unresolved g := by
  have hnone (hno : ∀ n, (b.begun depth).references g.types n = []) :
      b.selected.flatMap ((b.begun depth).references g.types) = [] :=
    List.flatMap_eq_nil_iff.mpr fun n _ => hno n
  unfold Activated.unresolved
  split
  · rename_i refer hk hr
    have hreferences (n : Tree DeclaredTag) : (b.begun depth).references g.types n =
        (b.tuple? g.types n).toList.map fun v => ⟨b.of, refer, depth, v, n.label.path⟩ := by
      unfold Activation.references Activated.begun
      dsimp only
      rw [hk, hr]
      rfl
    rw [List.filterMap_eq_flatMap_toList, List.filter_flatMap, List.map_flatMap]
    refine List.flatMap_congr fun n _ => ?_
    rw [hreferences]
    cases b.tuple? g.types n with
    | none => rfl
    | some v =>
      by_cases hv : Activated.isRecordedIn g b.element refer v
      · have hmem := (hledger refer v).mpr hv
        simp [Option.filter, hv, hmem]
      · have hmem := mt (hledger refer v).mp hv
        simp [Option.filter, hv, hmem]
        rfl
  · rename_i hnot
    rw [hnone fun n => ?_]
    · rfl
    · unfold Activation.references
      split
      · rename_i refer hk hr
        exact absurd hr (hnot refer hk)
      · rfl

/-! ## The element -/

section Element

variable (h : k.At chain merged)
  (hr : Reads g (chain ++ [l.tag.name]) (fun d x => d ≤ chain.length ∧ merged d x) inner
    (k.opened g l (chain ++ [l.tag.name])) k' vs)

include h hr

theorem Reads.violations_left :
    (reported (vs ++ ((k'.selections.map (·.stop g.types)).flatMap (·.2) ++
      (picksOf (·.selects (chain ++ [l.tag.name])) k'.activations).flatMap fun x =>
        x.1.of.constraint.verdict g.types x.1.tuples ⟨l, inner⟩))).Perm
      ((k.activations.flatMap fun a =>
        a.verdicts g.types (a.selectedIn chain (.element l inner .nil))) ++
      ((Forest.element l inner .nil).activations g).flatMap (·.verdicts g.types)) := by
  have hinner := hr.violations
  change (reported vs).Perm (((k.entered g l).map _).flatMap _ ++ _) at hinner
  have hpicks := hr.toHasRead.flatMap_picksOf fun a =>
    a.of.constraint.verdict g.types a.tuples ⟨l, inner⟩
  have hentered := h.flatMap_entered g l inner fun ts a =>
    a.verdicts g.types ts
  have hstopped : reported ((k'.selections.map (·.stop g.types)).flatMap (·.2)) = [] :=
    reported_advance id _ _
  have hverdicts : reported ((picksOf (·.selects (chain ++ [l.tag.name])) k'.activations).flatMap
      fun x => x.1.of.constraint.verdict g.types x.1.tuples ⟨l, inner⟩) =
      (picksOf (·.selects (chain ++ [l.tag.name])) k'.activations).flatMap
        fun x => x.1.of.constraint.verdict g.types x.1.tuples ⟨l, inner⟩ := by
    rw [reported, List.filter_flatMap]
    exact List.flatMap_congr fun x _ => reported_verdict
  rw [reported_append, reported_append, hstopped, hverdicts, List.nil_append,
    Forest.activations_element, Tree.activations_eq, List.flatMap_append]
  refine (hinner.append hpicks).trans ?_
  rw [List.flatMap_map, List.append_assoc]
  refine (List.perm_append_comm.append_left _).trans ?_
  rw [← List.append_assoc]
  refine ((List.flatMap_append_perm _ _ _).append_right _).trans (.of_eq ?_)
  have hat : ((k.entered g l).flatMap fun a =>
      (a.enter l.tag).verdicts g.types ((a.enter l.tag).selectedIn (chain ++ [l.tag.name]) inner) ++
      if a.selects (chain ++ [l.tag.name]) = true then
        let a' := (a.enter l.tag).note g.types (a.selectedIn (chain ++ [l.tag.name]) inner)
        a'.of.constraint.verdict g.types a'.tuples ⟨l, inner⟩
      else []) = (k.entered g l).flatMap fun a =>
        a.verdicts g.types (a.selectedAt (chain ++ [l.tag.name]) ⟨l, inner⟩) := by
    refine List.flatMap_congr fun a _ => ?_
    rw [Activation.selectedAt, Activation.verdicts_append]
    refine congrArg (_ ++ ·) ?_
    split
    · exact (List.append_nil _).symm
    · rfl
  rw [hat, hentered, List.append_assoc]
  rfl

theorem Reads.dangling_left :
    ((settled g k k' l inner chain).closeLedger.left.dangling.map (danglingViolation g)).Perm
      (k.dangling.map (danglingViolation g) ++
        ((Forest.element l inner .nil).activations g).flatMap (·.unresolved g)) := by
  have hinner := hr.dangling
  have hready := (hr.waiting_left h).1
  have hledger := hr.mem_ledgerAt_settled h
  have hdangling : (settled g k k' l inner chain).dangling = k'.dangling := dangling_closeAll
  have hown : ((((Tree.mk l inner).activated g).flatMap fun b =>
      b.selected.flatMap ((b.begun (k.depth + 1)).references g.types)).filter fun r =>
        !((settled g k k' l inner chain).ledgerAt (k.depth + 1)).contains
          (r.refer, r.tuple)).map (danglingViolation g) =
      ((Tree.mk l inner).activated g).flatMap (·.unresolved g) := by
    rw [List.filter_flatMap, List.map_flatMap]
    refine List.flatMap_congr fun b hb => ?_
    obtain ⟨c, -, rfl⟩ := List.mem_map.mp hb
    exact unresolved_of_ledger hledger
  rw [hr.closeLedger_settled, left]
  dsimp only
  rw [hdangling, List.map_append]
  refine (hinner.append ((hready.filter _).map _)).trans ?_
  rw [hown, List.append_assoc, Forest.activations_element, Tree.activations_eq,
    List.flatMap_append]
  exact List.perm_append_comm.append_left _

theorem Reads.ledgers_left (hg : SelectElements g) :
    (settled g k k' l inner chain).closeLedger.left.LedgersHold
      (mergedAfter g chain.length (.element l inner .nil) merged) := by
  have hdepth := h.depth_eq
  have hsettled := hr.ledgers_settled
  have hinner := hr.depth_settled
  have hledger := hr.mem_ledgerAt_settled h
  refine ⟨?_, fun a ha => ?_, fun d hd hdk x => ?_⟩
  · rw [hr.depth_left, hr.closeLedger_settled, left]
    dsimp only
    rw [length_closedLedgers, hsettled.length_eq, hinner, Nat.add_sub_cancel]
  · rw [hr.activations_left h hg] at ha
    obtain ⟨b, hb, rfl⟩ := List.mem_map.mp ha
    have hf := h.activations b hb
    rw [hr.depth_left, hdepth]
    exact ⟨hf.pos, hf.le⟩
  · rw [hr.depth_left] at hdk
    obtain ⟨number, v⟩ := x
    rw [hr.records_left hdk, hr.closeLedger_settled]
    refine (mem_ledgerAt_closed hsettled.length_eq hd (by omega)).trans ?_
    rw [hsettled.mem_iff d hd (by omega), hinner, hledger, or_assoc]
    refine or_congr_right ?_
    have hrecorded : Activated.isRecordedIn g ⟨l, inner⟩ number v ↔
        ∃ b ∈ (Forest.element l inner .nil).activations g, b.Records g.types (number, v) := by
      rw [Forest.activations_element]
      rfl
    rw [mergedAfter, mergedAfter, hrecorded]
    constructor
    · rintro ((⟨-, hm⟩ | ⟨hd', -⟩) | ⟨hd', hb⟩)
      · exact .inl hm
      · omega
      · exact .inr ⟨by omega, hb⟩
    · rintro (hm | ⟨hd', hb⟩)
      · exact .inl (.inl ⟨by omega, hm⟩)
      · exact .inr ⟨by omega, hb⟩

end Element

/-- **Reading an element**, from its start tag to its end tag. -/
theorem Reads.element (h : k.At chain merged) (hg : SelectElements g)
    (hr : Reads g (chain ++ [l.tag.name]) (fun d x => d ≤ chain.length ∧ merged d x) inner
      (k.opened g l (chain ++ [l.tag.name])) k' vs) :
    Reads g chain merged (.element l inner .nil) k (k'.stop g).1 (vs ++ (k'.stop g).2) := by
  rw [hr.stop_eq h]
  refine ⟨⟨hr.depth_left, hr.activations_left h hg, ?_⟩, hr.violations_left h, ?_,
    hr.dangling_left h, hr.ledgers_left h hg⟩
  · rw [hr.closeLedger_settled, left, settled, selections_closeAll]
    dsimp only
    rfl
  · rw [hr.closeLedger_settled]
    exact (hr.waiting_left h).2

/-! ## Any content -/

/-- Only the violations that are counted matter. -/
theorem Reads.of_reported {f : Forest DeclaredTag} (hr : Reads g chain merged f k k' vs)
    (hvs : reported vs' = reported vs) : Reads g chain merged f k k' vs' := by
  refine ⟨hr.toHasRead, ?_, hr.waiting, hr.dangling, hr.ledgers⟩
  rw [hvs]
  exact hr.violations

/-- **What a run through the content of an element does.** -/
theorem reads_run (hg : SelectElements g) (f : Forest DeclaredTag) (h : k.At chain merged) :
    Reads g chain merged f k (k.run g f.events).1 (k.run g f.events).2 := by
  induction f generalizing k chain merged with
  | nil => exact .nil h
  | piece s rest ih =>
    have hp := Reads.piece (g := g) h s
    have hrest := hp.append (ih (hp.at h))
    exact hrest
  | element l inner rest ihi ihr =>
    -- the state after the start tag, and what the content does to it
    have hopened := h.opened hg l
    have hstart := start_fst (h.enters hg l)
    have helement := Reads.element h hg (ihi hopened)
    have hrest := helement.append (ihr (helement.at h))
    rw [Forest.events, run, step]
    dsimp only
    rw [hstart, run_append, run, step]
    refine hrest.of_reported ?_
    rw [reported_append, reported_start, List.nil_append, List.append_assoc]

end Keys

end MarkupGrammar
