import MarkupGrammar.Proofs.Grammar.WellFormed

/-! # The constraints of all elements

The constraints of all elements are compiled in one row. None is at fault exactly if they have
different names and each compiles alone (`faults_compileConstraints_iff`), and then they stand as
they are declared, element by element (`getElem?_compiled`). So the constraints of one element are
those that it is declared with, in their order (`map_constraintsOf`). -/

namespace MarkupGrammar

/-- A constraint that does not compile has faults. -/
theorem ConstraintDraft.ne_nil_of_compile_eq_error {d : ConstraintDraft} {element : Nat}
    {causes : List Fault.Cause} (h : d.compile element = .error causes) : causes ≠ [] := by
  unfold compile at h
  cases hs : (PathExpression.read d.bindings .selector d.selector).mapError
    fun fault => [Fault.Cause.invalidSelector d.selector fault] with
  | error causes' =>
    rw [hs] at h
    obtain rfl := Except.error.inj h
    cases hr : PathExpression.read d.bindings .selector d.selector with
    | error fault =>
      rw [hr] at hs
      exact Except.error.inj hs ▸ List.cons_ne_nil _ _
    | ok selector =>
      rw [hr] at hs
      exact nomatch hs
  | ok selector =>
    rw [hs] at h
    dsimp only [bind, Except.bind] at h
    split at h
    · exact Except.error.inj h ▸ List.cons_ne_nil _ _
    · split at h
      · rename_i hcauses
        rw [Except.error.inj h] at hcauses
        rintro rfl
        exact absurd hcauses (by decide)
      · split at h
        · exact Except.error.inj h ▸ List.cons_ne_nil _ _
        · exact nomatch h

theorem ConstraintDraft.name_of_compile_eq_ok {d : ConstraintDraft} {element : Nat}
    {c : Constraint} (h : d.compile element = .ok c) : c.name = d.name := by
  unfold compile at h
  obtain ⟨selector, -, h⟩ := of_bind_eq_ok h
  dsimp only at h
  split at h
  · exact nomatch h
  · split at h
    · exact nomatch h
    · split at h
      · exact nomatch h
      · obtain rfl := Except.ok.inj h
        rfl

namespace GrammarDraft

variable {ds : List ElementDraft} {cs : Constraints} {d : ConstraintDraft} {element i k : Nat}
  {xs : List (ConstraintDraft × Nat)}

/-- The constraints of elements, each with the number of its element. -/
def constraintDrafts (ds : List ElementDraft) : List (ConstraintDraft × Nat) :=
  ds.zipIdx.flatMap fun x => x.1.constraints.map (·, x.2)

/-- What a constraint compiles to alone, if it does. -/
def open? (x : ConstraintDraft × Nat) : Option OpenConstraint :=
  (x.1.compile x.2).toOption.map fun c => (c, if x.1.kind = .keyref then x.1.refer? else none)

theorem compileConstraints_eq (ds : List ElementDraft) : compileConstraints ds =
    (constraintDrafts ds).foldl (fun cs x => cs.add x.2 x.1) {} := by
  unfold compileConstraints constraintDrafts
  rw [List.foldl_flatMap]
  simp only [List.foldl_map]

/-! ## One constraint after others -/

/-- The name is not that of a constraint that has been compiled. -/
def Constraints.Lacks (cs : Constraints) (n : Name) : Prop :=
  ∀ o ∈ cs.compiled.toList, o.1.name ≠ n

theorem any_compiled_iff {n : Name} :
    cs.compiled.any (·.1.name == n) = true ↔ ¬ cs.Lacks n := by
  unfold Constraints.Lacks
  rw [← Array.any_toList, List.any_eq_true]
  simp

/-- A constraint is compiled and put behind those before, or there is a fault. -/
theorem add_cases (cs : Constraints) (x : ConstraintDraft × Nat) :
    (∃ o, open? x = some o ∧ cs.Lacks x.1.name ∧
      cs.add x.2 x.1 = { cs with compiled := cs.compiled.push o }) ∨
    ((open? x = none ∨ ¬ cs.Lacks x.1.name) ∧ (cs.add x.2 x.1).faults ≠ []) := by
  unfold Constraints.add open?
  dsimp only
  by_cases hname : cs.compiled.any (·.1.name == x.1.name) = true
  · rw [if_pos hname]
    exact .inr ⟨.inr (any_compiled_iff.mp hname), List.append_ne_nil_of_right_ne_nil _
      (List.cons_ne_nil _ _)⟩
  · rw [if_neg hname]
    cases hd : x.1.compile x.2 with
    | error causes =>
      refine .inr ⟨.inl rfl, List.append_ne_nil_of_right_ne_nil _ fun h => ?_⟩
      exact ConstraintDraft.ne_nil_of_compile_eq_error hd (List.map_eq_nil_iff.mp h)
    | ok c => exact .inl ⟨_, rfl, not_not.mp fun h => hname (any_compiled_iff.mpr h), rfl⟩

/-- What has been compiled has the name of its draft. -/
theorem name_open {x : ConstraintDraft × Nat} {o : OpenConstraint} (h : open? x = some o) :
    o.1.name = x.1.name := by
  unfold open? at h
  obtain ⟨c, hc, rfl⟩ := Option.map_eq_some_iff.mp h
  cases hd : x.1.compile x.2 with
  | error causes =>
    rw [hd] at hc
    exact nomatch hc
  | ok c' =>
    rw [hd] at hc
    obtain rfl := Option.some.inj hc
    exact ConstraintDraft.name_of_compile_eq_ok hd

theorem lacks_push {o : OpenConstraint} {n : Name} :
    ({ cs with compiled := cs.compiled.push o } : Constraints).Lacks n ↔
      cs.Lacks n ∧ o.1.name ≠ n := by
  unfold Constraints.Lacks
  rw [Array.toList_push]
  simp [or_imp, forall_and]

/-- The constraints of a row are compiled without faults exactly if they have new names, and each
of them compiles. -/
theorem faults_foldl_iff : (xs.foldl (fun cs x => cs.add x.2 x.1) cs).faults = [] ↔
    cs.faults = [] ∧ (∀ x ∈ xs, (open? x).isSome) ∧ (xs.map (·.1.name)).Nodup ∧
      ∀ x ∈ xs, cs.Lacks x.1.name := by
  induction xs generalizing cs with
  | nil => simp
  | cons x xs ih =>
    rw [List.foldl_cons, ih, List.forall_mem_cons, List.forall_mem_cons, List.map_cons,
      List.nodup_cons]
    rcases add_cases cs x with ⟨o, ho, hlacks, heq⟩ | ⟨hnot, hfaults⟩
    · have hname : (∀ y ∈ xs, o.1.name ≠ y.1.name) ↔ x.1.name ∉ xs.map (·.1.name) := by
        rw [name_open ho, List.mem_map]
        simp [eq_comm]
      rw [heq, ← hname, ho]
      simp only [lacks_push, hlacks, Option.isSome_some]
      constructor
      · rintro ⟨hf, hall, hnodup, hothers⟩
        exact ⟨hf, ⟨trivial, hall⟩, ⟨fun y hy => (hothers y hy).2, hnodup⟩, trivial,
          fun y hy => (hothers y hy).1⟩
      · rintro ⟨hf, ⟨-, hall⟩, ⟨hnew, hnodup⟩, -, hothers⟩
        exact ⟨hf, hall, hnodup, fun y hy => ⟨hothers y hy, hnew y hy⟩⟩
    · refine iff_of_false (fun h => hfaults h.1) ?_
      rintro ⟨-, ⟨hsome, -⟩, -, hlacks, -⟩
      rcases hnot with hnone | hnot
      · rw [hnone] at hsome
        exact nomatch hsome
      · exact hnot hlacks

theorem compiled_foldl (h : (xs.foldl (fun cs x => cs.add x.2 x.1) cs).faults = []) :
    (xs.foldl (fun cs x => cs.add x.2 x.1) cs).compiled.toList.map some =
      cs.compiled.toList.map some ++ xs.map open? := by
  induction xs generalizing cs with
  | nil => exact (List.append_nil _).symm
  | cons x xs ih =>
    rw [List.foldl_cons] at h ⊢
    rw [ih h]
    rcases add_cases cs x with ⟨o, ho, -, heq⟩ | ⟨-, hfaults⟩
    · rw [heq, Array.toList_push, List.map_append, List.append_assoc]
      exact congrArg (fun o? => cs.compiled.toList.map some ++ o? :: xs.map open?) ho.symm
    · exact absurd (faults_foldl_iff.mp h).1 hfaults

/-! ## All constraints -/

/-- **No constraint is at fault** exactly if they have different names and each compiles. -/
theorem faults_compileConstraints_iff : (compileConstraints ds).faults = [] ↔
    (∀ x ∈ constraintDrafts ds, (open? x).isSome) ∧
      ((constraintDrafts ds).map (·.1.name)).Nodup := by
  rw [compileConstraints_eq, faults_foldl_iff]
  have hlacks (n : Name) : ({} : Constraints).Lacks n := fun o ho => absurd ho List.not_mem_nil
  exact ⟨fun h => ⟨h.2.1, h.2.2.1⟩, fun h => ⟨rfl, h.1, h.2, fun x _ => hlacks x.1.name⟩⟩

theorem compiled_compileConstraints (h : (compileConstraints ds).faults = []) :
    (compileConstraints ds).compiled.toList.map some = (constraintDrafts ds).map open? := by
  rw [compileConstraints_eq] at h ⊢
  exact compiled_foldl h

/-- Constraints stand as they are declared. -/
theorem getElem?_compiled (h : (compileConstraints ds).faults = []) (k : Nat) :
    (compileConstraints ds).compiled[k]? = ((constraintDrafts ds)[k]?).bind open? := by
  have hk := congrArg (·[k]?) (compiled_compileConstraints h)
  rw [List.getElem?_map, List.getElem?_map, Array.getElem?_toList] at hk
  cases hx : (constraintDrafts ds)[k]? with
  | none =>
    rw [hx] at hk
    exact Option.map_eq_none_iff.mp hk
  | some x =>
    rw [hx] at hk
    obtain ⟨o, ho, hsome⟩ := Option.map_eq_some_iff.mp hk
    rw [ho]
    exact hsome

/-! ## The constraints of one element -/

/-- The entries with a property, by their numbers. -/
theorem map_filter_range {α : Type} (p : α → Bool) (l : List α) :
    ((List.range l.length).filter fun k => (l[k]?).any p).map (l[·]?) = (l.filter p).map some := by
  -- from the end, as the entries before the last one keep their numbers
  induction l using List.reverseRecOn with
  | nil => rfl
  | append_singleton l a ih =>
    have hbefore (k : Nat) (hk : k ∈ List.range l.length) : (l ++ [a])[k]? = l[k]? :=
      List.getElem?_append_left (List.mem_range.mp hk)
    have hlast : (l ++ [a])[l.length]? = some a := by simp
    rw [List.length_append, List.length_singleton, List.range_succ, List.filter_append,
      List.filter_append, List.map_append, List.map_append, ← ih]
    congr 1
    · rw [List.filter_congr fun k hk => by rw [hbefore k hk]]
      exact List.map_congr_left fun k hk => hbefore k (List.mem_of_mem_filter hk)
    · rw [List.filter_cons, List.filter_cons, hlast]
      cases hp : p a with
      | true => simp [hp]
      | false => simp [hp]

/-- Of elements that are numbered from `n` on, the constraints of one of them. -/
theorem filter_flatMap_zipIdx (ds : List ElementDraft) (n i : Nat) :
    ((ds.zipIdx n).flatMap fun x => x.1.constraints.map (·, x.2)).filter (·.2 == i) =
      (if n ≤ i then ds[i - n]? else none).toList.flatMap fun d => d.constraints.map (·, i) := by
  induction ds generalizing n with
  | nil =>
    rw [List.getElem?_nil, ite_self]
    rfl
  | cons d ds ih =>
    rw [List.zipIdx_cons, List.flatMap_cons, List.filter_append, ih]
    dsimp only
    by_cases hn : n = i
    · subst hn
      have hall : (d.constraints.map (·, n)).filter (·.2 == n) = d.constraints.map (·, n) :=
        List.filter_eq_self.mpr fun x hx => by
          obtain ⟨c, -, rfl⟩ := List.mem_map.mp hx
          exact beq_self_eq_true n
      rw [hall, if_neg (Nat.not_succ_le_self n), if_pos le_rfl, Nat.sub_self]
      simp
    · have hnone : (d.constraints.map (·, n)).filter (·.2 == i) = [] :=
        List.filter_eq_nil_iff.mpr fun x hx => by
          obtain ⟨c, -, rfl⟩ := List.mem_map.mp hx
          simpa using hn
      rw [hnone, List.nil_append]
      by_cases hle : n ≤ i
      · have hsub : i - n = i - (n + 1) + 1 := by omega
        rw [if_pos hle, if_pos (show n + 1 ≤ i by omega), hsub, List.getElem?_cons_succ]
      · rw [if_neg hle, if_neg (show ¬ n + 1 ≤ i by omega)]

theorem filter_constraintDrafts (ds : List ElementDraft) (i : Nat) :
    (constraintDrafts ds).filter (·.2 == i) =
      (ds[i]?).toList.flatMap fun d => d.constraints.map (·, i) := by
  refine (filter_flatMap_zipIdx ds 0 i).trans ?_
  rw [if_pos (Nat.zero_le i), Nat.sub_zero]

theorem element_open {x : ConstraintDraft × Nat} {o : OpenConstraint} (h : open? x = some o) :
    o.1.element = x.2 := by
  unfold open? at h
  obtain ⟨c, hc, rfl⟩ := Option.map_eq_some_iff.mp h
  cases hd : x.1.compile x.2 with
  | error causes =>
    rw [hd] at hc
    exact nomatch hc
  | ok c' =>
    rw [hd] at hc
    obtain rfl := Option.some.inj hc
    exact element_of_compile hd

/-- The constraint of a number, its reference resolved. -/
theorem getElem?_resolved (h : (compileConstraints ds).faults = []) (k : Nat) :
    ((resolvedConstraints ds).map (·.1))[k]? = ((constraintDrafts ds)[k]?).bind fun x =>
      (open? x).map fun o =>
        (resolveReference ((compileConstraints ds).compiled.map (·.1)) o).1 := by
  unfold resolvedConstraints
  rw [Array.getElem?_map, Array.getElem?_map, getElem?_compiled h, Option.map_map]
  cases (constraintDrafts ds)[k]? with
  | none => rfl
  | some x => rfl

theorem size_resolved (h : (compileConstraints ds).faults = []) :
    ((resolvedConstraints ds).map (·.1)).size = (constraintDrafts ds).length := by
  unfold resolvedConstraints
  rw [Array.size_map, Array.size_map]
  simpa using congrArg List.length (compiled_compileConstraints h)

/-- **The constraints of an element** are those that it is declared with, in their order. -/
theorem map_constraintsOf (h : (compileConstraints ds).faults = []) (i : Nat) :
    (constraintsOf ((resolvedConstraints ds).map (·.1)) i).map ((constraintDrafts ds)[·]?) =
      ((ds[i]?).toList.flatMap fun d => d.constraints.map (·, i)).map some := by
  have hany (k : Nat) : (((resolvedConstraints ds).map (·.1))[k]?).any (·.element == i) =
      ((constraintDrafts ds)[k]?).any (·.2 == i) := by
    rw [getElem?_resolved h]
    cases hx : (constraintDrafts ds)[k]? with
    | none => rfl
    | some x =>
      have hsome := (faults_compileConstraints_iff.mp h).1 x (List.mem_of_getElem? hx)
      obtain ⟨o, ho⟩ := Option.isSome_iff_exists.mp hsome
      rw [Option.bind_some, ho, Option.map_some, Option.any_some, Option.any_some,
        resolveReference_fst, element_open ho]
  unfold constraintsOf
  rw [size_resolved h, List.filter_congr fun k _ => hany k, map_filter_range,
    filter_constraintDrafts]

end GrammarDraft

end MarkupGrammar
