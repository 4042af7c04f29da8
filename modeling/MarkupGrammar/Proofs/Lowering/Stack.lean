import MarkupGrammar.Lowering.Stack
import MarkupGrammar.Proofs.Lowering.Behind

/-! # Stacks and recursion

The walks with stacks do what the recursions over particles and expressions do. A particle on top of
the stack is lowered, and its node put on top of the operands, before anything below it is visited
(`walk_cons`); so a group finds the nodes of its members there, and no walk is without an operand.

An expression is copied in the same way where parts precede their nodes (`exists_copyWalk_eq`). The
copies are appended while the walk is under way, but no node that has been visited changes, so the
second visit to a node finds what the first one did. -/

namespace MarkupGrammar

namespace Lowering

section Steps

variable {α β : Type} {s : Lowering} {x : LoweringM β} {k k' : β → WalkM α}

@[simp] theorem step_pure (a : α) : step (pure a : LoweringM α) = pure a := rfl

/-- A step of a walk and the rest of it. -/
theorem run_step_bind (x : LoweringM β) (k : β → WalkM α) (s : Lowering) :
    (step x >>= k).run.run s =
      match x.run.run s with
      | (.ok b, s') => (k b).run.run s'
      | (.error f, s') => (.error (.step f), s') := by
  simp only [step, ExceptT.run_bind, ExceptT.run_mk, StateT.run_bind, StateT.run_map]
  rcases x.run.run s with ⟨_ | b, s'⟩ <;> rfl

theorem walkM_ext {x y : WalkM α} (h : ∀ s, x.run.run s = y.run.run s) : x = y :=
  ExceptT.ext (StateT.ext h)

theorem run_step (x : LoweringM α) (s : Lowering) :
    (step x).run.run s = ((x.run.run s).1.mapError .step, (x.run.run s).2) := rfl

@[simp] theorem step_bind (x : LoweringM β) (y : β → LoweringM α) :
    step (x >>= y) = step x >>= fun b => step (y b) := by
  refine walkM_ext fun s => ?_
  rw [run_step, run_step_bind, run_bind]
  rcases x.run.run s with ⟨_ | b, s'⟩ <;> rfl

/-- What comes after a step makes a difference only for the results that it has. -/
theorem run_step_bind_congr
    (h : Ensures x s (fun b s' => (k b).run.run s' = (k' b).run.run s') fun _ => True) :
    (step x >>= k).run.run s = (step x >>= k').run.run s := by
  rw [run_step_bind, run_step_bind]
  unfold Ensures at h
  rcases hx : x.run.run s with ⟨_ | b, s'⟩
  · rfl
  · rw [hx] at h
    exact h

theorem step_bind_congr (h : ∀ s, Ensures x s (fun b _ => k b = k' b) fun _ => True) :
    step x >>= k = step x >>= k' :=
  walkM_ext fun s => run_step_bind_congr ((h s).mono (fun b _ hb => by rw [hb]) fun _ => id)

end Steps

/-! ## Particles -/

variable {limits : Limits} {s : Lowering}

theorem length_particles (limits : Limits) (ps : List Particle) (s : Lowering) :
    Ensures (particles limits ps) s (fun is _ => is.length = ps.length) fun _ => True := by
  induction ps generalizing s with
  | nil => exact ensures_pure rfl
  | cons p ps ih =>
    refine ensures_bind ((particle_spec limits p (ExpressionTable.apart_nil _)).mono
      (fun i s₁ _ => ?_) fun _ _ => trivial)
    refine ensures_bind ((ih s₁).mono (fun is s₂ his => ?_) fun _ => id)
    exact ensures_pure (congrArg Nat.succ his)

mutual
/-- A particle is lowered before what is below it on the stack. -/
theorem walk_cons (limits : Limits) : ∀ (p : Particle) (stack : List (Particle × Bool))
    (operands : List Nat), walk limits ((p, false) :: stack) operands =
      step (particle limits p) >>= fun i => walk limits stack (i :: operands)
  | .leaf l o, stack, operands => by
    rw [walk, particle, step_bind, bind_assoc]
    refine bind_congr fun _ => ?_
    split
    · rfl
    · simp only [step_bind, bind_assoc]
  | .group c ms o, stack, operands => by
    rw [walk, particle, step_bind, bind_assoc]
    refine bind_congr fun _ => ?_
    split
    · rfl
    · split
      · rfl
      · rw [walk_withMembers limits ms, step_bind, bind_assoc]
        refine step_bind_congr fun s => (length_particles limits ms s).mono (fun is _ hlen => ?_)
          fun _ => id
        have hrev : is.reverse.length = ms.length := by rw [List.length_reverse, hlen]
        rw [walk, if_neg (by rw [List.length_append]; omega), List.take_left' hrev,
          List.drop_left' hrev, List.reverse_reverse, step_bind, bind_assoc]

/-- Members are lowered in order, and their nodes are on top of the operands then. -/
theorem walk_withMembers (limits : Limits) : ∀ (ps : List Particle)
    (stack : List (Particle × Bool)) (operands : List Nat),
    walk limits (Particle.withMembers ps stack) operands =
      step (particles limits ps) >>= fun is => walk limits stack (is.reverse ++ operands)
  | [], stack, operands => rfl
  | p :: ps, stack, operands => by
    have hcons : Particle.withMembers (p :: ps) stack =
      (p, false) :: Particle.withMembers ps stack := rfl
    rw [hcons, walk_cons limits p, particles, step_bind, bind_assoc]
    refine bind_congr fun i => ?_
    rw [walk_withMembers limits ps]
    simp only [step_bind, step_pure, bind_assoc, pure_bind, List.reverse_cons, List.append_assoc,
      List.singleton_append]
end

/-- **Lowering with stacks is lowering by recursion.** -/
theorem walk_eq (limits : Limits) (p : Particle) :
    walk limits [(p, false)] [] = step (particle limits p) := by
  rw [walk_cons]
  simp only [walk, result, bind_pure]

/-! ## Copies -/

section Copies

variable {t : ExpressionTable} {i n f : Nat} {e : Expression} {stack : List (Nat × Bool)}
  {operands : List Nat}

theorem withParts_nil (e : Expression) : e.withParts [] = e := by cases e <;> rfl

/-- Copying a node, whatever its parts are. -/
theorem copyWithin_succ (fuel i : Nat) : copyWithin (fuel + 1) i =
    node i >>= fun e => e.parts.mapM (copyWithin fuel) >>= fun cs => add (e.withParts cs) := by
  rw [copyWithin]
  refine bind_congr fun e => ?_
  cases e <;> simp [Expression.parts, Expression.withParts]

/-- A table grows and the step does not fail. -/
def Appends {α : Type} (t : ExpressionTable) (x : LoweringM α) : Prop :=
  ∀ s : Lowering, t.Grows s.table →
    Ensures x s (fun _ s' => s.table.Grows s'.table) fun _ => False

theorem ensures_mapM {g : Nat → LoweringM Nat} {as : List Nat} (hg : ∀ a ∈ as, Appends t (g a))
    (hs : t.Grows s.table) : Ensures (as.mapM g) s
      (fun cs s' => s.table.Grows s'.table ∧ cs.length = as.length) fun _ => False := by
  induction as generalizing s with
  | nil => exact ensures_pure ⟨.refl _, rfl⟩
  | cons a as ih =>
    obtain ⟨ha, has⟩ := List.forall_mem_cons.mp hg
    rw [List.mapM_cons]
    refine ensures_bind ((ha s hs).mono (fun c s₁ h₁ => ?_) fun _ => id)
    refine ensures_bind ((ih has (hs.trans h₁)).mono (fun cs s₂ h₂ => ?_) fun _ => id)
    exact ensures_pure ⟨h₁.trans h₂.1, congrArg Nat.succ h₂.2⟩

theorem copyWithin_appends (ht : t.Ordered) (hf : i < f) (hi : i < t.size) :
    Appends t (copyWithin f i) := by
  induction f generalizing i with
  | zero => exact absurd hf (Nat.not_lt_zero i)
  | succ f ih =>
    intro s hs
    obtain ⟨e, he⟩ := ExpressionTable.exists_get hi
    rw [copyWithin_succ]
    refine ensures_bind (ensures_node (hs.get he) ?_)
    have hparts : ∀ a ∈ e.parts, Appends t (copyWithin f a) := fun a ha =>
      have hlt := ht i e he a ha
      ih (Nat.lt_of_lt_of_le hlt (Nat.le_of_lt_succ hf)) (hlt.trans hi)
    refine ensures_bind ((ensures_mapM hparts hs).mono (fun cs s₁ h₁ => ?_) fun _ => id)
    exact ensures_add (h₁.1.trans (ExpressionTable.grows_push _ _))

/-! ## Visits -/

variable {k : Nat}

theorem run_copyWalk_leaf (he : s.table.get i = .ok e) (hleaf : e.parts = []) :
    (copyWalk (k + 1) ((i, false) :: stack) operands).run.run s =
      (step (add e) >>= fun c => copyWalk k stack (c :: operands)).run.run s := by
  rw [copyWalk, run_step_bind, run_node he]
  simp [hleaf]

theorem run_copyWalk_first (he : s.table.get i = .ok e) (hleaf : e.parts ≠ []) :
    (copyWalk (k + 1) ((i, false) :: stack) operands).run.run s =
      (copyWalk k (e.parts.map (·, false) ++ (i, true) :: stack) operands).run.run s := by
  rw [copyWalk, run_step_bind, run_node he]
  simp [hleaf]

theorem run_copyWalk_second (he : s.table.get i = .ok e) {cs : List Nat}
    (hlen : cs.length = e.parts.length) :
    (copyWalk (k + 1) ((i, true) :: stack) (cs.reverse ++ operands)).run.run s =
      (step (add (e.withParts cs)) >>= fun c => copyWalk k stack (c :: operands)).run.run s := by
  have hrev : cs.reverse.length = e.parts.length := by rw [List.length_reverse, hlen]
  rw [copyWalk, run_step_bind, run_node he]
  dsimp only
  rw [if_pos rfl, if_neg (by rw [List.length_append]; omega), List.take_left' hrev,
    List.drop_left' hrev, List.reverse_reverse]

/-- After `n` visits, the node on top of the stack has been copied, and its copy is on top of the
operands. This holds for every table that has the nodes of `t`. -/
def CopiedIn (t : ExpressionTable) (i n : Nat) : Prop :=
  ∀ {f fuel : Nat} {s : Lowering} {stack : List (Nat × Bool)} {operands : List Nat}, i < f →
    t.Grows s.table → (copyWalk (n + fuel) ((i, false) :: stack) operands).run.run s =
      (step (copyWithin f i) >>= fun c => copyWalk fuel stack (c :: operands)).run.run s

/-- Nodes on top of the stack are copied in order. -/
theorem exists_copyWalk_parts (ht : t.Ordered) {as : List Nat} (hi : i ≤ t.size)
    (has : ∀ a ∈ as, a < i ∧ ∃ n, CopiedIn t a n) :
    ∃ n, ∀ {f fuel : Nat} {s : Lowering} {stack operands}, i ≤ f → t.Grows s.table →
      (copyWalk (n + fuel) (as.map (·, false) ++ stack) operands).run.run s =
        (step (as.mapM (copyWithin f)) >>= fun cs =>
          copyWalk fuel stack (cs.reverse ++ operands)).run.run s := by
  induction as with
  | nil => exact ⟨0, fun _ _ => by simp⟩
  | cons a as ih =>
    obtain ⟨⟨hlt, n, hn⟩, has⟩ := List.forall_mem_cons.mp has
    obtain ⟨m, hm⟩ := ih has
    refine ⟨n + m, fun {f fuel s stack operands} hf hs => ?_⟩
    have haf : a < f := Nat.lt_of_lt_of_le hlt hf
    rw [List.map_cons, List.cons_append, Nat.add_assoc, hn haf hs, List.mapM_cons]
    simp only [step_bind, step_pure, bind_assoc, pure_bind, List.reverse_cons, List.append_assoc,
      List.singleton_append]
    have hcopy := copyWithin_appends ht haf (Nat.lt_of_lt_of_le hlt hi) s hs
    exact run_step_bind_congr (hcopy.mono (fun c s₁ h₁ => hm hf (hs.trans h₁)) fun _ => False.elim)

/-- A node without parts is visited once, any other one before its parts and after them. -/
theorem exists_copiedIn (ht : t.Ordered) (hi : i < t.size) : ∃ n, CopiedIn t i n := by
  induction i using Nat.strong_induction_on with
  | _ i ih =>
    obtain ⟨e, he⟩ := ExpressionTable.exists_get hi
    have hparts : ∀ a ∈ e.parts, a < i ∧ ∃ n, CopiedIn t a n := fun a ha =>
      have hlt := ht i e he a ha
      ⟨hlt, ih a hlt (hlt.trans hi)⟩
    have hnode {f s} (hs : t.Grows s.table) : (copyWithin (f + 1) i).run.run s =
        (e.parts.mapM (copyWithin f) >>= fun cs => add (e.withParts cs)).run.run s := by
      rw [copyWithin_succ, run_bind, run_node (hs.get he)]
    by_cases hleaf : e.parts = []
    · refine ⟨1, fun {f fuel s stack operands} hf hs => ?_⟩
      obtain ⟨f, rfl⟩ := Nat.exists_eq_succ_of_ne_zero (Nat.ne_zero_of_lt hf)
      rw [Nat.add_comm, run_copyWalk_leaf (hs.get he) hleaf, run_step_bind, run_step_bind,
        hnode hs, hleaf, List.mapM_nil, pure_bind, withParts_nil]
    · obtain ⟨n, hn⟩ := exists_copyWalk_parts ht hi.le hparts
      refine ⟨n + 2, fun {f fuel s stack operands} hf hs => ?_⟩
      obtain ⟨f, rfl⟩ := Nat.exists_eq_succ_of_ne_zero (Nat.ne_zero_of_lt hf)
      have hall : ∀ a ∈ e.parts, Appends t (copyWithin f a) := fun a ha =>
        have hlt := (hparts a ha).1
        copyWithin_appends ht (Nat.lt_of_lt_of_le hlt (Nat.le_of_lt_succ hf)) (hlt.trans hi)
      have hvisits : n + 2 + fuel = n + (fuel + 1) + 1 := by omega
      calc (copyWalk (n + 2 + fuel) ((i, false) :: stack) operands).run.run s
          = (copyWalk (n + (fuel + 1)) (e.parts.map (·, false) ++ (i, true) :: stack)
              operands).run.run s := by rw [hvisits, run_copyWalk_first (hs.get he) hleaf]
        _ = (step (e.parts.mapM (copyWithin f)) >>= fun cs =>
              copyWalk (fuel + 1) ((i, true) :: stack) (cs.reverse ++ operands)).run.run s :=
            hn (Nat.le_of_lt_succ hf) hs
        _ = (step (e.parts.mapM (copyWithin f)) >>= fun cs => step (add (e.withParts cs)) >>=
              fun c => copyWalk fuel stack (c :: operands)).run.run s :=
            run_step_bind_congr ((ensures_mapM hall hs).mono
              (fun cs s₁ h => run_copyWalk_second ((hs.trans h.1).get he) h.2) fun _ => False.elim)
        _ = (step (copyWithin (f + 1) i) >>= fun c =>
              copyWalk fuel stack (c :: operands)).run.run s := by
            rw [← bind_assoc, ← step_bind, run_step_bind, run_step_bind, hnode hs]

/-- **Copying with stacks is copying by recursion**, and does not fail where parts precede their
nodes. -/
theorem exists_copyWalk_eq (hs : s.table.Ordered) (hi : i < s.table.size) :
    ∃ n c s', (copy i).run.run s = (.ok c, s') ∧
      ∀ fuel ≥ n, (copyWalk fuel [(i, false)] []).run.run s = (.ok c, s') := by
  obtain ⟨n, hn⟩ := exists_copiedIn hs hi
  have hcopy : Ensures (copy i) s (fun _ s' => s.table.Grows s'.table) fun _ => False :=
    copyWithin_appends hs (Nat.lt_succ_self i) hi s (.refl _)
  unfold Ensures at hcopy
  rcases hrun : (copy i).run.run s with ⟨f | c, s'⟩
  · rw [hrun] at hcopy
    exact hcopy.elim
  · refine ⟨n + 1, c, s', rfl, fun fuel hfuel => ?_⟩
    obtain ⟨k, rfl⟩ := Nat.exists_eq_add_of_le hfuel
    have hrun' : (copyWithin (i + 1) i).run.run s = (.ok c, s') := hrun
    rw [Nat.add_assoc, hn (Nat.lt_succ_self i) (.refl _), run_step_bind, hrun', Nat.add_comm]
    rfl

end Copies

end Lowering

end MarkupGrammar
