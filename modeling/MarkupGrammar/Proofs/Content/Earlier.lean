import MarkupGrammar.Proofs.Compilation
import MarkupGrammar.Proofs.Lowering.Behind

/-! # Content compiled after other content

Contents are compiled one after the other into one table, where also those that fail may leave nodes
behind. What is compiled does not depend on what was before, apart from the numbers of nodes and
particles, with one exception: the maximum of nodes is not that of one expression, as it is
compared with the size of the whole table. So a particle that is lowered is refused for the nodes
before it (`ContentDraft.compile_behind`, `ContentDraft.compile_after`).

The automaton is made of an expression that stands for a tree, so its survey succeeds; all-groups,
and content without elements, do not use the table. -/

namespace MarkupGrammar

/-- The content with the number of its expression moved by `n`. -/
def Content.shift (n : Nat) (content : Content) : Content :=
  { content with expression? := content.expression?.map (n + ·) }

/-- The number of nodes that a particle is lowered to, if it is lowered with success; an all-group
is not lowered. -/
def Particle.nodeCount? (limits : Limits) (p : Particle) : Option Nat :=
  if p.isAll then none
  else match (Lowering.particle limits p).run.run {} with
    | (.ok _, s) => some s.table.size
    | (.error _, _) => none

/-- The model is neither an automaton nor an all-group. -/
def Model.IsFlat : Model → Prop
  | .children _ | .all _ => False
  | .mixed symbols => ∃ ls, symbols = Symbol.ofLeaves ls
  | .empty | .any | .simple => True

namespace ContentDraft

variable {c : Option Comparator} {limits : Limits} {p : Particle} {b s : Lowering}

/-- The number of nodes that content is lowered to, if it is lowered with success. -/
def nodeCount? (limits : Limits) : ContentDraft → Option Nat
  | children p | mixedComplex (some p) => p.nodeCount? limits
  | _ => none

/-- The excess that content is refused for behind `before` nodes, if its own do not fit there. -/
def excess? (limits : Limits) (before : Nat) (nodes? : Option Nat) : Option Limits.Excess :=
  nodes?.bind fun n =>
    if limits.maxNodes < before + n then some ⟨.nodes, before + n, limits.maxNodes⟩ else none

/-- What is refused for the nodes before it, or else what is compiled without them. -/
def orExcess {α : Type} (excess? : Option Limits.Excess) (result : Except Failure α) :
    Except Failure α :=
  match excess? with
  | some excess => .error (.ofCause (.limit excess))
  | none => result

/-- The model of a root that was lowered to node `i`. -/
def modelOf (c : Option Comparator) (limits : Limits) (t : ExpressionTable) (i : Nat) :
    Except Failure (Model × Option Nat) :=
  if limits.maxNodes < t.size then
    .error (.ofCause (.limit ⟨.nodes, t.size, limits.maxNodes⟩))
  else (t.automaton c limits i).map fun a => (.children a, some i)

theorem of_modelOf_eq_ok {t : ExpressionTable} {i : Nat} {r : Model × Option Nat}
    (h : modelOf c limits t i = .ok r) :
    ∃ a, t.automaton c limits i = .ok a ∧ r = (.children a, some i) := by
  unfold modelOf at h
  split at h
  · exact nomatch h
  · cases ha : t.automaton c limits i with
    | error f =>
      rw [ha] at h
      exact nomatch h
    | ok a =>
      rw [ha] at h
      exact ⟨a, rfl, (Except.ok.inj h).symm⟩

/-- Compiling a particle other than an all-group, by the outcome of lowering. -/
theorem run_compileParticle (hp : p.isAll = false) (s : Lowering) :
    (compileParticle c limits p).run.run s =
      match (Lowering.particle limits p).run.run s with
      | (.ok i, s') => (modelOf c limits s'.table i, s')
      | (.error f, s') => (.error f, s') := by
  unfold compileParticle Lowering.root
  rw [if_neg (by simp [hp])]
  simp only [bind_assoc]
  rw [Lowering.run_bind]
  rcases (Lowering.particle limits p).run.run s with ⟨f | i, s'⟩
  · rfl
  · dsimp only
    rw [Lowering.run_bind, Lowering.run_get]
    dsimp only
    unfold modelOf
    by_cases hmax : limits.maxNodes < s'.table.size
    · have hcheck : limits.check .nodes s'.table.size =
          .error ⟨.nodes, s'.table.size, limits.maxNodes⟩ := if_pos hmax
      rw [if_pos hmax, hcheck]
      rfl
    · have hcheck : limits.check .nodes s'.table.size = .ok () := if_neg hmax
      have hrequire : Lowering.require Fault.Cause.limit (.ok () : Except Limits.Excess Unit) =
          pure () := rfl
      rw [if_neg hmax, hcheck, hrequire, pure_bind, pure_bind, Lowering.run_bind, Lowering.run_get]
      dsimp only
      cases s'.table.automaton c limits i <;> rfl

/-- What lowering a particle makes behind `b` is what it makes in an empty table, shifted. -/
theorem run_particle_behind (limits : Limits) (p : Particle) (b : Lowering) :
    (Lowering.particle limits p).run.run b =
      (((Lowering.particle limits p).run.run {}).1.map (b.table.size + ·),
        b.behind ((Lowering.particle limits p).run.run {}).2) := by
  obtain ⟨-, hs, h⟩ := Lowering.particle_follows (b := b) limits p (s := {}) .empty
  rw [Lowering.behind_empty] at hs h
  refine Prod.ext ?_ hs
  split at h
  · rename_i i j hi hj
    rw [hi, hj, h.eq]
    rfl
  · rename_i f f' hf hf'
    rw [hf, hf', h]
    rfl
  · exact h.elim

/-- The model of a root does not depend on the nodes before, as long as they fit. -/
theorem modelOf_behind {i : Nat} (hi : (Lowering.particle limits p).run.run {} = (.ok i, s))
    (hfits : ¬ limits.maxNodes < b.table.size + s.table.size) :
    modelOf c limits (b.behind s).table (b.table.size + i) =
      (modelOf c limits s.table i).map fun r => (r.1, r.2.map (b.table.size + ·)) := by
  have hspec := Lowering.particle_spec limits p (s := {}) (ExpressionTable.apart_nil _)
  unfold Lowering.Ensures at hspec
  rw [hi] at hspec
  obtain ⟨ns, hns, hnodup⟩ := hspec.2.apart.holds
  obtain ⟨f, survey, hrun, -⟩ := Survey.run_tree hns hnodup
  have hle : s.table.size ≤ (b.behind s).table.size := by
    rw [Lowering.size_behind]
    exact Nat.le_add_left _ _
  unfold modelOf
  rw [ExpressionTable.automaton_shift (Lowering.shifted_behind b s) hle hrun, Lowering.size_behind,
    if_neg hfits, if_neg fun h => hfits (Nat.lt_of_lt_of_le h (Nat.le_add_left _ _))]
  cases s.table.automaton c limits i <;> rfl

/-- The model of an all-group is made without the table. -/
theorem run_compileParticle_all (hp : p.isAll = true) (s : Lowering) :
    (compileParticle c limits p).run.run s =
      (((AllGroup.ofParticle c p).mapError Failure.ofCause).map fun g => (.all g, none), s) := by
  unfold compileParticle
  rw [if_pos hp]
  cases AllGroup.ofParticle c p <;> rfl

theorem run_compileParticle_behind (p : Particle) (b : Lowering) :
    (compileParticle c limits p).run.run b =
      (orExcess (excess? limits b.table.size (p.nodeCount? limits))
          (((compileParticle c limits p).run.run {}).1.map fun r =>
            (r.1, r.2.map (b.table.size + ·))),
        b.behind ((compileParticle c limits p).run.run {}).2) := by
  unfold Particle.nodeCount?
  cases hp : p.isAll with
  | true =>
    rw [run_compileParticle_all hp, run_compileParticle_all hp, Lowering.behind_empty]
    cases AllGroup.ofParticle c p <;> rfl
  | false =>
    rw [run_compileParticle hp, run_compileParticle hp, run_particle_behind,
      if_neg Bool.false_ne_true]
    unfold excess? orExcess
    rcases h : (Lowering.particle limits p).run.run {} with ⟨f | i, s⟩
    · rfl
    · simp only [Except.map, Option.bind_some]
      by_cases hmax : limits.maxNodes < b.table.size + s.table.size
      · rw [if_pos hmax]
        unfold modelOf
        rw [Lowering.size_behind, if_pos hmax]
      · rw [if_neg hmax, modelOf_behind h hmax]
        rfl

theorem run_map {α β : Type} (f : α → β) (x : LoweringM α) (s : Lowering) :
    (do let v ← x; return f v : LoweringM β).run.run s =
      ((x.run.run s).1.map f, (x.run.run s).2) := by
  rw [Lowering.run_bind]
  rcases x.run.run s with ⟨e | v, s'⟩ <;> rfl

/-- How a draft is compiled: without the table, or by compiling a particle. -/
inductive CompiledBy (c : Option Comparator) (limits : Limits) (d : ContentDraft) : Prop where
  | failed (cause : Fault.Cause) (nodes : d.nodeCount? limits = none)
      (run : ∀ s, (d.compile c limits).run.run s = (.error (.ofCause cause), s))
  | fixed (category : Category) (m : Model) (flat : m.IsFlat)
      (nodes : d.nodeCount? limits = none)
      (run : ∀ s, (d.compile c limits).run.run s = (.ok { category, model := m }, s))
  /-- The model is that of the particle, or made of its leaves. -/
  | particle (p : Particle) (category : Category) (f : Model → Model)
      (model : ∀ m, f m = m ∨ (f m).IsFlat) (nodes : d.nodeCount? limits = p.nodeCount? limits)
      (run : ∀ s, (d.compile c limits).run.run s =
        (((compileParticle c limits p).run.run s).1.map fun r =>
            { category, model := f r.1, expression? := r.2 },
          ((compileParticle c limits p).run.run s).2))

theorem compiledBy (c : Option Comparator) (limits : Limits) (d : ContentDraft) :
    CompiledBy c limits d := by
  cases d with
  | empty => exact .fixed .empty .empty trivial rfl fun _ => rfl
  | any => exact .fixed .any .any trivial rfl fun _ => rfl
  | simple type => exact .fixed .simple .simple trivial rfl fun _ => rfl
  | mixedSimple names =>
    cases hn : firstRepeated? [] names with
    | some n =>
      refine .failed (.duplicateMixed n) rfl fun s => ?_
      unfold compile
      dsimp only
      rw [hn]
      rfl
    | none =>
      refine .fixed .mixedSimple (.mixed _) ⟨names.map .element, rfl⟩ rfl fun s => ?_
      unfold compile
      dsimp only
      rw [hn]
      rfl
  | mixedComplex p? =>
    cases p? with
    | none => exact .fixed .mixedComplex (.mixed []) ⟨[], rfl⟩ rfl fun _ => rfl
    | some p =>
      exact .particle p .mixedComplex (fun _ => .mixed (Symbol.ofLeaves p.leaves))
        (fun _ => .inr ⟨p.leaves, rfl⟩) rfl fun s => run_map _ _ s
  | children p => exact .particle p .children id (fun _ => .inl rfl) rfl fun s => run_map _ _ s

/-! ## Content after other content -/

/-- **Content compiled from any state**: unless it is refused for the nodes that are there, the
result is that from an empty table, and what is added are the same nodes; only the numbers of nodes
and particles are moved. -/
theorem compile_behind (c : Option Comparator) (limits : Limits) (b : Lowering) (d : ContentDraft) :
    (d.compile c limits).run.run b =
      (orExcess (excess? limits b.table.size (d.nodeCount? limits))
          (((d.compile c limits).run.run {}).1.map (Content.shift b.table.size)),
        b.behind ((d.compile c limits).run.run {}).2) := by
  cases compiledBy c limits d with
  | failed cause nodes run =>
    rw [run, run, nodes, Lowering.behind_empty]
    rfl
  | fixed category m flat nodes run =>
    rw [run, run, nodes, Lowering.behind_empty]
    rfl
  | particle p category f model nodes run =>
    rw [run, run, nodes, run_compileParticle_behind]
    dsimp only
    unfold orExcess
    cases excess? limits b.table.size (p.nodeCount? limits) with
    | some e => rfl
    | none => cases ((compileParticle c limits p).run.run {}).1 <;> rfl

/-- The state after contents have been compiled in order, those that fail included. -/
def compileAll (c : Option Comparator) (limits : Limits) (ds : List ContentDraft) : Lowering :=
  ds.foldl (fun s d => ((d.compile c limits).run.run s).2) {}

/-- **Content compiled after other content** gives what it gives alone, with the numbers of nodes
and particles moved behind those before it, unless it is lowered to more nodes than the maximum
leaves room for. -/
theorem compile_after (c : Option Comparator) (limits : Limits) (before : List ContentDraft)
    (d : ContentDraft) :
    ((d.compile c limits).run.run (compileAll c limits before)).2 =
        (compileAll c limits before).behind ((d.compile c limits).run.run {}).2 ∧
      ((d.compile c limits).run.run (compileAll c limits before)).1 =
        orExcess (excess? limits (compileAll c limits before).table.size (d.nodeCount? limits))
          (((d.compile c limits).run.run {}).1.map
            (Content.shift (compileAll c limits before).table.size)) := by
  rw [compile_behind]
  exact ⟨rfl, rfl⟩

/-- An element that is compiled alone is refused after another one, if there may be one node. -/
theorem compile_refused_after :
    let d : ContentDraft := .children (.leaf (.element (.unqualified "a")) .once)
    let limits : Limits := { maxNodes := 1 }
    ((d.compile none limits).run.run {}).1.isOk ∧
      ((d.compile none limits).run.run (compileAll none limits [d])).1 =
        .error (.ofCause (.limit ⟨.nodes, 2, 1⟩)) := by
  decide +kernel

end ContentDraft

end MarkupGrammar
