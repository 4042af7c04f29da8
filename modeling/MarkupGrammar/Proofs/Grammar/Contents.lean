import Mathlib.Algebra.GroupWithZero.Nat
import MarkupGrammar.Grammar.Draft
import MarkupGrammar.Proofs.Content.WellFormed

/-! # The contents of all elements

The contents of a draft are compiled one after the other into one table. That none of them is at
fault does not depend on their order: each has to compile alone, and together they may not have more
nodes than the limit allows (`exists_compileContents_empty_iff`). Each is then the one that is
compiled alone, up to the number of its expression (`forall₂_shift_of_compileContents`), and has no
loose ends in the table of all (`sound_compileContents`). -/

namespace MarkupGrammar

namespace ContentDraft

variable {c : Option Comparator} {limits : Limits} {d : ContentDraft} {p : Particle} {f : Failure}

/-! ## One content -/

theorem of_compileParticle_eq_error
    (h : ((compileParticle c limits p).run.run {}).1 = .error f) : ∃ cause, f = .ofCause cause := by
  cases hp : p.isAll with
  | true =>
    rw [run_compileParticle_all hp] at h
    cases hg : AllGroup.ofParticle c p with
    | error cause =>
      rw [hg] at h
      exact ⟨cause, (Except.error.inj h).symm⟩
    | ok g =>
      rw [hg] at h
      exact nomatch h
  | false =>
    have hspec := compileParticle_spec (c := c) limits hp {}
    unfold Lowering.Ensures at hspec
    split at hspec
    · rename_i hr
      rw [hr] at h
      exact nomatch h
    · rename_i hr
      rw [hr] at h
      obtain rfl := Except.error.inj h
      rcases hspec with (⟨cause, h, -⟩ | ⟨cause, h, -⟩ | ⟨-, cause, h, -⟩) | ⟨⟨cause, h, -⟩, -⟩ <;>
        exact ⟨cause, h⟩

theorem of_compile_empty_eq_error (h : ((d.compile c limits).run.run {}).1 = .error f) :
    ∃ cause, f = .ofCause cause := by
  cases compiledBy c limits d with
  | failed cause nodes run =>
    rw [run] at h
    exact ⟨cause, (Except.error.inj h).symm⟩
  | fixed category m flat nodes run =>
    rw [run] at h
    exact nomatch h
  | particle p category f' model nodes run =>
    rw [run] at h
    cases hr : ((compileParticle c limits p).run.run {}).1 with
    | ok r =>
      rw [hr] at h
      exact nomatch h
    | error e =>
      rw [hr] at h
      obtain rfl := Except.error.inj h
      exact of_compileParticle_eq_error hr

/-- Content that is not compiled has one fault. -/
theorem of_compile_eq_error {b : Lowering} (h : ((d.compile c limits).run.run b).1 = .error f) :
    ∃ cause, f = .ofCause cause := by
  rw [compile_behind] at h
  unfold orExcess at h
  split at h
  · exact ⟨_, (Except.error.inj h).symm⟩
  · cases hd : ((d.compile c limits).run.run {}).1 with
    | ok content =>
      rw [hd] at h
      exact nomatch h
    | error f' =>
      rw [hd] at h
      obtain rfl := Except.error.inj h
      exact of_compile_empty_eq_error hd

/-- The number of nodes that compiling content appends to a table. -/
def nodesAdded (c : Option Comparator) (limits : Limits) (d : ContentDraft) : Nat :=
  ((d.compile c limits).run.run {}).2.table.size

/-- The nodes that are counted of a particle are those that compiling it appends. -/
theorem nodeCount?_of_compileParticle {r : Model × Option Nat}
    (h : ((compileParticle c limits p).run.run {}).1 = .ok r) :
    (p.nodeCount? limits = none ∧ ((compileParticle c limits p).run.run {}).2.table.size = 0) ∨
      (p.nodeCount? limits = some ((compileParticle c limits p).run.run {}).2.table.size ∧
        0 < ((compileParticle c limits p).run.run {}).2.table.size) := by
  unfold Particle.nodeCount?
  cases hp : p.isAll with
  | true =>
    rw [run_compileParticle_all hp]
    exact .inl ⟨rfl, rfl⟩
  | false =>
    obtain ⟨-, -, hplace⟩ := Lowering.particle_follows (b := {}) limits p (s := {}) .empty
    rw [Lowering.behind_empty] at hplace
    rw [run_compileParticle hp] at h ⊢
    rcases hl : (Lowering.particle limits p).run.run {} with ⟨f | i, s⟩
    · rw [hl] at h
      exact nomatch h
    · rw [hl] at hplace
      exact .inr ⟨rfl, Nat.zero_lt_of_lt hplace.lt_size⟩

theorem nodeCount?_of_compile {content : Content}
    (h : ((d.compile c limits).run.run {}).1 = .ok content) :
    (d.nodeCount? limits = none ∧ d.nodesAdded c limits = 0) ∨
      (d.nodeCount? limits = some (d.nodesAdded c limits) ∧ 0 < d.nodesAdded c limits) := by
  unfold nodesAdded
  cases compiledBy c limits d with
  | failed cause nodes run =>
    rw [run] at h
    exact nomatch h
  | fixed category m flat nodes run =>
    rw [run]
    exact .inl ⟨nodes, rfl⟩
  | particle p category f model nodes run =>
    rw [run] at h ⊢
    rw [nodes]
    obtain ⟨r, hr, -⟩ := of_map_eq_ok h
    exact nodeCount?_of_compileParticle hr

/-- Content that compiles alone has room behind other nodes if there is room for its own. -/
theorem excess?_eq_none_iff {content : Content} {before : Nat}
    (h : ((d.compile c limits).run.run {}).1 = .ok content) :
    excess? limits before (d.nodeCount? limits) = none ↔
      d.nodesAdded c limits = 0 ∨ before + d.nodesAdded c limits ≤ limits.maxNodes := by
  unfold excess?
  rcases nodeCount?_of_compile h with ⟨hn, hadded⟩ | ⟨hn, hadded⟩
  · rw [hn, hadded]
    exact iff_of_true rfl (.inl rfl)
  · rw [hn, Option.bind_some]
    split
    · exact iff_of_false (fun h => nomatch h) (by omega)
    · exact iff_of_true rfl (by omega)

theorem orExcess_eq_ok_iff {α : Type} {excess? : Option Limits.Excess} {r : Except Failure α}
    {x : α} : orExcess excess? r = .ok x ↔ excess? = none ∧ r = .ok x := by
  cases excess? with
  | some e => exact iff_of_false (fun h => nomatch h) (fun h => nomatch h.1)
  | none => exact ⟨fun h => ⟨rfl, h⟩, fun h => h.2⟩

/-- **Content compiles behind other nodes** if it compiles alone and there is room for its own. -/
theorem compile_behind_eq_ok_iff {b : Lowering} {content : Content} :
    ((d.compile c limits).run.run b).1 = .ok content ↔
      ∃ alone, ((d.compile c limits).run.run {}).1 = .ok alone ∧
        (d.nodesAdded c limits = 0 ∨ b.table.size + d.nodesAdded c limits ≤ limits.maxNodes) ∧
        content = alone.shift b.table.size := by
  rw [compile_behind, orExcess_eq_ok_iff]
  constructor
  · rintro ⟨hexcess, h⟩
    obtain ⟨alone, halone, rfl⟩ := of_map_eq_ok h
    exact ⟨alone, halone, (excess?_eq_none_iff halone).mp hexcess, rfl⟩
  · rintro ⟨alone, halone, hroom, rfl⟩
    exact ⟨(excess?_eq_none_iff halone).mpr hroom, by rw [halone]; rfl⟩

end ContentDraft

/-! ## Soundness behind other nodes -/

theorem Content.Sound.mono {t t' : ExpressionTable} {content : Content} (h : content.Sound t)
    (ht : t.size ≤ t'.size) : content.Sound t' :=
  ⟨fun i hi => (h.root_lt i hi).trans_le ht, h.wellFormed, h.unbound⟩

theorem Content.Sound.shift {b s : Lowering} {content : Content} (h : content.Sound s.table) :
    (content.shift b.table.size).Sound (b.behind s).table := by
  refine ⟨fun i hi => ?_, h.wellFormed, h.unbound⟩
  obtain ⟨j, hj, rfl⟩ := Option.map_eq_some_iff.mp hi
  rw [Lowering.size_behind]
  exact Nat.add_lt_add_left (h.root_lt j hj) _

theorem ExpressionTable.Ordered.behind {b s : Lowering} (hb : b.table.Ordered)
    (hs : s.table.Ordered) : (b.behind s).table.Ordered := by
  intro i e h a ha
  rw [get_eq_ok] at h
  unfold Lowering.behind at h
  dsimp only at h
  by_cases hi : i < b.table.nodes.size
  · rw [Array.getElem?_append_left hi] at h
    exact hb i e (get_eq_ok.2 h) a ha
  · have hle : b.table.size ≤ i := Nat.not_lt.mp hi
    rw [Array.getElem?_append_right hle, Array.getElem?_map] at h
    obtain ⟨x, hx, rfl⟩ := Option.map_eq_some_iff.mp h
    rw [Expression.parts_shift] at ha
    obtain ⟨j, hj, rfl⟩ := List.mem_map.mp ha
    have hlt : j < i - b.table.size := hs _ x (get_eq_ok.2 hx) j hj
    omega

namespace GrammarDraft

variable {c : Option Comparator} {limits : Limits} {t t' : ExpressionTable} {d : ElementDraft}
  {ds : List ElementDraft} {contents : List Content}

/-! ## All contents -/

/-- The state from which the content of the next element is compiled. -/
def after (c : Option Comparator) (limits : Limits) (t : ExpressionTable) (d : ElementDraft) :
    Lowering :=
  Lowering.behind { table := t } ((d.content.compile c limits).run.run {}).2

theorem size_after : (after c limits t d).table.size = t.size + d.content.nodesAdded c limits := by
  unfold after
  rw [Lowering.size_behind]
  rfl

theorem compileContents_cons_of_ok {content : Content} {s : Lowering}
    (h : (d.content.compile c limits).run.run { table := t } = (.ok content, s)) :
    compileContents c limits t (d :: ds) =
      (compileContents c limits s.table ds).map fun r => (content :: r.1, r.2) := by
  rw [compileContents, h]
  dsimp only [Failure.ofCause, pure, Except.pure, bind, Except.bind]
  cases compileContents c limits s.table ds <;> rfl

theorem compileContents_cons_of_error {cause : Fault.Cause} {s : Lowering}
    (h : (d.content.compile c limits).run.run { table := t } = (.error (.ofCause cause), s)) :
    compileContents c limits t (d :: ds) =
      (compileContents c limits s.table ds).map fun r =>
        ({} :: r.1, r.2.1, Fault.within ⟨cause, none⟩ (.element d.name) :: r.2.2) := by
  rw [compileContents, h]
  dsimp only [Failure.ofCause, pure, Except.pure, bind, Except.bind]
  cases compileContents c limits s.table ds <;> rfl

/-- The first of the contents is compiled alone and moved behind the nodes that are there. -/
theorem compileContents_cons_eq_ok_iff :
    compileContents c limits t (d :: ds) = .ok (contents, t', []) ↔
      ∃ alone rest, ((d.content.compile c limits).run.run {}).1 = .ok alone ∧
        (d.content.nodesAdded c limits = 0 ∨
          t.size + d.content.nodesAdded c limits ≤ limits.maxNodes) ∧
        compileContents c limits (after c limits t d).table ds = .ok (rest, t', []) ∧
        contents = alone.shift t.size :: rest := by
  have hstate : ((d.content.compile c limits).run.run { table := t }).2 = after c limits t d := by
    rw [ContentDraft.compile_behind]
    rfl
  have hok (content : Content) :
      ((d.content.compile c limits).run.run { table := t }).1 = .ok content ↔
        ∃ alone, ((d.content.compile c limits).run.run {}).1 = .ok alone ∧
          (d.content.nodesAdded c limits = 0 ∨
            t.size + d.content.nodesAdded c limits ≤ limits.maxNodes) ∧
          content = alone.shift t.size := ContentDraft.compile_behind_eq_ok_iff
  rcases hr : (d.content.compile c limits).run.run { table := t } with ⟨f | content, s⟩
  · rw [hr] at hok
    obtain ⟨cause, rfl⟩ := ContentDraft.of_compile_eq_error (congrArg Prod.fst hr)
    rw [compileContents_cons_of_error hr]
    constructor
    · intro h
      obtain ⟨r, -, h⟩ := of_map_eq_ok h
      exact nomatch congrArg (·.2.2) h
    · rintro ⟨alone, rest, halone, hroom, -, -⟩
      exact nomatch (hok _).mpr ⟨alone, halone, hroom, rfl⟩
  · rw [hr] at hok hstate
    obtain rfl : s = after c limits t d := hstate
    rw [compileContents_cons_of_ok hr]
    constructor
    · intro h
      obtain ⟨⟨rest, t'', faults⟩, hrest, heq⟩ := of_map_eq_ok h
      obtain ⟨rfl, hothers⟩ := Prod.mk.inj heq
      obtain ⟨rfl, rfl⟩ := Prod.mk.inj hothers
      obtain ⟨alone, halone, hroom, rfl⟩ := (hok content).mp rfl
      exact ⟨alone, rest, halone, hroom, hrest, rfl⟩
    · rintro ⟨alone, rest, halone, hroom, hrest, rfl⟩
      obtain rfl := Except.ok.inj ((hok _).mpr ⟨alone, halone, hroom, rfl⟩)
      rw [hrest]
      rfl

/-- The number of nodes of all contents. -/
def nodesAdded (c : Option Comparator) (limits : Limits) (ds : List ElementDraft) : Nat :=
  (ds.map (·.content.nodesAdded c limits)).sum

/-- Contents without nodes are compiled however large the table is. -/
theorem exists_compileContents_iff :
    (∃ contents t', compileContents c limits t ds = .ok (contents, t', [])) ↔
      (∀ d ∈ ds, ((d.content.compile c limits).run.run {}).1.isOk) ∧
        (nodesAdded c limits ds = 0 ∨ t.size + nodesAdded c limits ds ≤ limits.maxNodes) := by
  induction ds generalizing t with
  | nil => exact iff_of_true ⟨[], t, rfl⟩ ⟨fun _ h => (nomatch h), .inl rfl⟩
  | cons d ds ih =>
    have hadded : nodesAdded c limits (d :: ds) =
        d.content.nodesAdded c limits + nodesAdded c limits ds := List.sum_cons
    have ih := ih (t := (after c limits t d).table)
    rw [size_after] at ih
    rw [List.forall_mem_cons, hadded]
    constructor
    · rintro ⟨contents, t', h⟩
      obtain ⟨alone, rest, halone, hroom, hrest, -⟩ := compileContents_cons_eq_ok_iff.mp h
      obtain ⟨hothers, hfit⟩ := ih.mp ⟨rest, t', hrest⟩
      exact ⟨⟨by rw [halone]; rfl, hothers⟩, by omega⟩
    · rintro ⟨⟨halone, hothers⟩, hfit⟩
      obtain ⟨rest, t', hrest⟩ := ih.mpr ⟨hothers, by omega⟩
      cases hd : ((d.content.compile c limits).run.run {}).1 with
      | error f =>
        rw [hd] at halone
        exact nomatch halone
      | ok alone =>
        exact ⟨_, t', compileContents_cons_eq_ok_iff.mpr
          ⟨alone, rest, hd, by omega, hrest, rfl⟩⟩

/-- **Contents compile without faults** exactly if each compiles alone and all their nodes together
are within the limit. -/
theorem exists_compileContents_empty_iff :
    (∃ contents t', compileContents c limits {} ds = .ok (contents, t', [])) ↔
      (∀ d ∈ ds, ((d.content.compile c limits).run.run {}).1.isOk) ∧
        nodesAdded c limits ds ≤ limits.maxNodes := by
  have hsize : ({} : ExpressionTable).size = 0 := rfl
  rw [exists_compileContents_iff, hsize]
  exact and_congr_right fun _ => by omega

/-- Each of the contents is the one that is compiled alone, up to the number of its expression. -/
theorem forall₂_shift_of_compileContents
    (h : compileContents c limits t ds = .ok (contents, t', [])) :
    List.Forall₂ (fun d content => ∃ alone n,
      ((d.content.compile c limits).run.run {}).1 = .ok alone ∧ content = alone.shift n)
      ds contents := by
  induction ds generalizing t contents with
  | nil =>
    obtain ⟨rfl, -⟩ := Prod.mk.inj (Except.ok.inj h)
    exact .nil
  | cons d ds ih =>
    obtain ⟨alone, rest, halone, -, hrest, rfl⟩ := compileContents_cons_eq_ok_iff.mp h
    exact .cons ⟨alone, t.size, halone, rfl⟩ (ih hrest)

/-- **The contents have no loose ends** in the table of all of them, where parts precede wholes. -/
theorem sound_compileContents (ht : t.Ordered)
    (h : compileContents c limits t ds = .ok (contents, t', [])) :
    t'.Ordered ∧ t.size ≤ t'.size ∧ ∀ content ∈ contents, content.Sound t' := by
  induction ds generalizing t contents with
  | nil =>
    obtain ⟨rfl, htable⟩ := Prod.mk.inj (Except.ok.inj h)
    obtain ⟨rfl, -⟩ := Prod.mk.inj htable
    exact ⟨ht, Nat.le_refl _, fun _ h => (nomatch h)⟩
  | cons d ds ih =>
    obtain ⟨alone, rest, halone, -, hrest, rfl⟩ := compileContents_cons_eq_ok_iff.mp h
    obtain ⟨hordered, hsound⟩ := ContentDraft.sound_compile_empty c limits d.content
    have hbehind : (after c limits t d).table.Ordered :=
      ExpressionTable.Ordered.behind (b := { table := t }) ht hordered
    obtain ⟨hlast, hle, hothers⟩ := ih hbehind hrest
    have hgrown : t.size ≤ (after c limits t d).table.size := by
      rw [size_after]
      exact Nat.le_add_right _ _
    refine ⟨hlast, hgrown.trans hle, List.forall_mem_cons.mpr ⟨?_, hothers⟩⟩
    exact ((hsound alone halone).shift (b := { table := t })).mono hle

end GrammarDraft

end MarkupGrammar
