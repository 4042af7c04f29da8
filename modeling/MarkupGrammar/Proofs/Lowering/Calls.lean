import MarkupGrammar.Proofs.Automaton.Table
import MarkupGrammar.Proofs.Content.Earlier
import MarkupGrammar.Proofs.Expression.Writing
import MarkupGrammar.Proofs.Lowering.Forest
import MarkupGrammar.Proofs.Lowering.Stack

/-! # Calls for one table

Particles are lowered and contents are compiled into one table, in any order. Any of these calls may
fail midway, or break off as there is no room for another node. The table stays a forest with
numbered leaves, in which the nodes that calls have returned stand for trees. So no later use of
such a node finds a defect, and none is found by the calls themselves (`isForest_of_reached`).

Each call starts over with no loose nodes: those that a failed one has left are not used again. -/

namespace MarkupGrammar

/-- The leaves that are lowered to compile the particle. An all-group is not lowered. -/
def Particle.compiledLeaves (p : Particle) : List Leaf := if p.isAll then [] else p.openLeaves

/-- The leaves that are lowered to compile the content. -/
def ContentDraft.compiledLeaves : ContentDraft → List Leaf
  | children p | mixedComplex (some p) => p.compiledLeaves
  | empty | any | simple _ | mixedSimple _ | mixedComplex none => []

/-- The steps that compile a draft: a failure, a content without an expression, or those that
compile a particle. -/
inductive ContentDraft.CompiledIn (c : Option Comparator) (limits : Limits) (d : ContentDraft) :
    Prop where
  | failed (cause : Fault.Cause) (leaves : d.compiledLeaves = [])
      (steps : d.compile c limits = throw (.ofCause cause))
  | fixed (content : Content) (expression : content.expression? = none)
      (leaves : d.compiledLeaves = []) (steps : d.compile c limits = pure content)
  | particle (p : Particle) (f : Model × Option Nat → Content)
      (expression : ∀ r, (f r).expression? = r.2) (leaves : d.compiledLeaves = p.compiledLeaves)
      (steps : d.compile c limits = compileParticle c limits p >>= fun r => pure (f r))

theorem ContentDraft.compiledIn (c : Option Comparator) (limits : Limits) (d : ContentDraft) :
    d.CompiledIn c limits := by
  cases d with
  | empty | any | simple type => exact .fixed _ rfl rfl rfl
  | mixedSimple names =>
    cases hn : firstRepeated? [] names with
    | some n => exact .failed (.duplicateMixed n) rfl (by rw [compile, hn])
    | none => exact .fixed _ rfl rfl (by rw [compile, hn])
  | mixedComplex p? =>
    cases p? with
    | none => exact .fixed _ rfl rfl rfl
    | some p => exact .particle p _ (fun _ => rfl) rfl rfl
  | children p => exact .particle p _ (fun _ => rfl) rfl rfl

/-- What is asked of lowering. -/
inductive LoweringCall where
  | lower (p : Particle)
  | compile (d : ContentDraft)

namespace LoweringCall

/-- The leaves that are lowered. -/
def openLeaves : LoweringCall → List Leaf
  | lower p => p.openLeaves
  | compile d => d.compiledLeaves

/-- Makes a call. Its result is the node that stands for the particle, if there is one. -/
def run (c : Option Comparator) (limits : Limits) : LoweringCall → LoweringM (Option Nat)
  | lower p => some <$> Lowering.particle limits p
  | compile d => Content.expression? <$> d.compile c limits

end LoweringCall

namespace Lowering

variable {c : Option Comparator} {limits : Limits} {b s s' u : Lowering} {terms : List Leaf}
  {q : LoweringCall} {p : Particle} {roots : List Nat}

/-! ## One call -/

section Calls

variable {α β : Type} {ok : β → Lowering → Prop} {err : Lowering → Prop}

theorem ends_map {f : α → β} {x : LoweringM α} (h : Ends x s (fun a => ok (f a)) err) :
    Ends (f <$> x) s ok err := by
  rw [map_eq_pure_bind]
  exact h.bind fun _ _ => ends_pure

theorem root_plants (h : Planted b terms [] s) :
    Ends (root limits p) s (fun _ => Planted b (terms ++ p.openLeaves) [])
      (LeftOff b terms p.openLeaves) := by
  unfold root
  refine (particle_plants limits p h).bind fun i s₁ hi => ends_bind (ends_get ?_)
  have hall := hi.nil.leftOff (List.prefix_refl _)
  exact ends_bind (ends_require _ _ (ends_pure hi.nil) hall)

theorem compileParticle_plants (h : Planted b terms [] s) :
    Ends (ContentDraft.compileParticle c limits p) s
      (fun _ => Planted b (terms ++ p.compiledLeaves) [])
      (LeftOff b terms p.compiledLeaves) := by
  unfold ContentDraft.compileParticle Particle.compiledLeaves
  split
  · rw [List.append_nil]
    split
    · exact ends_pure h
    · exact ends_throw h.leftOff_nil
  · refine (root_plants h).bind fun i s₁ hi => ends_bind (ends_get ?_)
    split
    · exact ends_pure hi
    · exact ends_throw (hi.leftOff (List.prefix_refl _))

/-- A call numbers its leaves in document order; one that fails, the first of them. -/
theorem run_plants (c : Option Comparator) (limits : Limits) (q : LoweringCall)
    (h : Planted b terms [] s) :
    Ends (q.run c limits) s (fun _ => Planted b (terms ++ q.openLeaves) [])
      (LeftOff b terms q.openLeaves) := by
  cases q with
  | lower p => exact ends_map ((particle_plants limits p h).mono (fun _ _ hi => hi.nil) fun _ => id)
  | compile d =>
    refine ends_map ?_
    have hleaves : (LoweringCall.compile d).openLeaves = d.compiledLeaves := rfl
    rw [hleaves]
    cases d.compiledIn c limits with
    | failed cause leaves steps =>
      rw [steps]
      exact ends_throw h.leftOff_nil
    | fixed content _ leaves steps =>
      rw [steps, leaves, List.append_nil]
      exact ends_pure h
    | particle p f _ leaves steps =>
      rw [steps, leaves]
      exact (compileParticle_plants h).bind fun _ _ hs => ends_pure hs

end Calls

/-! ## Roots -/

section Roots

/-- The node stands for a tree. -/
def IsRoot (s : Lowering) (i : Nat) : Prop := ∃ e ns, s.table.Holds i e ns ∧ ns.Nodup

theorem IsRoot.grows {i : Nat} (h : IsRoot s i) (hs : s.table.Grows s'.table) : IsRoot s' i := by
  obtain ⟨e, ns, h, hn⟩ := h
  exact ⟨e, ns, h.grows hs, hn⟩

/-- The failure is for a fault or a limit, not for a defect of a table. -/
def IsCaused (f : Failure) : Prop := ∃ cause, f = .ofCause cause

theorem isCaused_of_hasKind {f : Failure} {k : Fault.Kind} (h : f.HasKind k) : IsCaused f := by
  obtain ⟨cause, rfl, -⟩ := h
  exact ⟨cause, rfl⟩

theorem isCaused_of_rejects {all : Bool} {f : Failure} (h : Rejects all f) : IsCaused f := by
  rcases h with h | h | ⟨-, h⟩ <;> exact isCaused_of_hasKind h

theorem isCaused_of_automaton {i : Nat} {f : Failure} (h : IsRoot s i)
    (hf : s.table.automaton c limits i = .error f) : IsCaused f := by
  obtain ⟨e, ns, h, hn⟩ := h
  have ho := automaton_spec c limits h hn
  rw [hf] at ho
  rcases ho with h | ⟨h, -⟩ <;> exact isCaused_of_hasKind h

variable {α β : Type} {ok : β → Lowering → Prop} {err : Failure → Prop}

theorem ensures_map {f : α → β} {x : LoweringM α} (h : Ensures x s (fun a => ok (f a)) err) :
    Ensures (f <$> x) s ok err := by
  rw [map_eq_pure_bind]
  exact ensures_bind (h.mono (fun _ _ => ensures_pure) fun _ => id)

/-- What makes a root, or fails for a cause. -/
def MakesRoot (x : LoweringM α) (root? : α → Option Nat) : Prop :=
  ∀ s, Ensures x s (fun a s' => ∀ i ∈ root? a, IsRoot s' i) IsCaused

theorem compileParticle_makesRoot :
    MakesRoot (ContentDraft.compileParticle c limits p) Prod.snd := by
  intro s
  unfold ContentDraft.compileParticle
  split
  · split
    · exact ensures_pure fun _ hi => nomatch hi
    · exact ensures_throw ⟨_, rfl⟩
  · refine ensures_bind ((root_spec limits p s).mono (fun i s₁ hi => ?_)
      fun _ => isCaused_of_rejects)
    have hroot : IsRoot s₁ i := ⟨_, hi.2⟩
    refine ensures_bind (ensures_get ?_)
    split
    · exact ensures_pure fun j hj => Option.mem_some.mp hj ▸ hroot
    · rename_i f hf
      exact ensures_throw (isCaused_of_automaton hroot hf)

/-- The node that a call returns is a root. -/
theorem run_makesRoot (c : Option Comparator) (limits : Limits) (q : LoweringCall) :
    MakesRoot (q.run c limits) id := by
  intro s
  cases q with
  | lower p =>
    refine ensures_map ((particle_spec limits p (ExpressionTable.apart_nil _)).mono
      (fun i s₁ hi j hj => ?_) fun _ => isCaused_of_rejects)
    obtain rfl := Option.mem_some.mp hj
    exact ⟨_, hi.2.apart.holds⟩
  | compile d =>
    refine ensures_map ?_
    cases d.compiledIn c limits with
    | failed cause leaves steps =>
      rw [steps]
      exact ensures_throw ⟨cause, rfl⟩
    | fixed content expression leaves steps =>
      rw [steps]
      exact ensures_pure fun i hi => nomatch expression.symm.trans hi
    | particle p f expression leaves steps =>
      rw [steps]
      refine ensures_bind ((compileParticle_makesRoot s).mono (fun r s₁ hr => ?_) fun _ => id)
      exact ensures_pure fun i hi => hr i (expression r ▸ hi)

end Roots

/-! ## Numbers -/

/-- From `s` to `s'`, the leaves `xs` have got the next numbers in order. -/
structure Numbers (xs : List Leaf) (s s' : Lowering) : Prop where
  next : s'.nextParticle = s.nextParticle + xs.length
  leaf {i k : Nat} {x : Leaf} :
    s'.table.get i = .ok (.leaf x (s.nextParticle + k)) → xs[k]? = some x
  node {k : Nat} {x : Leaf} :
    xs[k]? = some x → ∃ i, s'.table.get i = .ok (.leaf x (s.nextParticle + k))

/-- How a call for the leaves `xs` ends, from `s`. It has numbered them in document order; if it
fails, then for a cause, and the first of them have been numbered. -/
structure EndsInOrder (xs : List Leaf) (s : Lowering) (r : Except Failure (Option Nat) × Lowering) :
    Prop where
  caused {f : Failure} : r.1 = .error f → IsCaused f
  numbers : ∃ given, given <+: xs ∧ (r.1.isOk → given = xs) ∧ Numbers given s r.2

theorem Planted.restart {l : List Nat} (h : Planted b terms l s) : Planted s terms l s where
  grows := .refl _
  loose := h.loose
  next := h.next
  numbered := h.numbered
  named hk hx := by
    have hlt := (List.getElem?_eq_some_iff.mp hx).1
    rw [h.next] at hk
    exact absurd hlt (Nat.not_lt.mpr hk)

theorem Planted.numbers {given : List Leaf} (hs : s.nextParticle = terms.length)
    (h : Planted s (terms ++ given) [] s') : Numbers given s s' where
  next := by rw [h.next, List.length_append, hs]
  leaf hi := by
    have hk := h.numbered hi
    rwa [hs, List.getElem?_append_right (Nat.le_add_right _ _), Nat.add_sub_cancel_left] at hk
  node hx := by
    refine h.named (Nat.le_add_right _ _) ?_
    rwa [hs, List.getElem?_append_right (Nat.le_add_right _ _), Nat.add_sub_cancel_left]

theorem run_endsInOrder (q : LoweringCall) (h : Planted s terms [] s) :
    EndsInOrder q.openLeaves s ((q.run c limits).run.run s) := by
  have hends := run_plants c limits q h
  have hroot := run_makesRoot c limits q s
  unfold Ends at hends
  unfold Ensures at hroot
  rcases hrun : (q.run c limits).run.run s with ⟨f | r, s'⟩ <;> rw [hrun] at hends hroot
  · obtain ⟨given, hgiven, hs'⟩ := hends
    exact ⟨fun hf => Except.error.inj hf ▸ hroot, given, hgiven, (fun hok => nomatch hok),
      hs'.numbers h.next⟩
  · exact ⟨(fun hf => nomatch hf), _, List.prefix_refl _, fun _ => rfl, hends.numbers h.next⟩

/-! ## Sequences of calls -/

/-- A state between `s` and `s'`: some of the nodes have been appended, and the numbers of leaves
among them taken. -/
structure Between (s s' u : Lowering) : Prop where
  before : s.table.nodes.toList <+: u.table.nodes.toList
  after : u.table.nodes.toList <+: s'.table.nodes.toList
  taken {i k : Nat} {x : Leaf} : u.table.get i = .ok (.leaf x k) → k < u.nextParticle
  le_next : s.nextParticle ≤ u.nextParticle
  next_le : u.nextParticle ≤ s'.nextParticle

/-- The node that a call has returned, if it has. -/
def returned : Except Failure (Option Nat) → List Nat
  | .ok (some i) => [i]
  | .ok none | .error _ => []

/-- States that calls lead to from an empty table, each with the nodes that have been returned. A
call that finds no room for a node breaks off. -/
inductive Reached (c : Option Comparator) (limits : Limits) : List Nat → Lowering → Prop
  | empty : Reached c limits [] {}
  | called {roots : List Nat} {s : Lowering} (h : Reached c limits roots s) (q : LoweringCall) :
      Reached c limits (returned ((q.run c limits).run.run s).1 ++ roots)
        ((q.run c limits).run.run s).2
  | brokenOff {roots : List Nat} {s u : Lowering} (h : Reached c limits roots s)
      (q : LoweringCall) (hu : Between s ((q.run c limits).run.run s).2 u) :
      Reached c limits roots u

theorem planted_empty : Planted {} [] [] {} where
  grows := .refl _
  loose := ExpressionTable.loose_empty
  next := rfl
  numbered hi := absurd (ExpressionTable.lt_size_of_get hi) (Nat.not_lt_zero _)
  named _ hx := nomatch hx

theorem Planted.between (h : Planted b terms [] s') (hu : Between s s' u) :
    Planted u (terms.take u.nextParticle) [] u := by
  have hnext : u.nextParticle ≤ terms.length := h.next ▸ hu.next_le
  exact {
    grows := .refl _
    loose := h.loose.of_isPrefix hu.after
    next := by rw [List.length_take, Nat.min_eq_left hnext]
    numbered := fun hi => by
      rw [List.getElem?_take_of_lt (hu.taken hi)]
      exact h.numbered ((ExpressionTable.grows_of_isPrefix hu.after).get hi)
    named := fun hk hx => by
      have hlt := (List.getElem?_eq_some_iff.mp hx).1
      rw [List.length_take] at hlt
      omega }

/-- The state after a call, whether it has failed or not. -/
theorem exists_planted_run (c : Option Comparator) (limits : Limits) (q : LoweringCall)
    (h : Planted s terms [] s) :
    ∃ terms', Planted s terms' [] ((q.run c limits).run.run s).2 := by
  have hends := run_plants c limits q h
  unfold Ends at hends
  split at hends
  · rename_i hrun
    rw [hrun]
    exact ⟨_, hends⟩
  · rename_i hrun
    rw [hrun]
    obtain ⟨given, -, hs'⟩ := hends
    exact ⟨_, hs'⟩

theorem isRoot_of_returned {i : Nat} (q : LoweringCall) (s : Lowering)
    (hi : i ∈ returned ((q.run c limits).run.run s).1) :
    IsRoot ((q.run c limits).run.run s).2 i := by
  have hroot := run_makesRoot c limits q s
  unfold Ensures at hroot
  rcases hrun : (q.run c limits).run.run s with ⟨f | r, s'⟩ <;> rw [hrun] at hi hroot
  · exact nomatch hi
  · cases r with
    | none => exact nomatch hi
    | some j => exact hroot i (List.mem_singleton.mp hi ▸ rfl)

/-- Every call keeps what has been made before. -/
theorem Reached.exists_planted (h : Reached c limits roots s) :
    (∃ terms, Planted s terms [] s) ∧ ∀ i ∈ roots, IsRoot s i := by
  induction h with
  | empty => exact ⟨⟨_, planted_empty⟩, fun _ hi => nomatch hi⟩
  | @called roots s _ q ih =>
    obtain ⟨⟨terms, hs⟩, hroots⟩ := ih
    obtain ⟨terms', hs'⟩ := exists_planted_run c limits q hs
    refine ⟨⟨terms', hs'.restart⟩, fun i hi => ?_⟩
    rcases List.mem_append.mp hi with hi | hi
    · exact isRoot_of_returned q s hi
    · exact (hroots i hi).grows hs'.grows
  | @brokenOff roots s u _ q hu ih =>
    obtain ⟨⟨terms, hs⟩, hroots⟩ := ih
    obtain ⟨terms', hs'⟩ := exists_planted_run c limits q hs
    refine ⟨⟨_, hs'.between hu⟩, fun i hi => ?_⟩
    exact (hroots i hi).grows (ExpressionTable.grows_of_isPrefix hu.before)

/-- Parts precede their nodes, no node is a part of two nodes or twice of one, and leaves of one
number are the same. -/
structure IsForest (s : Lowering) : Prop where
  precedes {a i : Nat} : s.table.HasPart a i → i < a
  parent_unique {a b i : Nat} : s.table.HasPart a i → s.table.HasPart b i → a = b
  parts_nodup {i : Nat} {e : Expression} : s.table.get i = .ok e → e.parts.Nodup
  leaf_unique {i j k : Nat} {x y : Leaf} :
    s.table.get i = .ok (.leaf x k) → s.table.get j = .ok (.leaf y k) → x = y

theorem Planted.isForest {l : List Nat} (h : Planted b terms l s) : IsForest s where
  precedes := fun ⟨e, he, hi⟩ => h.loose.ordered _ e he _ hi
  parent_unique := h.loose.parent_unique
  parts_nodup := h.loose.parts_nodup
  leaf_unique hi hj := Option.some.inj ((h.numbered hi).symm.trans (h.numbered hj))

theorem IsRoot.exists_text {i : Nat} (h : IsRoot s i) : ∃ text, s.table.text i = .ok text := by
  obtain ⟨e, ns, h, hn⟩ := h
  have hsize := (h.height_le_size hn).trans (Nat.le_succ _)
  have htext := (h.writes hsize).text hsize
  unfold ExpressionTable.text
  rw [htext]
  exact ⟨_, rfl⟩

/-- **Whatever is lowered and compiled into one table, and wherever calls fail or break off, the
table is a forest with numbered leaves.** From a root, an automaton is made or refused for a cause,
and the root has a written form. The next call numbers its leaves in document order and does not
fail for a defect, with the stacks of the walks or by recursion. -/
theorem isForest_of_reached (h : Reached c limits roots s) :
    IsForest s ∧
      (∀ i ∈ roots, (∃ text, s.table.text i = .ok text) ∧
        ∀ c limits d, s.table.automaton c limits i ≠ .error (.defect d)) ∧
      (∀ q : LoweringCall, EndsInOrder q.openLeaves s ((q.run c limits).run.run s)) ∧
      (∀ p, walk limits [(p, false)] [] = step (particle limits p)) ∧
      (∀ p f, ((walk limits [(p, false)] []).run.run s).1 = .error f →
        ∃ cause, f = .step (.ofCause cause)) ∧
      ∀ i < s.table.size, ∃ n j s', (copy i).run.run s = (.ok j, s') ∧
        ∀ fuel ≥ n, (copyWalk fuel [(i, false)] []).run.run s = (.ok j, s') := by
  obtain ⟨⟨terms, hs⟩, hroots⟩ := h.exists_planted
  refine ⟨hs.isForest, fun i hi => ⟨(hroots i hi).exists_text, fun c limits d => ?_⟩,
    fun q => run_endsInOrder q hs, walk_eq limits, fun p f hf => ?_,
    fun i => exists_copyWalk_eq hs.loose.ordered⟩
  · exact ExpressionTable.automaton_ne_defect (hroots i hi) d
  · rw [walk_eq, run_step] at hf
    have hp := particle_spec limits p (ExpressionTable.apart_nil s.table)
    unfold Ensures at hp
    rcases hrun : (particle limits p).run.run s with ⟨f' | i, s'⟩ <;> rw [hrun] at hp hf
    · obtain ⟨cause, rfl⟩ := isCaused_of_rejects hp
      exact ⟨cause, (Except.error.inj hf).symm⟩
    · exact nomatch hf

/-- An element, and a group that may not be there. -/
def misplacedGroup : Particle :=
  .group .sequence
    [.leaf (.element (.unqualified "a")) .once, .group .all [] .once]
    .once

/-- Elements in nested ranges, and a prohibited one. -/
def nestedRanges : Particle :=
  .group .sequence
    [.leaf (.element (.unqualified "b")) ⟨2, some 2⟩,
      .leaf (.element (.unqualified "c")) ⟨0, some 0⟩,
      .leaf (.element (.unqualified "d")) .optional]
    ⟨1, some 2⟩

/-- The state after the misplaced group has been found. -/
def afterMisplaced : Lowering := (((LoweringCall.lower misplacedGroup).run none {}).run.run {}).2

/-- The call to compile the nested ranges. -/
def nestedCall : LoweringCall := .compile (.children nestedRanges)

/-- The state after the nested ranges have been compiled, too. -/
def afterNested : Lowering := ((nestedCall.run none {}).run.run afterMisplaced).2

theorem isForest_afterNested :
    Reached none {} [] afterMisplaced ∧ Reached none {} [18] afterNested ∧ IsForest afterNested ∧
      Numbers [.element (.unqualified "b"), .element (.unqualified "d")]
        afterMisplaced afterNested ∧
      afterNested.table.text 18 = .ok "(b,b,EMPTY,d?,(b,b,EMPTY,d?)?)" := by
  have hmisplaced : Reached none {} [] afterMisplaced := by
    have hroots : returned (((LoweringCall.lower misplacedGroup).run none {}).run.run {}).1 ++ [] =
        [] := by decide +kernel
    have hempty : Reached none {} [] {} := .empty
    have hcall := hempty.called (.lower misplacedGroup)
    rwa [hroots] at hcall
  have hrun : ((nestedCall.run none {}).run.run afterMisplaced).1.toOption = some (some 18) := by
    decide +kernel
  have hok := eq_ok_of_toOption hrun
  have hnested : Reached none {} [18] afterNested := by
    have hcall := hmisplaced.called nestedCall
    rwa [hok] at hcall
  obtain ⟨-, -, hcalls, -⟩ := isForest_of_reached hmisplaced
  obtain ⟨hforest, -⟩ := isForest_of_reached hnested
  obtain ⟨given, -, hall, hnumbers⟩ := (hcalls nestedCall).numbers
  have hleaves : nestedCall.openLeaves =
      [.element (.unqualified "b"), .element (.unqualified "d")] := by decide +kernel
  rw [hall (by rw [hok]; rfl), hleaves] at hnumbers
  have htext : (afterNested.table.text 18).toOption = some "(b,b,EMPTY,d?,(b,b,EMPTY,d?)?)" := by
    decide +kernel
  exact ⟨hmisplaced, hnested, hforest, hnumbers, eq_ok_of_toOption htext⟩

end Lowering

end MarkupGrammar
