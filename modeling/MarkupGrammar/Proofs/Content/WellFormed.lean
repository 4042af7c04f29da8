import MarkupGrammar.Proofs.Automaton.Run
import MarkupGrammar.Proofs.Content.AllGroup
import MarkupGrammar.Proofs.Content.Earlier

/-! # Content without loose ends

The expression that content was compiled from is in the table, where parts precede wholes; its
automaton has no loose ends; and no symbol refers to a declaration before the grammar is put
together (`ContentDraft.sound_compile_empty`). Binding the symbols afterwards lets them refer to
declarations that a look-up has found, and changes nothing else. -/

namespace MarkupGrammar

/-! ## Automata without loose ends

The transitions of a constructed automaton lead from symbols that are there to states that are there
(`Automaton.Realizes.wellFormed`): targets are numbers of sets that were found, and the symbols are
those of the positions of a set. The sets hold no other positions than those of the tree and the
end mark, since moves lead to them from the first set. -/

section

/-- There is a first state, and transitions refer to symbols and states that are there. -/
structure Automaton.WellFormed (a : Automaton) : Prop where
  states_pos : 0 < a.states.size
  symbol_lt : ∀ st ∈ a.states, ∀ y ∈ st.transitions, y.1 < a.symbols.size
  target_lt : ∀ st ∈ a.states, ∀ y ∈ st.transitions, y.2 < a.states.size

namespace Construction

variable {c : Option Comparator} {e : ExpressionTree Position} {k : Setup}
  {start set : NumberSet} {p q : Nat}

theorem next_le_length {fits : Leaf → Name → Prop} {u : List Name} (h : e.Next fits u q) :
    q ≤ e.leaves.length := by
  rcases h with h | ⟨rfl, -⟩
  · exact h.lt_length.le
  · exact le_rfl

/-- The members of a set that moves lead to are leaves of the tree. -/
theorem Reached.le_length (hk : Models k e) (hs : ∀ q ∈ start.toList, q ≤ e.leaves.length)
    (h : Reached c k start set) : ∀ q ∈ set.toList, q ≤ e.leaves.length := by
  induction h with
  | start => exact hs
  | @move set x _ _ hx ih =>
    intro q hq
    obtain ⟨p, hp, -, hq⟩ := (mem_move hx).mp hq
    have hp : p < e.leaves.length := by
      rw [mem_members, hk.endMark] at hp
      exact lt_of_le_of_ne (ih p hp.1) hp.2
    rcases (hk.follow p q hp).mp hq with hq | ⟨rfl, -⟩
    · exact (ExpressionTree.mem_leaves_numbered.mp hq.mem_leaves.2).le
    · exact le_rfl

end Construction

open Construction

namespace Automaton

/-- **A constructed automaton has no loose ends.** -/
theorem Realizes.wellFormed {a : Automaton} {c : Option Comparator} {e : ExpressionTree Position}
    {k : Setup} {start : NumberSet} {found : Array NumberSet}
    (h : a.Realizes c e k start found) : a.WellFormed := by
  have hstart : ∀ q ∈ start.toList, q ≤ e.leaves.length := fun q hq =>
    next_le_length (((h.exact_start fun _ _ => True) q).mp hq)
  have hleads {st : AutomatonState} (hst : st ∈ a.states) {y : Nat × Nat}
      (hy : y ∈ st.transitions) : y.1 < a.symbols.size ∧ y.2 < a.states.size := by
    obtain ⟨i, hi⟩ := Array.mem_iff_getElem?.mp hst
    obtain ⟨set, hset, hw⟩ := h.explored.state i st hi
    obtain ⟨x, hx, hxy, htarget⟩ := forall₂_mem_left hw.transitions.flip hy
    refine ⟨?_, ?_⟩
    · obtain ⟨p, hp, hsymbol⟩ := mem_moves_fst.mp (List.mem_map_of_mem (f := Prod.fst) hx)
      rw [mem_members, h.models.endMark] at hp
      have hle := (h.explored.reached i set hset).le_length h.models hstart p hp.1
      have hleaf := List.getElem?_eq_getElem (lt_of_le_of_ne hle hp.2)
      have hat := symbols_symbol h.models hleaf
      rw [h.symbols, Array.size_map, hxy, ← hsymbol]
      exact (Array.getElem?_eq_some_iff.mp hat).1
    · rw [h.explored.size]
      exact (Array.getElem?_eq_some_iff.mp htarget).1
  refine ⟨?_, fun st hst y hy => (hleads hst hy).1, fun st hst y hy => (hleads hst hy).2⟩
  rw [h.explored.size]
  exact (Array.getElem?_eq_some_iff.mp h.explored.first).1

end Automaton

end

/-! ## Models -/

namespace Model

/-- The symbols that a child is compared with. -/
def symbols : Model → List Symbol
  | mixed symbols => symbols
  | children a => a.symbols.toList
  | all g => g.members.map (·.symbol)
  | empty | any | simple => []

/-- The automaton, if the model is one, has no loose ends. -/
def WellFormed : Model → Prop
  | children a => a.WellFormed
  | _ => True

theorem symbols_bind (resolve : Name → Option Nat) (m : Model) :
    (m.bind resolve).symbols = m.symbols.map (Symbol.bind resolve) := by
  cases m with
  | children a => exact Array.toList_map
  | all g =>
    unfold bind symbols
    dsimp only
    rw [List.map_map, List.map_map]
    rfl
  | _ => rfl

theorem WellFormed.bind {m : Model} (h : m.WellFormed) (resolve : Name → Option Nat) :
    (m.bind resolve).WellFormed := by
  cases m with
  | children a =>
    have hsize : (a.bind resolve).symbols.size = a.symbols.size := Array.size_map
    exact ⟨h.states_pos, fun st hst y hy => hsize ▸ h.symbol_lt st hst y hy, h.target_lt⟩
  | _ => trivial

theorem IsFlat.wellFormed {m : Model} (h : m.IsFlat) : m.WellFormed := by
  cases m with
  | children a => exact h.elim
  | _ => trivial

/-- The symbols of leaves have no declarations. -/
theorem IsFlat.unbound {m : Model} (h : m.IsFlat) : ∀ s ∈ m.symbols, s.decl? = none := by
  cases m with
  | mixed symbols =>
    obtain ⟨ls, rfl⟩ := h
    intro s hs
    obtain ⟨l, -, rfl⟩ := List.mem_map.mp hs
    rfl
  | children a => exact h.elim
  | all g => exact h.elim
  | _ => exact fun s hs => absurd hs List.not_mem_nil

end Model

/-- A symbol refers to what its name is resolved to. -/
theorem Symbol.decl?_bind {resolve : Name → Option Nat} {s : Symbol} (hs : s.decl? = none) {i : Nat}
    (h : (s.bind resolve).decl? = some i) : ∃ n, resolve n = some i := by
  unfold Symbol.bind at h
  split at h
  · exact ⟨_, h⟩
  · exact nomatch hs.symm.trans h

/-! ## Content -/

/-- The expression of the content is in the table, and its model refers to nothing outside of
itself. -/
structure Content.Sound (t : ExpressionTable) (content : Content) : Prop where
  root_lt : ∀ i, content.expression? = some i → i < t.size
  wellFormed : content.model.WellFormed
  unbound : ∀ s ∈ content.model.symbols, s.decl? = none

theorem AllGroup.unbound_of_foldlM {c : Option Comparator} {ms : List Particle}
    {members r : List AllMember} (hm : ∀ m ∈ members, m.symbol.decl? = none)
    (h : ms.foldlM (AllGroup.addMember c) members = .ok r) : ∀ m ∈ r, m.symbol.decl? = none := by
  induction ms generalizing members with
  | nil =>
    obtain rfl := Except.ok.inj h
    exact hm
  | cons p ms ih =>
    rw [List.foldlM_cons] at h
    obtain ⟨members', hp, h⟩ := of_bind_eq_ok h
    refine ih (fun m hmem => ?_) h
    unfold addMember at hp
    split at hp
    · exact nomatch hp
    · obtain ⟨-, -, hp⟩ := of_bind_eq_ok hp
      dsimp only at hp
      split at hp
      · exact nomatch hp
      · split at hp
        · exact nomatch hp
        · obtain rfl := Except.ok.inj hp
          rcases List.mem_append.mp hmem with hmem | hmem
          · exact hm m hmem
          · rw [List.mem_singleton.mp hmem]

theorem AllGroup.unbound_of_ofParticle {c : Option Comparator} {p : Particle} {g : AllGroup}
    (h : AllGroup.ofParticle c p = .ok g) : ∀ m ∈ g.members, m.symbol.decl? = none := by
  unfold ofParticle at h
  split at h
  · dsimp only at h
    split at h
    · exact nomatch h
    · obtain ⟨members, hm, h⟩ := of_bind_eq_ok h
      obtain rfl := Except.ok.inj h
      exact unbound_of_foldlM (fun m hm => absurd hm List.not_mem_nil) hm
  · exact nomatch h

namespace ContentDraft

variable {c : Option Comparator} {limits : Limits} {p : Particle}

/-- What compiling an all-group makes without the table. -/
theorem sound_compileParticle_all (hp : p.isAll = true) {r : Model × Option Nat}
    (hr : ((compileParticle c limits p).run.run {}).1 = .ok r) :
    (⟨.children, r.1, r.2⟩ : Content).Sound {} := by
  rw [run_compileParticle_all hp] at hr
  obtain ⟨g, hg, rfl⟩ := of_map_eq_ok hr
  refine ⟨fun i hi => (nomatch hi), trivial, fun s hs => ?_⟩
  obtain ⟨m, hm, rfl⟩ := List.mem_map.mp hs
  cases ha : AllGroup.ofParticle c p with
  | error cause =>
    rw [ha] at hg
    exact nomatch hg
  | ok g' =>
    rw [ha] at hg
    obtain rfl := Except.ok.inj hg
    exact AllGroup.unbound_of_ofParticle ha m hm

/-- What compiling a particle in an empty table makes. -/
theorem sound_compileParticle (c : Option Comparator) (limits : Limits) (p : Particle) :
    ((compileParticle c limits p).run.run {}).2.table.Ordered ∧
      ∀ r, ((compileParticle c limits p).run.run {}).1 = .ok r →
        (⟨.children, r.1, r.2⟩ : Content).Sound
          ((compileParticle c limits p).run.run {}).2.table := by
  cases hp : p.isAll with
  | true =>
    have htable : ((compileParticle c limits p).run.run {}).2.table = {} := by
      rw [run_compileParticle_all hp]
    rw [htable]
    exact ⟨.empty, fun r hr => sound_compileParticle_all hp hr⟩
  | false =>
    have hspec := compileParticle_spec (c := c) limits hp {}
    obtain ⟨hordered, -, hplace⟩ := Lowering.particle_follows (b := {}) limits p (s := {}) .empty
    unfold Lowering.Ensures at hspec
    rw [run_compileParticle hp] at hspec ⊢
    rw [Lowering.behind_empty] at hplace
    rcases h : (Lowering.particle limits p).run.run {} with ⟨f | i, s⟩
    · rw [h] at hordered
      exact ⟨hordered, fun r hr => nomatch hr⟩
    · rw [h] at hordered hplace hspec
      refine ⟨hordered, fun r hr => ?_⟩
      dsimp only at hr hspec
      rw [hr] at hspec
      obtain ⟨-, a, k, start, found, hm, ha⟩ := hspec
      obtain ⟨a', -, rfl⟩ := of_modelOf_eq_ok hr
      obtain rfl := Model.children.inj hm
      refine ⟨fun j hj => ?_, ha.wellFormed, fun y hy => ?_⟩
      · obtain rfl := Option.some.inj hj
        exact hplace.lt_size
      · change y ∈ a'.symbols.toList at hy
        rw [ha.symbols, Array.toList_map] at hy
        obtain ⟨l, -, rfl⟩ := List.mem_map.mp hy
        rfl

/-- **What compiling content in an empty table makes**, also where it fails. -/
theorem sound_compile_empty (c : Option Comparator) (limits : Limits) (d : ContentDraft) :
    ((d.compile c limits).run.run {}).2.table.Ordered ∧
      ∀ content, ((d.compile c limits).run.run {}).1 = .ok content →
        content.Sound ((d.compile c limits).run.run {}).2.table := by
  cases compiledBy c limits d with
  | failed cause nodes run =>
    rw [run]
    exact ⟨.empty, fun content h => nomatch h⟩
  | fixed category m flat nodes run =>
    rw [run]
    refine ⟨.empty, fun content h => ?_⟩
    obtain rfl := Except.ok.inj h
    exact ⟨fun i hi => (nomatch hi), flat.wellFormed, flat.unbound⟩
  | particle p category f model nodes run =>
    obtain ⟨hordered, hsound⟩ := sound_compileParticle c limits p
    rw [run]
    refine ⟨hordered, fun content h => ?_⟩
    obtain ⟨r, hr, rfl⟩ := of_map_eq_ok h
    have hr := hsound r hr
    have hmodel : (f r.1).WellFormed ∧ ∀ s ∈ (f r.1).symbols, s.decl? = none := by
      rcases model r.1 with heq | hflat
      · rw [heq]
        exact ⟨hr.wellFormed, hr.unbound⟩
      · exact ⟨hflat.wellFormed, hflat.unbound⟩
    exact ⟨hr.root_lt, hmodel.1, hmodel.2⟩

end ContentDraft

end MarkupGrammar
