import MarkupGrammar.Proofs.Automaton.Run
import MarkupGrammar.Proofs.Compilation

/-! # Errors at the earliest child

Without a comparator, the model compiled from a particle matches the children of a word exactly as
long as the word begins one that satisfies the particle; so the first child that is not matched is
the first after which nothing could make the content right (`matched_iff_begins_word`). No state
that is reached is a dead end: some further children lead to an end, and where the content may not
end yet, some leaf is expected. -/

namespace MarkupGrammar

/-! ## Words that can be continued

If every leaf matches some name, some position can come next after a word if and only if the word
begins a word of the language (`ExpressionTree.exists_next_iff`): the labels that are left of a
trace can all be matched. So an automaton that was constructed for a tree matches the children of a
word as long as the word begins one of the language, and no longer (`Automaton.isSome_run?_iff`),
and where the content may not end yet, some leaf is expected (`Automaton.expected_ne_nil`). -/

section

open Construction

variable {fits : Leaf → Name → Prop} {e : ExpressionTree Position} {u : List Name} {n : Name}

namespace ExpressionTree

/-! ## Positions that come next -/

theorem exists_forall₂_takes (hf : ∀ l : Leaf, ∃ n, fits l n) {t : List Nat}
    (ht : ∀ q ∈ t, q < e.leaves.length) : ∃ v, List.Forall₂ (e.Takes fits) t v := by
  induction t with
  | nil => exact ⟨[], .nil⟩
  | cons q t ih =>
    obtain ⟨hq, ht⟩ := List.forall_mem_cons.mp ht
    obtain ⟨n, hn⟩ := hf e.leaves[q].leaf
    obtain ⟨v, hv⟩ := ih ht
    exact ⟨n :: v, .cons ⟨_, List.getElem?_eq_getElem hq, hn⟩ hv⟩

/-- **Some position can come next after the words that begin one of the language.** -/
theorem exists_next_iff (hf : ∀ l : Leaf, ∃ n, fits l n) :
    (∃ q, e.Next fits u q) ↔ ∃ v, u ++ v ∈ e.language fun x n => fits x.leaf n := by
  have hn := nodup_numbered 0 e
  constructor
  · rintro ⟨q, ⟨t, v, ht, h⟩ | ⟨-, h⟩⟩
    · -- the rest of the trace can be matched
      obtain ⟨w, hw⟩ := exists_forall₂_takes hf (t := q :: v) fun x hx =>
        mem_leaves_numbered.mp (h.mem_leaves x (List.mem_append_right t hx))
      refine ⟨w, ?_⟩
      rw [← language_takes, mem_language_iff hn]
      exact ⟨t ++ q :: v, h, List.rel_append ht hw⟩
    · refine ⟨[], ?_⟩
      rwa [List.append_nil, ← language_takes]
  · rintro ⟨v, h⟩
    cases v with
    | nil =>
      rw [List.append_nil] at h
      exact ⟨_, next_length.mpr h⟩
    | cons n v =>
      rw [← language_takes, mem_language_iff hn] at h
      obtain ⟨t, ht, h⟩ := h
      obtain ⟨t, s, htu, hs, rfl⟩ := forall₂_append_left h.flip
      obtain ⟨q, s, -, -, rfl⟩ := List.forall₂_cons_left_iff.mp hs
      exact ⟨q, .inl ⟨t, s, htu.flip, ht⟩⟩

theorem exists_next_nil (fits : Leaf → Name → Prop) (e : ExpressionTree Position) :
    ∃ q, e.Next fits [] q := by
  obtain ⟨w, hw⟩ := exists_mem_language (e.numbered 0)
  rw [language_eq_traces (nodup_numbered 0 e)] at hw
  cases w with
  | nil => exact ⟨_, next_nil.mpr (.inr ⟨rfl, hw⟩)⟩
  | cons q w => exact ⟨q, next_nil.mpr (.inl hw.1)⟩

/-- After a name that a next position takes, some position can come next. -/
theorem exists_next_concat {p : Nat} (hp : e.Next fits u p) (ht : e.Takes fits p n) :
    ∃ q, e.Next fits (u ++ [n]) q := by
  obtain ⟨t, v, -, h⟩ := (next_iff_of_lt ht.lt_length).mp hp
  have hsuffix := h.suffix
  cases v with
  | nil => exact ⟨_, next_concat.mpr ⟨p, hp, ht, .inr ⟨rfl, hsuffix⟩⟩⟩
  | cons q v => exact ⟨q, next_concat.mpr ⟨p, hp, ht, .inl hsuffix.1⟩⟩

end ExpressionTree

namespace Automaton

variable {a : Automaton} {c : Option Comparator} {k : Setup} {start set : NumberSet}
  {found : Array NumberSet} {i : Nat} {st : ModelState} {expected : List Leaf}

/-! ## Runs -/

/-- A name that is matched is one that a position takes. -/
theorem exists_takes_of_step (h : a.Realizes c e k start found) (hi : found[i]? = some set)
    (hs : Sound (Leaf.fits c) e u set)
    (hstep : (Model.children a).offer? c (.children i) n = some st) :
    ∃ p ∈ set.toList, e.Takes (Leaf.fits c) p n := by
  rw [Model.offer?_children] at hstep
  obtain ⟨y, hy, -⟩ := Option.map_eq_some_iff.mp hstep
  obtain ⟨hmem, hrank⟩ := firstLeast?_eq_some hy
  obtain ⟨x, hx, hl, -⟩ := h.of_mem_choices hi hmem
  obtain ⟨p, hp, hsym⟩ := mem_moves_fst.mp (List.mem_map_of_mem hx)
  exact ⟨p, (mem_members.mp hp).1,
    takes_of_symbol h.models hs hp (hsym ▸ hl) (Symbol.isSome_rank?.mp hrank)⟩

/-- After a matched word some position can come next. -/
theorem exists_next_of_run (h : a.Realizes c e k start found)
    (hrun : (Model.children a).run? c (.children 0) u = some st) :
    ∃ q, e.Next (Leaf.fits c) u q := by
  rcases List.eq_nil_or_concat' u with rfl | ⟨u, n, rfl⟩
  · exact e.exists_next_nil _
  · rw [Model.run?_concat] at hrun
    obtain ⟨st', hu, hstep⟩ := Option.bind_eq_some_iff.mp hrun
    obtain ⟨i, set, rfl, hi, hs⟩ := run_sound h hu
    obtain ⟨p, hp, ht⟩ := exists_takes_of_step h hi hs hstep
    exact ExpressionTree.exists_next_concat (hs p hp) ht

/-- **The words that are matched are those that begin a word of the language**, if runs are
unique. -/
theorem isSome_run?_iff (h : a.Realizes c e k start found) (hu : a.UniqueRuns c e k found)
    (hf : ∀ l : Leaf, ∃ n, l.fits c n) :
    ((Model.children a).run? c (.children 0) u).isSome ↔
      ∃ v, u ++ v ∈ e.language fun x n => x.leaf.fits c n := by
  rw [← ExpressionTree.exists_next_iff hf, Option.isSome_iff_exists]
  constructor
  · rintro ⟨st, hrun⟩
    exact exists_next_of_run h hrun
  · rintro ⟨q, hq⟩
    rcases run_exact h hu u with ⟨i, set, hrun, -, -⟩ | ⟨-, hno⟩
    · exact ⟨_, hrun⟩
    · exact absurd hq (hno q)

/-- A state in which the content may not end expects some leaf. -/
theorem expected_ne_nil (h : a.Realizes c e k start found) (hu : a.UniqueRuns c e k found)
    (hrun : (Model.children a).run? c (.children 0) u = some st)
    (hfinish : (Model.children a).finish st = .error expected) : expected ≠ [] := by
  obtain ⟨q, hq⟩ := exists_next_of_run h hrun
  rcases run_exact h hu u with ⟨i, set, hrun', hi, he⟩ | ⟨hnone, -⟩
  · obtain rfl := Option.some.inj (hrun.symm.trans hrun')
    have hset := (he q).mpr hq
    have hend : e.leaves.length ∉ set.toList := fun hm => by
      rw [(finish_iff h hi).mpr hm] at hfinish
      exact nomatch hfinish
    -- what can come next is not the end, so it is a position with a leaf
    have hlt : q < e.leaves.length := by
      rcases hq with hq | ⟨rfl, -⟩
      · exact hq.lt_length
      · exact absurd hset hend
    have hmem : q ∈ members k set := by
      rw [mem_members, h.models.endMark]
      exact ⟨hset, hlt.ne⟩
    obtain ⟨x, hx, hsym⟩ := List.mem_map.mp (mem_moves_fst.mpr ⟨q, hmem, rfl⟩)
    have hl := symbols_symbol h.models (List.getElem?_eq_getElem hlt)
    rw [← hsym] at hl
    obtain ⟨j, hj⟩ := h.exists_choice hi hx hl
    have hexpected : a.expected i = expected := by
      unfold Model.finish at hfinish
      dsimp only at hfinish
      split at hfinish
      · exact nomatch hfinish
      · exact Except.error.inj hfinish
    rw [← hexpected]
    exact List.ne_nil_of_mem (List.mem_map_of_mem hj)
  · rw [hnone] at hrun
    exact nomatch hrun

end Automaton

end

/-! ## Content that can be continued -/

open Construction

variable {c : Option Comparator} {m : Model} {limits : Limits} {p : Particle} {s : Lowering}
  {content : Content}

theorem Model.run?_append (st : ModelState) (u v : List Name) :
    m.run? c st (u ++ v) = (m.run? c st u).bind (m.run? c · v) := by
  unfold run?
  rw [List.foldlM_append]
  rfl

/-- A word that is admitted can be run in two parts. -/
theorem Model.Admits.continuation {u v : List Name} {st : ModelState} (h : m.Admits c (u ++ v))
    (hrun : m.run? c m.start u = some st) :
    ∃ st', m.run? c st v = some st' ∧ m.finish st' = .ok () := by
  obtain ⟨st', hrun', hfinish⟩ := h
  rw [run?_append, hrun] at hrun'
  exact ⟨st', hrun', hfinish⟩

/-- **The compiled model matches the words that begin a word of the particle**, and no others. From
every state that is reached some continuation is admitted, and where the content may not end some
leaf is expected. -/
theorem matched_iff_begins_word (hp : p.isAll = false)
    (h : p.compiled none limits s = .ok content) :
    (∀ u, (content.model.run? none content.model.start u).isSome ↔
      ∃ w ∈ p.words fun l n => l.accepts n, u <+: w) ∧
    ∀ u st, content.model.run? none content.model.start u = some st →
      (∃ v st', content.model.run? none st v = some st' ∧ content.model.finish st' = .ok ()) ∧
      ∀ expected, content.model.finish st = .error expected → expected ≠ [] := by
  obtain ⟨hl, a, k, start, found, hm, ha⟩ := compiles_of_compiled hp h
  rw [hm]
  have hu := uniqueRuns_of_overlaps ha (oneLeaf_positionTree hl) fun _ _ _ => overlaps_of_fits_none
  have hfits (l : Leaf) : ∃ n, l.fits none n := l.exists_accepts.imp fun _ => Leaf.fits_of_accepts
  have hwords : p.words (fun l n => l.accepts n) =
      (p.positionTree s.nextParticle).language fun x n => x.leaf.fits none n := by
    rw [Particle.words_eq (k := s.nextParticle) hl]
    simp only [Leaf.fits_none]
  have hmatched (u : List Name) : ((Model.children a).run? none (Model.children a).start u).isSome ↔
      ∃ v, u ++ v ∈ p.words fun l n => l.accepts n := by
    rw [hwords]
    exact Automaton.isSome_run?_iff ha hu hfits
  refine ⟨fun u => (hmatched u).trans ?_, fun u st hrun => ⟨?_, fun expected hfinish => ?_⟩⟩
  · constructor
    · rintro ⟨v, hv⟩
      exact ⟨_, hv, List.prefix_append u v⟩
    · rintro ⟨w, hw, v, rfl⟩
      exact ⟨v, hw⟩
  · obtain ⟨v, hv⟩ := (hmatched u).mp (Option.isSome_of_eq_some hrun)
    rw [hwords, ← Automaton.admits_iff ha hu] at hv
    exact ⟨v, hv.continuation hrun⟩
  · exact Automaton.expected_ne_nil ha hu hrun hfinish

/-- A choice of nothing and of a title with perhaps up to two sections, in which a prohibited name
stands between. -/
def optionalSections : Particle :=
  .group .choice
    [.group .sequence [] .once,
      .group .sequence
        [.leaf (.element (.unqualified "title")) .once,
          .leaf (.element (.unqualified "title")) ⟨0, some 0⟩,
          .leaf (.wildcard ⟨.other none, .lax⟩) ⟨1, some 3⟩] .once] .once

theorem matched_iff_begins_word_optionalSections :
    ∃ content, optionalSections.compiled none {} {} = .ok content ∧
      (∀ u, (content.model.run? none content.model.start u).isSome ↔
        ∃ w ∈ optionalSections.words fun l n => l.accepts n, u <+: w) ∧
      ∀ u st, content.model.run? none content.model.start u = some st →
        (∃ v st', content.model.run? none st v = some st' ∧ content.model.finish st' = .ok ()) ∧
        ∀ expected, content.model.finish st = .error expected → expected ≠ [] := by
  have hok : (optionalSections.compiled none {} {}).isOk := by decide +kernel
  cases h : optionalSections.compiled none {} {} with
  | error f =>
    rw [h] at hok
    exact absurd hok Bool.noConfusion
  | ok content => exact ⟨content, rfl, matched_iff_begins_word rfl h⟩

end MarkupGrammar
