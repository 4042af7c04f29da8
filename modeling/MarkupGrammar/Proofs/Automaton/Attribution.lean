import MarkupGrammar.Proofs.Automaton.Run

/-! # Overlaps and attribution

The construction ends early where a set has two positions of different particles whose leaves
overlap. Without a comparator such leaves match a name in common; so one symbol at most fits a name
in a set without overlaps, if different leaves of one particle do not overlap either
(`unique_of_consistent`), and every set that moves lead to is exact for some word
(`exact_of_reached`). -/

namespace MarkupGrammar

namespace Construction

variable {c : Option Comparator} {ps : List Position} {e : ExpressionTree Position} {k : Setup}
  {start set : NumberSet} {n : Name}

/-! ## Overlaps in a list -/

theorem overlapWith?_eq_none {p : Position} :
    overlapWith? c p ps = none ↔
      ∀ q ∈ ps, p.particle ≠ q.particle → p.leaf.overlaps c q.leaf = false := by
  simp [overlapWith?, List.find?_eq_none]

/-- No two positions of different particles overlap. -/
def Apart (c : Option Comparator) (ps : List Position) : Prop :=
  ∀ p ∈ ps, ∀ q ∈ ps, p.particle ≠ q.particle → p.leaf.overlaps c q.leaf = false

theorem apart_cons {p : Position} : Apart c (p :: ps) ↔
    (∀ q ∈ ps, p.particle ≠ q.particle → p.leaf.overlaps c q.leaf = false) ∧ Apart c ps := by
  constructor
  · intro h
    exact ⟨fun q hq => h p List.mem_cons_self q (List.mem_cons_of_mem _ hq),
      fun x hx y hy => h x (List.mem_cons_of_mem _ hx) y (List.mem_cons_of_mem _ hy)⟩
  · rintro ⟨hp, h⟩ x hx y hy hne
    rcases List.mem_cons.mp hx with rfl | hx' <;> rcases List.mem_cons.mp hy with rfl | hy'
    · exact absurd rfl hne
    · exact hp y hy' hne
    · rw [Leaf.overlaps_comm]
      exact hp x hx' (Ne.symm hne)
    · exact h x hx' y hy' hne

theorem overlap?_eq_none : overlap? c ps = none ↔ Apart c ps := by
  induction ps with
  | nil => simp [overlap?, Apart]
  | cons p ps ih =>
    rw [apart_cons, ← ih, ← overlapWith?_eq_none, overlap?]
    split
    · rename_i hall
      have hsame : ∀ q ∈ ps, q.particle = p.particle := by simpa using hall
      refine iff_of_true rfl ⟨overlapWith?_eq_none.mpr fun q hq hne => ?_, ih.mpr ?_⟩
      · exact absurd (hsame q hq).symm hne
      · intro x hx y hy hne
        exact absurd ((hsame x hx).trans (hsame y hy).symm) hne
    · cases overlapWith? c p ps <;> simp

/-- An overlap is one of positions of different particles. -/
theorem exists_of_overlap? (h : overlap? c ps ≠ none) : ∃ p ∈ ps, ∃ q ∈ ps,
    p.particle ≠ q.particle ∧ p.leaf.overlaps c q.leaf = true := by
  rw [Ne, overlap?_eq_none, Apart] at h
  simpa using h

/-! ## Overlaps in a set -/

theorem mem_positions (hk : Models k e) {x : Position} :
    x ∈ (members k set).filterMap (k.positions[·]?) ↔
      ∃ p ∈ set.toList, e.leaves[p]? = some x := by
  simp only [List.mem_filterMap, ← Array.getElem?_toList, hk.positions]
  refine exists_congr fun p => ⟨fun h => ⟨(mem_members.mp h.1).1, h.2⟩, fun h => ⟨?_, h.2⟩⟩
  have hlt := (List.getElem?_eq_some_iff.mp h.2).1
  rw [mem_members, hk.endMark]
  exact ⟨h.1, hlt.ne⟩

theorem overlapIn_eq_none (hk : Models k e) : overlapIn c k set = none ↔
    ∀ p ∈ set.toList, ∀ q ∈ set.toList, ∀ x ∈ e.leaves[p]?, ∀ y ∈ e.leaves[q]?,
      x.particle ≠ y.particle → x.leaf.overlaps c y.leaf = false := by
  unfold overlapIn
  rw [overlap?_eq_none, Apart]
  simp only [mem_positions hk]
  constructor
  · intro h p hp q hq x hx y hy
    exact h x ⟨p, hp, hx⟩ y ⟨q, hq, hy⟩
  · rintro h x ⟨p, hp, hx⟩ y ⟨q, hq, hy⟩
    exact h p hp q hq x hx y hy

theorem exists_of_overlapIn (hk : Models k e) (h : overlapIn c k set ≠ none) :
    ∃ p ∈ set.toList, ∃ q ∈ set.toList, ∃ x ∈ e.leaves[p]?, ∃ y ∈ e.leaves[q]?,
      x.particle ≠ y.particle ∧ x.leaf.overlaps c y.leaf = true := by
  obtain ⟨x, hx, y, hy, hne, ho⟩ := exists_of_overlap? h
  obtain ⟨p, hp, hx⟩ := (mem_positions hk).mp hx
  obtain ⟨q, hq, hy⟩ := (mem_positions hk).mp hy
  exact ⟨p, hp, q, hq, x, hx, y, hy, hne, ho⟩

/-- Leaves of one particle are equal. -/
def OneLeaf (e : ExpressionTree Position) : Prop :=
  ∀ x ∈ e.leaves, ∀ y ∈ e.leaves, x.particle = y.particle → x.leaf = y.leaf

/-- Leaves of one particle are equal or do not overlap. -/
def Consistent (c : Option Comparator) (e : ExpressionTree Position) : Prop :=
  ∀ x ∈ e.leaves, ∀ y ∈ e.leaves, x.particle = y.particle → x.leaf ≠ y.leaf →
    x.leaf.overlaps c y.leaf = false

theorem OneLeaf.consistent (h : OneLeaf e) : Consistent c e :=
  fun x hx y hy hxy hne => absurd (h x hx y hy hxy) hne

/-- If leaves that fit a name in common overlap, one symbol at most fits a name in a set without
overlaps. -/
theorem unique_of_consistent (hk : Models k e) (hcons : Consistent c e)
    (ho : overlapIn c k set = none)
    (hc : ∀ l l' : Leaf, l.fits c n → l'.fits c n → l.overlaps c l' = true) :
    Automaton.Unique c e k set n := by
  rintro p hp q hq ⟨x, hx, hxn⟩ ⟨y, hy, hyn⟩
  have hleaf : x.leaf = y.leaf := by
    by_contra hne
    have hno : x.leaf.overlaps c y.leaf = false := by
      by_cases hxy : x.particle = y.particle
      · exact hcons x (List.mem_of_getElem? hx) y (List.mem_of_getElem? hy) hxy hne
      · exact (overlapIn_eq_none hk).mp ho p hp q hq x hx y hy hxy
    rw [hc x.leaf y.leaf hxn hyn] at hno
    exact Bool.noConfusion hno
  have hsx := symbols_symbol hk hx
  have hsy := symbols_symbol hk hy
  rw [← hleaf] at hsy
  exact symbol_inj hk hsx hsy

theorem overlaps_of_fits_none {l l' : Leaf} (h : l.fits none n) (h' : l'.fits none n) :
    l.overlaps none l' = true :=
  (Leaf.overlaps_none_iff l l').mpr ⟨n, (l.fits_none n).mp h, (l'.fits_none n).mp h'⟩

/-- A move of a sound set takes some name, with one of the positions of its symbol. -/
theorem exists_takes_of_move {u : List Name} {x : Nat × NumberSet} (hk : Models k e)
    (hs : Sound (Leaf.fits c) e u set) (hx : x ∈ moves k set) : ∃ p ∈ set.toList, symbol k p = x.1 ∧
      ∃ l n, k.symbols[x.1]? = some l ∧ l.fits c n ∧ e.Takes (Leaf.fits c) p n := by
  obtain ⟨p, hp, hsym⟩ := mem_moves_fst.mp (List.mem_map_of_mem hx)
  have hlt := lt_length_of_mem_members hk hs hp
  have hl := symbols_symbol hk (List.getElem?_eq_getElem hlt)
  obtain ⟨n, hn⟩ := (e.leaves[p]).leaf.exists_accepts
  have hf := Leaf.fits_of_accepts (c := c) hn
  exact ⟨p, (mem_members.mp hp).1, hsym, _, n, hsym ▸ hl, hf, takes_of_symbol hk hs hp hl hf⟩

/-- Every set that moves lead to is sound for some word. -/
theorem sound_of_reached (hk : Models k e) (hstart : Exact (Leaf.fits c) e [] start)
    (h : Reached c k start set) : ∃ u, Sound (Leaf.fits c) e u set := by
  induction h with
  | start => exact ⟨[], hstart.sound⟩
  | move _ _ hx ih =>
    obtain ⟨u, hu⟩ := ih
    obtain ⟨p, -, -, l, n, hl, hf, -⟩ := exists_takes_of_move hk hu hx
    exact ⟨u ++ [n], sound_move hk hu hx hl hf⟩

/-- **Without a comparator every set that moves lead to is exact for some word.** -/
theorem exact_of_reached (hk : Models k e) (hone : OneLeaf e)
    (hstart : Exact (Leaf.fits none) e [] start) (h : Reached none k start set) :
    ∃ u, Exact (Leaf.fits none) e u set := by
  induction h with
  | start => exact ⟨[], hstart⟩
  | move _ ho hx ih =>
    obtain ⟨u, hu⟩ := ih
    obtain ⟨p, hp, hsym, l, n, hl, hf, ht⟩ := exists_takes_of_move hk hu.sound hx
    refine ⟨u ++ [n], exact_move hk hu hx hl hf fun q hq htq => ?_⟩
    rw [← hsym]
    exact unique_of_consistent hk hone.consistent ho (fun _ _ => overlaps_of_fits_none) q hq p hp
      htq ht

end Construction

end MarkupGrammar
