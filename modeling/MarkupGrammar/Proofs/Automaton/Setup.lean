import MarkupGrammar.Automaton.Construction
import MarkupGrammar.Proofs.Expression.Survey

/-! # Sets of positions

The setup of the construction for a surveyed tree, and the moves of a set of positions: which
symbols it has and where they lead. -/

namespace MarkupGrammar

namespace Construction

/-! ## Symbols -/

/-- The symbols of positions are their distinct leaves, and each position has its own. -/
structure Numbers (ps : List Position) (r : Array Leaf × Array Nat) : Prop where
  size : r.2.size = ps.length
  symbol (i : Nat) (x : Position) (hx : ps[i]? = some x) :
    ∃ s, r.2[i]? = some s ∧ r.1[s]? = some x.leaf
  nodup : r.1.toList.Nodup

/-- One more position. -/
def numberLeaf (r : Array Leaf × Array Nat) (p : Position) : Array Leaf × Array Nat :=
  match r.1.idxOf? p.leaf with
  | some i => (r.1, r.2.push i)
  | none => (r.1.push p.leaf, r.2.push r.1.size)

theorem numberLeaves_eq (positions : Array Position) :
    numberLeaves positions = positions.toList.foldl numberLeaf (#[], #[]) := by
  rw [Array.foldl_toList]
  rfl

theorem getElem?_concat {α : Type} {l : List α} {x y : α} {i : Nat}
    (h : (l ++ [x])[i]? = some y) : l[i]? = some y ∨ (i = l.length ∧ x = y) := by
  rw [List.getElem?_append] at h
  split at h
  · exact .inl h
  · rename_i hi
    obtain ⟨h0, h⟩ := List.getElem?_eq_some_iff.mp h
    have : i - l.length = 0 := by simpa using h0
    refine .inr ⟨by omega, ?_⟩
    simpa [this] using h

theorem getElem?_of_idxOf? {α : Type} [DecidableEq α] {xs : Array α} {x : α} {i : Nat}
    (h : xs.idxOf? x = some i) : xs[i]? = some x := by
  rcases xs with ⟨l⟩
  rw [List.idxOf?_toArray] at h
  obtain ⟨hlt, hx, -⟩ := List.idxOf?_eq_some_iff.mp h
  rw [List.getElem?_toArray, List.getElem?_eq_getElem hlt, hx]

theorem getElem?_push_of_some {α : Type} {xs : Array α} {x y : α} {i : Nat}
    (h : xs[i]? = some y) : (xs.push x)[i]? = some y := by
  obtain ⟨hi, hy⟩ := Array.getElem?_eq_some_iff.mp h
  rw [Array.getElem?_push_lt hi, hy]

theorem numbers_snoc {ps : List Position} {r : Array Leaf × Array Nat} (h : Numbers ps r)
    (p : Position) : Numbers (ps ++ [p]) (numberLeaf r p) := by
  obtain ⟨symbols, numbers⟩ := r
  have hsize : numbers.size = ps.length := h.size
  have hnodup : symbols.toList.Nodup := h.nodup
  unfold numberLeaf
  split
  · rename_i i hi
    refine ⟨by simp [hsize], fun j x hx => ?_, hnodup⟩
    rcases getElem?_concat hx with hx | ⟨rfl, rfl⟩
    · obtain ⟨s, hs, hl⟩ := h.symbol j x hx
      exact ⟨s, getElem?_push_of_some hs, hl⟩
    · exact ⟨i, by simp [← hsize], getElem?_of_idxOf? hi⟩
  · rename_i hi
    have hnew : p.leaf ∉ symbols := Array.idxOf?_eq_none_iff.mp hi
    refine ⟨by simp [hsize], fun j x hx => ?_, ?_⟩
    · rcases getElem?_concat hx with hx | ⟨rfl, rfl⟩
      · obtain ⟨s, hs, hl⟩ := h.symbol j x hx
        exact ⟨s, getElem?_push_of_some hs, getElem?_push_of_some hl⟩
      · exact ⟨symbols.size, by simp [← hsize], by simp⟩
    · rw [Array.toList_push]
      exact List.nodup_append'.mpr ⟨hnodup, List.nodup_singleton _, by simpa using hnew⟩

theorem numbers_numberLeaves (positions : Array Position) :
    Numbers positions.toList (numberLeaves positions) := by
  rw [numberLeaves_eq]
  generalize positions.toList = ps
  induction ps using List.reverseRecOn with
  | nil => exact ⟨rfl, by simp, List.nodup_nil⟩
  | append_singleton ps p ih =>
    rw [List.foldl_append]
    exact numbers_snoc ih p

/-! ## The setup of a tree -/

/-- The setup is that of a tree, with the numbers of its leaves for positions. -/
structure Models (k : Setup) (e : ExpressionTree Position) : Prop where
  positions : k.positions.toList = e.leaves
  endMark : k.endMark = e.leaves.length
  follow (p q : Nat) (hp : p < e.leaves.length) : q ∈ succs k.follow p ↔
    (e.numbered 0).Follows p q ∨ (q = e.leaves.length ∧ (e.numbered 0).IsLast p)
  symbol (p : Nat) (x : Position) (hx : e.leaves[p]? = some x) :
    ∃ s, k.symbolOf[p]? = some s ∧ k.symbols[s]? = some x.leaf
  nodup : k.symbols.toList.Nodup

variable {e : ExpressionTree Position} {f : Facts} {s : Survey} {k : Setup} {set : NumberSet}

theorem size_positions (hs : Survey.Extends e {} s) : s.positions.size = e.leaves.length := by
  rw [hs.size]
  exact Nat.zero_add _

theorem models_setup (hs : Survey.Extends e {} s) (hf : f.Describes (e.numbered 0)) :
    Models (setup f s).1 e where
  positions := hs.positions
  endMark := size_positions hs
  follow p q hp := by
    have hsize := size_positions hs
    have hq : q ∈ (NumberSet.single s.positions.size).toList ↔ q = e.leaves.length := by
      rw [NumberSet.toList_single, List.mem_singleton, hsize]
    have hempty : q ∉ succs #[] p := by simp [succs]
    simp only [setup]
    rw [mem_succs_foldl, hs.follow, hq, hf.last, hs.follow_size, hsize]
    constructor
    · rintro ((h | h) | ⟨hl, -, rfl⟩)
      · exact absurd h hempty
      · exact .inl h
      · exact .inr ⟨rfl, hl⟩
    · rintro (h | ⟨rfl, hl⟩)
      · exact .inl (.inr h)
      · exact .inr ⟨hl, hp, rfl⟩
  symbol p x hx := (numbers_numberLeaves s.positions).symbol p x (hs.positions ▸ hx)
  nodup := (numbers_numberLeaves s.positions).nodup

theorem mem_start (hs : Survey.Extends e {} s) (hf : f.Describes (e.numbered 0)) {q : Nat} :
    q ∈ (setup f s).2.toList ↔
      (e.numbered 0).IsFirst q ∨ (q = e.leaves.length ∧ (e.numbered 0).nullable) := by
  simp only [setup]
  rw [← hf.nullable, ← hf.first, ← size_positions hs]
  split <;> simp_all

/-! ## Moves -/

theorem mem_members {p : Nat} : p ∈ members k set ↔ p ∈ set.toList ∧ p ≠ k.endMark := by
  simp [members]

theorem mem_foldl_union {α : Type} {xs : List α} {f : α → NumberSet} {t : NumberSet} {q : Nat} :
    q ∈ (xs.foldl (fun t x => t.union (f x)) t).toList ↔
      q ∈ t.toList ∨ ∃ x ∈ xs, q ∈ (f x).toList := by
  induction xs generalizing t with
  | nil => simp
  | cons x xs ih => simp [ih, or_assoc]

/-- The symbol of a position. -/
def symbol (k : Setup) (p : Nat) : Nat := k.symbolOf[p]?.getD 0

/-- A move leads to all that can follow the positions of its symbol. -/
theorem mem_move {x : Nat × NumberSet} (hx : x ∈ moves k set) {q : Nat} :
    q ∈ x.2.toList ↔ ∃ p ∈ members k set, symbol k p = x.1 ∧ q ∈ succs k.follow p := by
  simp only [moves, List.mem_map] at hx
  obtain ⟨s, -, rfl⟩ := hx
  simp only
  rw [mem_foldl_union]
  simp [succs, symbol, and_assoc]

/-- The moves of a set have the symbols of its positions. -/
theorem mem_moves_fst {s : Nat} :
    s ∈ (moves k set).map Prod.fst ↔ ∃ p ∈ members k set, symbol k p = s := by
  simp only [moves, List.map_map, List.mem_map, mem_foldl_union, NumberSet.toList_single]
  simp [symbol, eq_comm]

end Construction

/-! ## Words that lead to sets

A set of positions is *exact* for a word if it holds the positions that can come next after it, and
*sound* if it holds no others. The first set is exact for the empty word. A move on a symbol that
matches a name leads from a sound set to a sound one, for the word with the name; it leads from an
exact set to an exact one if no other symbol of the set matches the name. -/

namespace ExpressionTree

variable (fits : Leaf → Name → Prop) (e : ExpressionTree Position)

/-- The leaf of a position matches a name. -/
def Takes (q : Nat) (n : Name) : Prop := ∃ x ∈ e.leaves[q]?, fits x.leaf n

/-- The positions that can come next after a word. The number of leaves is the end mark, which comes
next if the word may end. -/
def Next (u : List Name) (q : Nat) : Prop :=
  (e.numbered 0).CanTake (e.Takes fits) u q ∨
    (q = e.leaves.length ∧ u ∈ (e.numbered 0).language (e.Takes fits))

variable {fits e} {u : List Name} {n : Name} {q : Nat}

theorem language_takes :
    (e.numbered 0).language (e.Takes fits) = e.language fun x n => fits x.leaf n :=
  language_numbered _ (e.leaves[·]?) 0 e fun i _ => by rw [Nat.zero_add]

theorem CanTake.lt_length (h : (e.numbered 0).CanTake (e.Takes fits) u q) :
    q < e.leaves.length := by
  obtain ⟨t, v, -, h⟩ := h
  exact mem_leaves_numbered.mp (h.mem_leaves q (by simp))

theorem Takes.lt_length (h : e.Takes fits q n) : q < e.leaves.length := by
  obtain ⟨x, hx, -⟩ := h
  exact (List.getElem?_eq_some_iff.mp hx).1

theorem next_iff_of_lt (hq : q < e.leaves.length) :
    e.Next fits u q ↔ (e.numbered 0).CanTake (e.Takes fits) u q :=
  or_iff_left fun h => absurd h.1 hq.ne

/-- The end mark comes next after the words of the language. -/
theorem next_length :
    e.Next fits u e.leaves.length ↔ u ∈ e.language fun x n => fits x.leaf n := by
  rw [← language_takes]
  constructor
  · rintro (h | ⟨-, h⟩)
    · exact absurd h.lt_length (lt_irrefl _)
    · exact h
  · exact fun h => .inr ⟨rfl, h⟩

theorem next_nil : e.Next fits [] q ↔
    (e.numbered 0).IsFirst q ∨ (q = e.leaves.length ∧ (e.numbered 0).nullable) := by
  have hn := nodup_numbered 0 e
  unfold Next
  rw [canTake_nil hn, nil_mem_language hn]

theorem next_concat : e.Next fits (u ++ [n]) q ↔ ∃ p, e.Next fits u p ∧ e.Takes fits p n ∧
    ((e.numbered 0).Follows p q ∨ (q = e.leaves.length ∧ (e.numbered 0).IsLast p)) := by
  have hn := nodup_numbered 0 e
  have hp {p : Nat} (h : e.Takes fits p n) :
      e.Next fits u p ↔ (e.numbered 0).CanTake (e.Takes fits) u p := next_iff_of_lt h.lt_length
  unfold Next at hp ⊢
  rw [canTake_concat hn, concat_mem_language hn]
  constructor
  · rintro (⟨p, hu, ht, h⟩ | ⟨rfl, p, hu, ht, h⟩)
    · exact ⟨p, .inl hu, ht, .inl h⟩
    · exact ⟨p, .inl hu, ht, .inr ⟨rfl, h⟩⟩
  · rintro ⟨p, hu, ht, h | ⟨rfl, h⟩⟩
    · exact .inl ⟨p, (hp ht).mp hu, ht, h⟩
    · exact .inr ⟨rfl, p, (hp ht).mp hu, ht, h⟩

end ExpressionTree

namespace Construction

variable {fits : Leaf → Name → Prop} {e : ExpressionTree Position} {k : Setup}
  {set : NumberSet} {u : List Name} {n : Name} {p q : Nat} {l : Leaf} {x : Nat × NumberSet}

/-- The set holds only positions that can come next. -/
def Sound (fits : Leaf → Name → Prop) (e : ExpressionTree Position) (u : List Name)
    (set : NumberSet) : Prop :=
  ∀ q ∈ set.toList, e.Next fits u q

/-- The set holds the positions that can come next. -/
def Exact (fits : Leaf → Name → Prop) (e : ExpressionTree Position) (u : List Name)
    (set : NumberSet) : Prop :=
  ∀ q, q ∈ set.toList ↔ e.Next fits u q

theorem Exact.sound (h : Exact fits e u set) : Sound fits e u set := fun q => (h q).mp

theorem exact_start {f : Facts} {s : Survey} (hs : Survey.Extends e {} s)
    (hf : f.Describes (e.numbered 0)) : Exact fits e [] (setup f s).2 := by
  intro q
  rw [mem_start hs hf, ExpressionTree.next_nil]

theorem symbols_symbol (hk : Models k e) {y : Position} (hp : e.leaves[p]? = some y) :
    k.symbols[symbol k p]? = some y.leaf := by
  obtain ⟨s, hs, hl⟩ := hk.symbol p y hp
  rw [symbol, hs]
  exact hl

/-- Symbols differ in their leaves. -/
theorem symbol_inj (hk : Models k e) {s s' : Nat} (hs : k.symbols[s]? = some l)
    (hs' : k.symbols[s']? = some l) : s = s' := by
  obtain ⟨h, hl⟩ := Array.getElem?_eq_some_iff.mp hs
  obtain ⟨h', hl'⟩ := Array.getElem?_eq_some_iff.mp hs'
  have hlt : s < k.symbols.toList.length := h
  have hlt' : s' < k.symbols.toList.length := h'
  have heq : k.symbols.toList[s] = k.symbols.toList[s'] := by simp [hl, hl']
  exact hk.nodup.getElem_inj_iff.mp heq

theorem mem_members_of_takes (hk : Models k e) (h : e.Takes fits p n) :
    p ∈ members k set ↔ p ∈ set.toList := by
  rw [mem_members, hk.endMark]
  exact and_iff_left h.lt_length.ne

/-- The members of a sound set are positions of leaves. -/
theorem lt_length_of_mem_members (hk : Models k e) (hs : Sound fits e u set)
    (hp : p ∈ members k set) : p < e.leaves.length := by
  rw [mem_members, hk.endMark] at hp
  rcases hs p hp.1 with h | h
  · exact h.lt_length
  · exact absurd h.1 hp.2

/-- A position of the set takes the names that its symbol matches. -/
theorem takes_of_symbol (hk : Models k e) (hs : Sound fits e u set) (hp : p ∈ members k set)
    (hl : k.symbols[symbol k p]? = some l) (hf : fits l n) : e.Takes fits p n := by
  have hy := List.getElem?_eq_getElem (lt_length_of_mem_members hk hs hp)
  refine ⟨_, hy, ?_⟩
  rw [symbols_symbol hk hy] at hl
  rwa [Option.some.inj hl]

theorem sound_move (hk : Models k e) (hs : Sound fits e u set) (hx : x ∈ moves k set)
    (hl : k.symbols[x.1]? = some l) (hf : fits l n) : Sound fits e (u ++ [n]) x.2 := by
  intro q hq
  obtain ⟨p, hp, hsym, hq⟩ := (mem_move hx).mp hq
  rw [← hsym] at hl
  have ht := takes_of_symbol hk hs hp hl hf
  rw [ExpressionTree.next_concat]
  exact ⟨p, hs p (mem_members.mp hp).1, ht, (hk.follow p q ht.lt_length).mp hq⟩

theorem exact_move (hk : Models k e) (hs : Exact fits e u set) (hx : x ∈ moves k set)
    (hl : k.symbols[x.1]? = some l) (hf : fits l n)
    (hu : ∀ p ∈ set.toList, e.Takes fits p n → symbol k p = x.1) :
    Exact fits e (u ++ [n]) x.2 := by
  intro q
  refine ⟨sound_move hk hs.sound hx hl hf q, fun h => ?_⟩
  obtain ⟨p, hp, ht, h⟩ := ExpressionTree.next_concat.mp h
  have hp := (hs p).mpr hp
  rw [mem_move hx]
  exact ⟨p, (mem_members_of_takes hk ht).mpr hp, hu p hp ht, (hk.follow p q ht.lt_length).mpr h⟩

/-- A set without a symbol that matches the name has no next position after it. -/
theorem not_next_of_no_symbol (hs : Exact fits e u set)
    (hno : ∀ p ∈ set.toList, ¬ e.Takes fits p n) : ¬ e.Next fits (u ++ [n]) q := by
  intro h
  obtain ⟨p, hp, ht, -⟩ := ExpressionTree.next_concat.mp h
  exact hno p ((hs p).mpr hp) ht

end Construction

end MarkupGrammar
