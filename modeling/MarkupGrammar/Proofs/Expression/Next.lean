import MarkupGrammar.Proofs.Expression.Follow

/-! # What can come next

After a word, a label *can come next* if some word of the language begins with the word and goes on
with a letter of that label. Where all labels differ, what can come next after one more letter is
what follows the labels that could take it (`canTake_concat`, `concat_mem_language`). Every label
can come next after some word, as no part of a tree has an empty language (`exists_trace`).

The labels of a tree are made to differ by numbering its leaves in order (`numbered`). -/

namespace MarkupGrammar

namespace ExpressionTree

variable {ι α : Type} {m : ι → α → Prop} {e : ExpressionTree ι}

/-- After the letters `u` a word of the language can go on with a letter of the label `x`. -/
def CanTake (m : ι → α → Prop) (e : ExpressionTree ι) (u : List α) (x : ι) : Prop :=
  ∃ t v, List.Forall₂ m t u ∧ e.IsTrace (t ++ x :: v)

/-! ## Traces through a label -/

theorem Continues.suffix {x y : ι} {v u : List ι} (h : e.Continues x (u ++ y :: v)) :
    e.Continues y v := by
  induction u generalizing x with
  | nil => exact h.2
  | cons z u ih => exact ih h.2

theorem Continues.replace {x y : ι} {u v v' : List ι} (h : e.Continues x (u ++ y :: v))
    (h' : e.Continues y v') : e.Continues x (u ++ y :: v') := by
  induction u generalizing x with
  | nil => exact ⟨h.1, h'⟩
  | cons z u ih => exact ⟨h.1, ih h.2⟩

theorem IsTrace.suffix {u v : List ι} {x : ι} (h : e.IsTrace (u ++ x :: v)) : e.Continues x v := by
  cases u with
  | nil => exact h.2
  | cons y u => exact Continues.suffix h.2

/-- What comes after a label in a trace can be replaced. -/
theorem IsTrace.replace {u v v' : List ι} {x : ι} (h : e.IsTrace (u ++ x :: v))
    (h' : e.Continues x v') : e.IsTrace (u ++ x :: v') := by
  cases u with
  | nil => exact ⟨h.1, h'⟩
  | cons y u => exact ⟨h.1, Continues.replace h.2 h'⟩

theorem IsTrace.mem_leaves {w : List ι} (h : e.IsTrace w) : ∀ x ∈ w, x ∈ e.leaves := by
  intro x hx
  obtain ⟨u, v, rfl⟩ := List.append_of_mem hx
  exact h.suffix.mem_leaves

theorem exists_mem_language (e : ExpressionTree ι) : ∃ w, w ∈ e.language fun x y => x = y := by
  induction e with
  | empty => exact ⟨[], rfl⟩
  | leaf x => exact ⟨[x], x, rfl, rfl⟩
  | choice a b iha => exact iha.imp fun w hw => Or.inl hw
  | sequence a b iha ihb =>
    obtain ⟨u, hu⟩ := iha
    obtain ⟨v, hv⟩ := ihb
    exact ⟨u ++ v, u, hu, v, hv, rfl⟩
  | optional a => exact ⟨[], Or.inl rfl⟩
  | zeroOrMore a => exact ⟨[], Language.nil_mem_kstar _⟩
  | oneOrMore a ih =>
    obtain ⟨u, hu⟩ := ih
    exact ⟨u ++ [], u, hu, [], Language.nil_mem_kstar _, rfl⟩

theorem exists_mem_language_through {x : ι} (hx : x ∈ e.leaves) :
    ∃ u v, u ++ x :: v ∈ e.language fun x y => x = y := by
  induction e with
  | empty => simp [leaves] at hx
  | leaf y =>
    obtain rfl := List.mem_singleton.mp hx
    exact ⟨[], [], x, rfl, rfl⟩
  | choice a b iha ihb =>
    rcases List.mem_append.mp hx with h | h
    · obtain ⟨u, v, h⟩ := iha h
      exact ⟨u, v, Or.inl h⟩
    · obtain ⟨u, v, h⟩ := ihb h
      exact ⟨u, v, Or.inr h⟩
  | sequence a b iha ihb =>
    rcases List.mem_append.mp hx with h | h
    · obtain ⟨u, v, h⟩ := iha h
      obtain ⟨w, hw⟩ := exists_mem_language b
      exact ⟨u, v ++ w, _, h, w, hw, by simp⟩
    · obtain ⟨u, v, h⟩ := ihb h
      obtain ⟨w, hw⟩ := exists_mem_language a
      exact ⟨w ++ u, v, w, hw, _, h, by simp⟩
  | optional a ih =>
    obtain ⟨u, v, h⟩ := ih hx
    exact ⟨u, v, Or.inr h⟩
  | zeroOrMore a ih =>
    obtain ⟨u, v, h⟩ := ih hx
    exact ⟨u, v, le_kstar (a := a.language fun x y => x = y) h⟩
  | oneOrMore a ih =>
    obtain ⟨u, v, h⟩ := ih hx
    exact ⟨u, v, _, h, [], Language.nil_mem_kstar _, by simp⟩

/-- Every label is in some trace. -/
theorem exists_trace (hn : e.leaves.Nodup) {x : ι} (hx : x ∈ e.leaves) :
    ∃ u v, e.IsTrace (u ++ x :: v) := by
  obtain ⟨u, v, h⟩ := exists_mem_language_through hx
  rw [language_eq_traces hn] at h
  exact ⟨u, v, h⟩

/-! ## One more letter -/

theorem canTake_nil (hn : e.leaves.Nodup) {x : ι} : e.CanTake m [] x ↔ e.IsFirst x := by
  constructor
  · rintro ⟨t, v, ht, h⟩
    obtain rfl := List.forall₂_nil_right_iff.mp ht
    exact h.1
  · intro h
    obtain ⟨u, v, hx⟩ := exists_trace hn h.mem_leaves
    exact ⟨[], v, .nil, h, hx.suffix⟩

theorem nil_mem_language (hn : e.leaves.Nodup) : [] ∈ e.language m ↔ e.nullable := by
  rw [mem_language_iff hn]
  constructor
  · rintro ⟨t, h, ht⟩
    obtain rfl := List.forall₂_nil_right_iff.mp ht
    exact h
  · intro h
    exact ⟨[], h, .nil⟩

theorem forall₂_concat_right {t : List ι} {u : List α} {a : α}
    (h : List.Forall₂ m t (u ++ [a])) : ∃ t' x, t = t' ++ [x] ∧ List.Forall₂ m t' u ∧ m x a := by
  obtain ⟨t', s, ht, hs, rfl⟩ := forall₂_append_left h.flip
  obtain ⟨x, _, hx, hnil, rfl⟩ := List.forall₂_cons_left_iff.mp hs
  obtain rfl := List.forall₂_nil_left_iff.mp hnil
  exact ⟨t', x, rfl, ht.flip, hx⟩

/-- After one more letter what follows the labels that can take it can come next. -/
theorem canTake_concat (hn : e.leaves.Nodup) {u : List α} {a : α} {y : ι} :
    e.CanTake m (u ++ [a]) y ↔ ∃ x, e.CanTake m u x ∧ m x a ∧ e.Follows x y := by
  constructor
  · rintro ⟨t, v, ht, h⟩
    obtain ⟨t, x, rfl, ht, hx⟩ := forall₂_concat_right ht
    rw [List.append_assoc] at h
    exact ⟨x, ⟨t, y :: v, ht, h⟩, hx, (IsTrace.suffix h).1⟩
  · rintro ⟨x, ⟨t, v, ht, h⟩, hx, hf⟩
    obtain ⟨_, v', hy⟩ := exists_trace hn hf.mem_leaves.2
    refine ⟨t ++ [x], v', List.rel_append ht (.cons hx .nil), ?_⟩
    rw [List.append_assoc]
    exact h.replace ⟨hf, hy.suffix⟩

/-- A word may end with a letter that a last label can take. -/
theorem concat_mem_language (hn : e.leaves.Nodup) {u : List α} {a : α} :
    u ++ [a] ∈ e.language m ↔ ∃ x, e.CanTake m u x ∧ m x a ∧ e.IsLast x := by
  rw [mem_language_iff hn]
  constructor
  · rintro ⟨t, h, ht⟩
    obtain ⟨t, x, rfl, ht, hx⟩ := forall₂_concat_right ht
    exact ⟨x, ⟨t, [], ht, h⟩, hx, h.suffix⟩
  · rintro ⟨x, ⟨t, v, ht, h⟩, hx, hl⟩
    exact ⟨t ++ [x], h.replace hl, List.rel_append ht (.cons hx .nil)⟩

/-! ## Numbered leaves -/

/-- The leaves numbered in order, from `b` on. -/
def numbered (b : Nat) : ExpressionTree ι → ExpressionTree Nat
  | empty => empty
  | leaf _ => leaf b
  | choice x y => choice (x.numbered b) (y.numbered (b + x.leaves.length))
  | sequence x y => sequence (x.numbered b) (y.numbered (b + x.leaves.length))
  | optional x => optional (x.numbered b)
  | zeroOrMore x => zeroOrMore (x.numbered b)
  | oneOrMore x => oneOrMore (x.numbered b)

theorem leaves_numbered (b : Nat) (e : ExpressionTree ι) :
    (e.numbered b).leaves = List.range' b e.leaves.length := by
  induction e generalizing b with
  | empty | leaf x => rfl
  | choice x y ihx ihy | sequence x y ihx ihy =>
    simp only [numbered, leaves, ihx, ihy, List.length_append]
    exact List.range'_append_1
  | optional x ih | zeroOrMore x ih | oneOrMore x ih => exact ih b

theorem mem_leaves_numbered {q : Nat} : q ∈ (e.numbered 0).leaves ↔ q < e.leaves.length := by
  rw [leaves_numbered, List.mem_range'_1]
  omega

theorem nodup_numbered (b : Nat) (e : ExpressionTree ι) : (e.numbered b).leaves.Nodup := by
  rw [leaves_numbered]
  exact List.nodup_range'

theorem numbered_map {κ : Type} (f : ι → κ) (b : Nat) (e : ExpressionTree ι) :
    (e.map f).numbered b = e.numbered b := by
  induction e generalizing b <;> simp_all [map, numbered]

/-- The language of a tree in terms of the numbers of its leaves, where `f` looks them up. -/
theorem language_numbered (m : ι → α → Prop) (f : Nat → Option ι) (b : Nat) (e : ExpressionTree ι)
    (hf : ∀ i < e.leaves.length, f (b + i) = e.leaves[i]?) :
    ((e.numbered b).language fun q a => ∃ x ∈ f q, m x a) = e.language m := by
  have left {x y : List ι} {b : Nat}
      (h : ∀ i < (x ++ y).length, f (b + i) = (x ++ y)[i]?) (i : Nat) (hi : i < x.length) :
      f (b + i) = x[i]? := by
    rw [h i (by simp; omega), List.getElem?_append_left hi]
  have right {x y : List ι} {b : Nat}
      (h : ∀ i < (x ++ y).length, f (b + i) = (x ++ y)[i]?) (i : Nat) (hi : i < y.length) :
      f (b + x.length + i) = y[i]? := by
    rw [Nat.add_assoc, h _ (by simp; omega), List.getElem?_append_right (by omega),
      Nat.add_sub_cancel_left]
  induction e generalizing b with
  | empty => rfl
  | leaf x =>
    have h : f b = some x := hf 0 Nat.zero_lt_one
    simp [numbered, language, h]
  | choice x y ihx ihy | sequence x y ihx ihy =>
    simp only [numbered, language]
    rw [ihx b (left hf), ihy _ (right hf)]
  | optional x ih | zeroOrMore x ih | oneOrMore x ih =>
    simp only [numbered, language]
    rw [ih b hf]

end ExpressionTree

end MarkupGrammar
