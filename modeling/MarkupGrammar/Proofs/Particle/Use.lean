import MarkupGrammar.Proofs.Particle.Attribution

/-! # Leaves in use

A leaf is in use if no range around it prohibits it. The names that occur in words are those that
the leaves in use match (`exists_mem_words_iff`), and the words of a particle depend on these leaves
alone (`words_mono`). If the particle is not ambiguous, a word has one attribution
(`attribution_unique`); so each leaf in use counts, and leaves that match fewer names give fewer
words (`words_subset_iff`). -/

namespace MarkupGrammar

namespace Particle

variable {fits fits' : Leaf → Name → Prop} {p : Particle} {ps : List Particle} {l : Leaf}
  {u : List Name} {v v' : List (Place × Name)}

/-- The leaf is one of the particle that is not prohibited. -/
inductive Uses : Particle → Leaf → Prop
  | leaf {l : Leaf} {o : Occurs} : o.isEmpty = false → Uses (.leaf l o) l
  | group {c : Compositor} {ms : List Particle} {o : Occurs} {p : Particle} {l : Leaf} :
    o.isEmpty = false → p ∈ ms → Uses p l → Uses (.group c ms o) l

/-- The leaf is one of the particle that a range around it prohibits. -/
inductive Prohibits : Particle → Leaf → Prop
  | leaf {l : Leaf} {o : Occurs} : o.isEmpty = true → Prohibits (.leaf l o) l
  | within {c : Compositor} {ms : List Particle} {o : Occurs} {l : Leaf} :
    o.isEmpty = true → l ∈ leavesOf ms → Prohibits (.group c ms o) l
  | member {c : Compositor} {ms : List Particle} {o : Occurs} {p : Particle} {l : Leaf} :
    p ∈ ms → Prohibits p l → Prohibits (.group c ms o) l

theorem mem_leavesOf : l ∈ leavesOf ps ↔ ∃ p ∈ ps, l ∈ p.leaves := by
  induction ps with
  | nil => simp [leavesOf]
  | cons p ps ih => simp [leavesOf, ih]

mutual
/-- A leaf is in use or prohibited, or both at different places. -/
theorem mem_leaves_iff : ∀ p : Particle, l ∈ p.leaves ↔ p.Uses l ∨ p.Prohibits l
  | .leaf l' o => by
    rw [leaves, List.mem_singleton]
    constructor
    · rintro rfl
      cases ho : o.isEmpty with
      | false => exact .inl (.leaf ho)
      | true => exact .inr (.leaf ho)
    · rintro (h | h) <;> cases h <;> rfl
  | .group c ms o => by
    rw [leaves, mem_leavesOf]
    constructor
    · rintro ⟨p, hp, hl⟩
      cases ho : o.isEmpty with
      | true => exact .inr (.within ho (mem_leavesOf.mpr ⟨p, hp, hl⟩))
      | false =>
        rcases (mem_leaves_iff_of_mem ms p hp).mp hl with hu | hn
        · exact .inl (.group ho hp hu)
        · exact .inr (.member hp hn)
    · rintro (h | h)
      · cases h with
        | group _ hp hu => exact ⟨_, hp, (mem_leaves_iff_of_mem ms _ hp).mpr (.inl hu)⟩
      · cases h with
        | within _ hl => exact mem_leavesOf.mp hl
        | member hp hn => exact ⟨_, hp, (mem_leaves_iff_of_mem ms _ hp).mpr (.inr hn)⟩

theorem mem_leaves_iff_of_mem : ∀ ps : List Particle, ∀ p ∈ ps,
    (l ∈ p.leaves ↔ p.Uses l ∨ p.Prohibits l)
  | [], _, h => absurd h List.not_mem_nil
  | q :: ps, p, h => by
    rcases List.mem_cons.mp h with h | h
    · exact h ▸ mem_leaves_iff q
    · exact mem_leaves_iff_of_mem ps p h
end

mutual
/-- The leaves of the tree are those in use. -/
theorem exists_mem_tree_iff (n : Nat) : ∀ p : Particle, p.Lowerable →
    ((∃ x ∈ (p.tree n).leaves, x.leaf = l) ↔ p.Uses l)
  | .leaf l' o, h => by
    unfold tree
    split
    · rename_i he
      refine iff_of_false (by simp [ExpressionTree.leaves]) fun hu => ?_
      cases hu with
      | leaf ho => exact absurd he (by simp [ho])
    · rename_i he
      have ho : o.isEmpty = false := by simpa using he
      simp only [ExpressionTree.mem_leaves_repeated h ho, ExpressionTree.leaves, List.mem_singleton,
        exists_eq_left]
      constructor
      · rintro rfl
        exact .leaf ho
      · intro hu
        cases hu with
        | leaf _ => rfl
  | .group c ms o, h => by
    unfold tree
    split
    · rename_i he
      refine iff_of_false (by simp [ExpressionTree.leaves]) fun hu => ?_
      cases hu with
      | group ho _ _ => exact absurd he (by simp [ho])
    · rename_i he
      have ho : o.isEmpty = false := by simpa using he
      simp only [ExpressionTree.mem_leaves_repeated h.1 ho, ExpressionTree.leaves_combined]
      rw [exists_mem_trees_iff 0 n ms (h.2 ho).2]
      constructor
      · rintro ⟨p, hp, hu⟩
        exact .group ho hp hu
      · intro hu
        cases hu with
        | group _ hp hu => exact ⟨_, hp, hu⟩

theorem exists_mem_trees_iff (k n : Nat) : ∀ ps : List Particle, LowerableAll ps →
    ((∃ x ∈ (trees k n ps).flatMap ExpressionTree.leaves, x.leaf = l) ↔ ∃ p ∈ ps, p.Uses l)
  | [], _ => by simp [trees]
  | p :: ps, h => by
    simp only [trees, List.flatMap_cons, List.mem_append, or_and_right, exists_or,
      List.exists_mem_cons_iff]
    rw [exists_mem_trees_iff (k + 1) (n + p.leafCount) ps h.2, ← exists_mem_tree_iff n p h.1]
    simp [ExpressionTree.leaves_map, Source.under]
end

/-! ## Words and attributions -/

/-- Leaves in use that match more names give more words. -/
theorem words_mono (hp : p.Lowerable) (h : ∀ l, p.Uses l → ∀ n, fits l n → fits' l n) :
    ∀ w ∈ p.words fits, w ∈ p.words fits' := by
  intro w hw
  obtain ⟨t, ht, hm⟩ := (mem_language_iff (k := 0) hp).mp hw
  refine (mem_language_iff (k := 0) hp).mpr ⟨t, ht, hm.imp ?_⟩
  rintro q n ⟨x, hx, hn⟩
  have hu := (exists_mem_tree_iff 0 p hp).mp ⟨x, List.mem_of_getElem? hx, rfl⟩
  exact ⟨x, hx, h x.leaf hu n hn⟩

/-- The names of an attribution are a word. -/
theorem word_of_attribution (hp : p.Lowerable) (hv : v ∈ p.attributions fits) :
    v.map Prod.snd ∈ p.words fits := by
  obtain ⟨t, ht, hm⟩ := (mem_attributions_iff (k := 0) hp).mp hv
  refine (mem_language_iff (k := 0) hp).mpr ⟨t, ht, List.forall₂_map_right_iff.mpr (hm.imp ?_)⟩
  rintro q a ⟨x, hx, -, hn⟩
  exact ⟨x, hx, hn⟩

/-- A word has an attribution. -/
theorem exists_attribution_of_word (hp : p.Lowerable) (hu : u ∈ p.words fits) :
    ∃ v ∈ p.attributions fits, v.map Prod.snd = u := by
  obtain ⟨t, ht, hm⟩ := (mem_language_iff (k := 0) hp).mp hu
  obtain ⟨v, rfl, hv⟩ := exists_forall₂_map (f := Prod.snd) (R := TakesAt fits (p.tree 0))
    (fun q n ⟨x, hx, hn⟩ => ⟨(x.place, n), rfl, x, hx, rfl, hn⟩) hm
  exact ⟨v, (mem_attributions_iff hp).mpr ⟨t, ht, hv⟩, rfl⟩

/-- Some word attributes a name to a leaf in use that matches it. -/
theorem exists_attribution_through (hp : p.Lowerable) (hf : ∀ l : Leaf, ∃ n, fits l n) {x : Source}
    (hx : x ∈ (p.tree 0).leaves) {n : Name} (hn : fits x.leaf n) :
    ∃ v w, v ++ (x.place, n) :: w ∈ p.attributions fits := by
  obtain ⟨q, hq⟩ := List.mem_iff_getElem?.mp hx
  have hlt := (List.getElem?_eq_some_iff.mp hq).1
  obtain ⟨t₁, t₂, ht⟩ := ExpressionTree.exists_trace (ExpressionTree.nodup_numbered 0 (p.tree 0))
    (ExpressionTree.mem_leaves_numbered.mpr hlt)
  obtain ⟨v, hv⟩ := exists_takesAt p hf (t := t₁) fun q' hq' =>
    ht.mem_leaves q' (List.mem_append_left _ hq')
  exact ⟨v, exists_attribution hp hf ht hv (a := (x.place, n)) ⟨x, hq, rfl, hn⟩⟩

/-- **The names in words are those that the leaves in use match.** -/
theorem exists_mem_words_iff (hp : p.Lowerable) (hf : ∀ l : Leaf, ∃ n, fits l n) {n : Name} :
    (∃ w ∈ p.words fits, n ∈ w) ↔ ∃ l, p.Uses l ∧ fits l n := by
  constructor
  · rintro ⟨w, hw, hn⟩
    obtain ⟨t, -, hm⟩ := (mem_language_iff (k := 0) hp).mp hw
    obtain ⟨w₁, w₂, rfl⟩ := List.append_of_mem hn
    obtain ⟨_, q, _, -, -, x, hx, hxn⟩ := forall₂_split hm
    exact ⟨x.leaf, (exists_mem_tree_iff 0 p hp).mp ⟨x, List.mem_of_getElem? hx, rfl⟩, hxn⟩
  · rintro ⟨l, hl, hn⟩
    obtain ⟨x, hx, rfl⟩ := (exists_mem_tree_iff 0 p hp).mpr hl
    obtain ⟨v, w, hw⟩ := exists_attribution_through hp hf hx hn
    exact ⟨_, word_of_attribution hp hw, by simp⟩

/-- **In a particle that is not ambiguous a word has one attribution.** -/
theorem attribution_unique (h : ¬ p.IsAmbiguous fits) (hv : v ∈ p.attributions fits)
    (hv' : v' ∈ p.attributions fits) (hn : v.map Prod.snd = v'.map Prod.snd) : v = v' := by
  -- by induction on what comes after a common part
  have rest (r : List (Place × Name)) : ∀ c r', c ++ r ∈ p.attributions fits →
      c ++ r' ∈ p.attributions fits → r.map Prod.snd = r'.map Prod.snd → r = r' := by
    induction r with
    | nil =>
      intro c r' _ _ hn
      exact (List.map_eq_nil_iff.mp hn.symm).symm
    | cons a r ih =>
      intro c r' hr hr' hn
      obtain ⟨b, r', rfl, hab, hnames⟩ := List.map_eq_cons_iff.mp hn.symm
      obtain ⟨i, n⟩ := a
      obtain ⟨j, n'⟩ := b
      obtain rfl : n' = n := hab
      have hij : i = j := by
        by_contra hij
        exact h ⟨c.map Prod.snd, n', i, j, hij, ⟨c, r, rfl, hr⟩, ⟨c, r', rfl, hr'⟩⟩
      subst hij
      rw [ih (c ++ [(i, n')]) r' (by simpa using hr) (by simpa using hr') hnames.symm]
  exact rest v [] v' hv hv' hn

/-- **Without ambiguity, the words are the same if and only if the leaves in use match the same
names.** -/
theorem words_subset_iff (hp : p.Lowerable) (hf : ∀ l : Leaf, ∃ n, fits l n)
    (hle : ∀ l n, fits' l n → fits l n) (ha : ¬ p.IsAmbiguous fits) :
    (∀ w ∈ p.words fits, w ∈ p.words fits') ↔ ∀ l, p.Uses l → ∀ n, fits l n → fits' l n := by
  refine ⟨fun h l hl n hn => ?_, words_mono hp⟩
  obtain ⟨x, hx, rfl⟩ := (exists_mem_tree_iff 0 p hp).mpr hl
  obtain ⟨v, w, hw⟩ := exists_attribution_through hp hf hx hn
  -- the word with `n` at `x` has an attribution by `fits'`, which is the same
  obtain ⟨v', hv', hnames⟩ := exists_attribution_of_word hp (h _ (word_of_attribution hp hw))
  obtain ⟨t', ht', hm'⟩ := (mem_attributions_iff (k := 0) hp).mp hv'
  have hv'fits : v' ∈ p.attributions fits := by
    refine (mem_attributions_iff hp).mpr ⟨t', ht', hm'.imp ?_⟩
    rintro q' a ⟨y, hy, hplace, hyn⟩
    exact ⟨y, hy, hplace, hle _ _ hyn⟩
  obtain rfl := attribution_unique ha hv'fits hw hnames
  obtain ⟨_, q', _, -, -, y, hy, hplace, hyn⟩ := forall₂_split hm'
  obtain rfl := distinct_tree 0 p hp x hx y (List.mem_of_getElem? hy) (.inl hplace)
  exact hyn

end Particle

end MarkupGrammar
