import MarkupGrammar.Proofs.Content.Counts
import MarkupGrammar.Proofs.Lowering.Tree
import MarkupGrammar.Proofs.Particle.Orderings

/-! # All-groups and their orderings

An all-group is written as the choice of the orderings of its members (`permuted`, with
`text_permuted`). The compiled group counts: it admits the words whose names are matched by members,
each as often as its range allows, as long as no counter goes round
(`AllGroup.admits_iff_of_lt`). In an ordering the names of a member stand side by side, in the
compiled group they need not. So every word of an ordering is admitted, and there are others if and
only if a member of several may be repeated (`admits_permuted_and_iff`). -/

namespace MarkupGrammar

/-! ## The choice of the orderings -/

namespace Particle

variable {ms : List Particle} {o : Occurs} {limits : Limits} {fits : Leaf → Name → Prop}
  {w : List Name}

/-- The choice of the orderings of some members, each a sequence. -/
def permuted (ms : List Particle) (o : Occurs) : Particle :=
  .group .choice ((orderings ms).map fun order => .group .sequence order .once) o

/-- The written forms of the members of a group, if each has one. -/
theorem memberTexts_of_forall {f : Particle → String}
    (h : ∀ p ∈ ms, innerText limits p = .ok (f p)) :
    memberTexts limits false ms = .ok (ms.map f) := by
  rw [memberTexts_eq_ok_iff, List.forall₂_map_right_iff, List.forall₂_same]
  exact fun p hp => ⟨Bool.noConfusion, h p hp⟩

theorem exists_map_eq {texts : List String}
    (h : List.Forall₂ (fun p t => p.occurs.isBasic ∧ innerText limits p = .ok t) ms texts) :
    ∃ f : Particle → String, (∀ p ∈ ms, innerText limits p = .ok (f p)) ∧ texts = ms.map f := by
  let f (p : Particle) : String := ((innerText limits p).toOption).getD ""
  have hf {p : Particle} {t : String} (ht : innerText limits p = .ok t) : f p = t := by
    simp only [f, ht, Except.toOption, Option.getD_some]
  refine ⟨f, ?_⟩
  induction h with
  | nil => exact ⟨(fun _ hp => nomatch hp), rfl⟩
  | @cons p t ms texts hp _ ih =>
    obtain ⟨hms, rfl⟩ := ih
    rw [List.map_cons, hf hp.2]
    exact ⟨List.forall_mem_cons.mpr ⟨(hf hp.2).symm ▸ hp.2, hms⟩, rfl⟩

/-- **The choice of the orderings is what is written for an all-group.** -/
theorem text_permuted {s : String} (h : (group .all ms o).text limits = .ok s) :
    (permuted ms o).text limits = .ok s := by
  suffices hi : ∀ s, innerText limits (.group .all ms o) = .ok s →
      innerText limits (permuted ms o) = .ok s by
    unfold Particle.text at h ⊢
    obtain ⟨t, ht, h⟩ := of_bind_eq_ok h
    rw [hi t ht]
    exact h
  intro s h
  obtain ⟨-, texts, htexts, rfl⟩ := innerText_all_eq_ok_iff.mp h
  obtain ⟨f, hf, rfl⟩ := exists_map_eq htexts
  have hsequence (order : List Particle) (ho : order ∈ orderings ms) :
      innerText limits (.group .sequence order .once) =
        .ok (parenthesized (Text.joined "," (order.map f))) := by
    have horder := memberTexts_of_forall fun p hp => hf p ((mem_orderings.mp ho).mem_iff.mp hp)
    unfold innerText
    rw [show (Compositor.sequence == .all) = false from rfl, horder]
    exact congrArg Except.ok (String.append_empty)
  have hchoice : memberTexts limits false ((orderings ms).map fun order =>
      .group .sequence order .once) = .ok (((orderings ms).map fun order =>
        .group .sequence order .once).map fun p => ((innerText limits p).toOption).getD "") := by
    refine memberTexts_of_forall ?_
    simp only [List.forall_mem_map]
    intro order ho
    rw [hsequence order ho]
    rfl
  unfold permuted innerText
  rw [show (Compositor.choice == .all) = false from rfl, hchoice, orderingsText, orderings_map]
  simp only [List.map_map]
  refine congrArg (fun ts : List String =>
    Except.ok (parenthesized (Text.joined "|" ts) ++ o.text)) ?_
  refine List.map_congr_left fun order ho => ?_
  simp only [Function.comp_apply, hsequence order ho]
  rfl

/-! ### Words -/

theorem languages_eq_map (k : Nat) :
    languages (fun _ l n => fits l n) k ms = ms.map (words fits) := by
  induction ms generalizing k with
  | nil => rfl
  | cons p ms ih =>
    rw [languages, ih]
    rfl

theorem mem_words_once {order : List Particle} :
    w ∈ (group .sequence order .once).words fits ↔ w ∈ (order.map (words fits)).prod := by
  rw [words, language, languages_eq_map, Occurs.once, Occurs.language_once,
    Compositor.language_sequence]

/-- The words of the particles, one after the other in some order. -/
def orderingWords (fits : Leaf → Name → Prop) (ms : List Particle) : Language Name :=
  {w | ∃ order : List Particle, order.Perm ms ∧ w ∈ (order.map (words fits)).prod}

/-- The words of the choice are those of the orderings, repeated as the group is. -/
theorem words_permuted : (permuted ms o).words fits = o.language (orderingWords fits ms) := by
  have hne : (orderings ms).map (fun order => group .sequence order .once) ≠ [] := by
    intro h
    have := List.map_eq_nil_iff.mp h ▸ mem_orderings.mpr (List.Perm.refl ms)
    exact absurd this List.not_mem_nil
  rw [permuted, words, language, languages_eq_map]
  refine congrArg o.language (Set.ext fun w => ?_)
  refine (Compositor.mem_language_choice (by simpa using hne)).trans ?_
  simp only [List.mem_map, exists_exists_and_eq_and, mem_words_once, mem_orderings]
  rfl

end Particle

/-! ## Members -/

namespace AllMember

/-- The words that the member allows side by side. -/
def words (m : AllMember) : Language Name := m.particle.words fun l n => l.accepts n

variable {m : AllMember} {w : List Name} {n : Name}

theorem mem_words : w ∈ m.words ↔ (∀ n ∈ w, m.accepts n) ∧ m.occurs.Contains w.length := by
  have hpow (k : Nat) (w : List Name) : w ∈ letters (fun n => m.accepts n = true) ^ k ↔
      w.length = k ∧ ∀ n ∈ w, m.accepts n := by
    induction k generalizing w with
    | zero =>
      rw [pow_zero, Language.mem_one, List.length_eq_zero_iff]
      constructor
      · rintro rfl
        exact ⟨rfl, by simp⟩
      · exact And.left
    | succ k ih =>
      rw [pow_succ', Language.mem_mul]
      constructor
      · rintro ⟨_, ⟨a, ha, rfl⟩, v, hv, rfl⟩
        obtain ⟨hlength, hall⟩ := (ih v).mp hv
        exact ⟨by simp [hlength], List.forall_mem_cons.mpr ⟨ha, hall⟩⟩
      · rintro ⟨hlength, hall⟩
        cases w with
        | nil => exact absurd hlength (Nat.zero_ne_add_one k)
        | cons a v =>
          obtain ⟨ha, hall⟩ := List.forall_mem_cons.mp hall
          exact ⟨[a], ⟨a, ha, rfl⟩, v, (ih v).mpr ⟨Nat.succ.inj hlength, hall⟩, rfl⟩
  constructor
  · rintro ⟨k, hmin, hmax, hw⟩
    obtain ⟨rfl, hall⟩ := (hpow k w).mp hw
    exact ⟨hall, hmin, hmax⟩
  · rintro ⟨hall, hmin, hmax⟩
    exact ⟨w.length, hmin, hmax, (hpow _ w).mpr ⟨rfl, hall⟩⟩

theorem count_eq_length (h : ∀ n ∈ w, m.accepts n) : m.count w = w.length :=
  List.countP_eq_length.mpr h

theorem count_eq_zero (h : ∀ n ∈ w, m.accepts n = false) : m.count w = 0 :=
  List.countP_eq_zero.mpr fun n hn => by simp [h n hn]

end AllMember

namespace AllGroup

variable {ms : List AllMember} {w : List Name} {n : Name} {m m' : AllMember} {i j : Nat}

/-! ## Orderings of members -/

/-- In a word of an ordering the names of a member stand side by side. -/
theorem Apart.exists_part (h : Apart ms) (hm : m ∈ ms)
    (hw : w ∈ (ms.map AllMember.words).prod) : ∃ u v x, w = u ++ v ++ x ∧ v ∈ m.words ∧
      (∀ n ∈ u, m.accepts n = false) ∧ ∀ n ∈ x, m.accepts n = false := by
  obtain ⟨before, after, rfl⟩ := List.append_of_mem hm
  rw [List.map_append, List.map_cons, List.prod_append, List.prod_cons] at hw
  obtain ⟨u, hu, y, hy, rfl⟩ := Language.mem_mul.mp hw
  obtain ⟨v, hv, x, hx, rfl⟩ := Language.mem_mul.mp hy
  obtain ⟨-, hafter, hbefore⟩ := List.pairwise_append.mp h
  have hother {ms : List AllMember} {w : List Name} (hw : w ∈ (ms.map AllMember.words).prod)
      (hms : ∀ m' ∈ ms, ∀ n, m'.accepts n → m.accepts n = false) :
      ∀ n ∈ w, m.accepts n = false := by
    intro n hn
    obtain ⟨L, hL, z, hz, hn⟩ := exists_of_mem_prod hw hn
    obtain ⟨m', hm', rfl⟩ := List.mem_map.mp hL
    exact hms m' hm' n ((AllMember.mem_words.mp hz).1 n hn)
  refine ⟨u, v, x, (List.append_assoc _ _ _).symm, hv, hother hu ?_, hother hx ?_⟩
  · exact fun m' hm' => hbefore m' hm' m List.mem_cons_self
  · exact fun m' hm' => apart_symm ((List.pairwise_cons.mp hafter).1 m' hm')

/-- A word of an ordering consists of names of the members, each in its range. -/
theorem Apart.covers_of_mem_prod (h : Apart ms) (hw : w ∈ (ms.map AllMember.words).prod) :
    Covers ms w ∧ ∀ m ∈ ms, m.occurs.Contains (m.count w) := by
  constructor
  · intro n hn
    obtain ⟨L, hL, z, hz, hn⟩ := exists_of_mem_prod hw hn
    obtain ⟨m, hm, rfl⟩ := List.mem_map.mp hL
    exact ⟨m, hm, (AllMember.mem_words.mp hz).1 n hn⟩
  · intro m hm
    obtain ⟨u, v, x, rfl, hv, hu, hx⟩ := h.exists_part hm hw
    obtain ⟨hall, hrange⟩ := AllMember.mem_words.mp hv
    have hcount : m.count (u ++ v ++ x) = v.length := by
      have hu := AllMember.count_eq_zero hu
      have hv := AllMember.count_eq_length hall
      have hx := AllMember.count_eq_zero hx
      simp only [AllMember.count, List.countP_append] at *
      omega
    rwa [hcount]

/-- If no member may be repeated, the names of a word say in which order the members come. -/
theorem Apart.exists_ordering (h : Apart ms) (hsingle : ∀ m ∈ ms, m.occurs.max = some 1)
    (hc : Covers ms w) (hr : ∀ m ∈ ms, m.occurs.Contains (m.count w)) :
    ∃ order : List AllMember, order.Perm ms ∧ w ∈ (order.map AllMember.words).prod := by
  induction w generalizing ms with
  | nil =>
    refine ⟨ms, .refl ms, ?_⟩
    have hnil : ∀ m ∈ ms, [] ∈ m.words := fun m hm =>
      AllMember.mem_words.mpr ⟨by simp, hr m hm⟩
    clear h hsingle hc hr
    induction ms with
    | nil => rfl
    | cons m ms ih =>
      obtain ⟨hm, hms⟩ := List.forall_mem_cons.mp hnil
      exact ⟨[], hm, [], ih hms, rfl⟩
  | cons n w ih =>
    obtain ⟨hn, hcw⟩ := List.forall_mem_cons.mp hc
    obtain ⟨m, hm, hmn⟩ := hn
    obtain ⟨before, after, rfl⟩ := List.append_of_mem hm
    have hperm : (before ++ m :: after).Perm (m :: (before ++ after)) := List.perm_middle
    obtain ⟨hothers, hrest⟩ := List.pairwise_cons.mp (h.perm hperm.symm)
    have hcount (m' : AllMember) : m'.count (n :: w) =
        m'.count w + if m'.accepts n then 1 else 0 := List.countP_cons
    -- the member of the first name has no other
    have hno : ∀ n' ∈ w, m.accepts n' = false := by
      have hle := (hr m hm).2 1 (hsingle m hm)
      rw [hcount, if_pos hmn] at hle
      have hzero : m.count w = 0 := by omega
      simpa using List.countP_eq_zero.mp hzero
    have hmem : ∀ m' ∈ before ++ after, m' ∈ before ++ m :: after := fun m' hm' =>
      hperm.mem_iff.mpr (List.mem_cons_of_mem m hm')
    obtain ⟨order, horder, hw⟩ := ih hrest (fun m' hm' => hsingle m' (hmem m' hm'))
      (fun n' hn' => by
        obtain ⟨m', hm', hmn'⟩ := hcw n' hn'
        rcases List.mem_cons.mp (hperm.mem_iff.mp hm') with rfl | hm'
        · rw [hno n' hn'] at hmn'
          exact Bool.noConfusion hmn'
        · exact ⟨m', hm', hmn'⟩)
      (fun m' hm' => by
        have hrange := hr m' (hmem m' hm')
        rwa [hcount, if_neg (by simp [hothers m' hm' n hmn])] at hrange)
    refine ⟨m :: order, (horder.cons m).trans hperm.symm, ?_⟩
    have hone : [n] ∈ m.words := by
      have hrange := hr m hm
      rw [hcount, if_pos hmn, AllMember.count_eq_zero hno] at hrange
      exact AllMember.mem_words.mpr ⟨by simpa using hmn, hrange⟩
    exact ⟨[n], hone, w, hw, rfl⟩

/-- A word with one name of each member. -/
theorem Apart.count_map (h : Apart ms) {f : AllMember → Name}
    (hf : ∀ m : AllMember, m.accepts (f m)) (hm : m ∈ ms) : m.count (ms.map f) = 1 := by
  obtain ⟨before, after, rfl⟩ := List.append_of_mem hm
  obtain ⟨-, hafter, hbefore⟩ := List.pairwise_append.mp h
  have hu : m.count (before.map f) = 0 := AllMember.count_eq_zero <| by
    simp only [List.forall_mem_map]
    exact fun m' hm' => hbefore m' hm' m List.mem_cons_self _ (hf m')
  have hx : m.count (after.map f) = 0 := AllMember.count_eq_zero <| by
    simp only [List.forall_mem_map]
    exact fun m' hm' => apart_symm ((List.pairwise_cons.mp hafter).1 m' hm') _ (hf m')
  rw [AllMember.count] at hu hx ⊢
  rw [List.map_append, List.map_cons, List.countP_append, List.countP_cons, if_pos (hf m), hu, hx]

/-- A word that begins and ends with names of a member is none of an ordering, if another member has
a name between them: the part of the member would be the whole word. -/
theorem Apart.not_mem_ordering (h : Apart ms) {order : List AllMember} (horder : order.Perm ms)
    (hm : m ∈ ms) {a b c : Name} {u : List Name} (ha : m.accepts a) (hc : m.accepts c) (hb : b ∈ u)
    (hno : m.accepts b = false) : a :: u ++ [c] ∉ (order.map AllMember.words).prod := by
  intro hw
  obtain ⟨v, part, x, heq, hpart, hv, hx⟩ :=
    (h.perm horder).exists_part (horder.mem_iff.mpr hm) hw
  have hfirst : v = [] := by
    cases v with
    | nil => rfl
    | cons n v =>
      obtain ⟨rfl, -⟩ := List.cons.inj heq
      exact absurd ha (by simp [hv _ List.mem_cons_self])
  have hlast : x = [] := by
    rcases List.eq_nil_or_concat x with rfl | ⟨x, n, rfl⟩
    · rfl
    · rw [List.concat_eq_append, ← List.append_assoc] at heq
      obtain ⟨-, hn⟩ := List.append_inj' heq rfl
      have hnot := hx n (by simp)
      rw [← List.singleton_inj.mp hn, hc] at hnot
      exact Bool.noConfusion hnot
  rw [hfirst, hlast, List.append_nil, List.nil_append] at heq
  have hyes := (AllMember.mem_words.mp hpart).1 b (heq ▸ by simp [hb])
  rw [hno] at hyes
  exact Bool.noConfusion hyes

/-- If a member of several may be repeated, some word has names of it around one of another. -/
theorem Apart.exists_interleaved (h : Apart ms) (hone : ∀ m ∈ ms, m.occurs.Contains 1)
    (hm : m ∈ ms) (htwo : m.occurs.Contains 2) (hlength : 1 < ms.length) :
    ∃ w, w ≠ [] ∧ Covers ms w ∧ (∀ m ∈ ms, m.count w ≤ 2) ∧
      (∀ m ∈ ms, m.occurs.Contains (m.count w)) ∧
      ∀ order : List AllMember, order.Perm ms → w ∉ (order.map AllMember.words).prod := by
  obtain ⟨before, after, rfl⟩ := List.append_of_mem hm
  have hperm : (before ++ m :: after).Perm (m :: (before ++ after)) := List.perm_middle
  have hfront := h.perm hperm.symm
  obtain ⟨hothers, -⟩ := List.pairwise_cons.mp hfront
  obtain ⟨m', hm'⟩ : ∃ m', m' ∈ before ++ after := by
    refine List.exists_mem_of_ne_nil _ fun hnil => ?_
    have := hperm.length_eq
    rw [hnil, List.length_singleton] at this
    omega
  have hname (m : AllMember) : ∃ n, m.accepts n := m.symbol.leaf.exists_accepts
  choose f hf using hname
  have hcount {m' : AllMember} (hm' : m' ∈ m :: (before ++ after)) :
      m'.count ((m :: (before ++ after)).map f ++ [f m]) =
        1 + if m'.accepts (f m) then 1 else 0 := by
    rw [AllMember.count_concat, hfront.count_map hf hm']
  -- one name of each member, that of `m` at the front, and once more a name of `m`
  refine ⟨(m :: (before ++ after)).map f ++ [f m], by simp, ?_, fun m' hm' => ?_,
    fun m' hm' => ?_, fun order horder hw => ?_⟩
  · intro n hn
    rcases List.mem_append.mp hn with hn | hn
    · obtain ⟨m', hm', rfl⟩ := List.mem_map.mp hn
      exact ⟨m', hperm.mem_iff.mpr hm', hf m'⟩
    · exact ⟨m, hm, List.mem_singleton.mp hn ▸ hf m⟩
  · rw [hcount (hperm.mem_iff.mp hm')]
    split <;> omega
  · rw [hcount (hperm.mem_iff.mp hm')]
    rcases List.mem_cons.mp (hperm.mem_iff.mp hm') with rfl | hother
    · rwa [if_pos (hf m')]
    · rw [if_neg (by simp [hothers m' hother (f m) (hf m)])]
      exact hone m' hm'
  · exact h.not_mem_ordering horder hm (hf m) (hf m) (List.mem_map_of_mem hm')
      (apart_symm (hothers m' hm') _ (hf m')) hw

end AllGroup

/-! ## Orderings and counts -/

variable {ms : List Particle} {o : Occurs} {g : AllGroup}

/-- A range of at most one is used or, if it may be, left out. -/
theorem Occurs.mem_language_single {α : Type} {L : Language α} {w : List α}
    (ho : o.min ≤ 1 ∧ o.max = some 1) : w ∈ o.language L ↔ (o.min = 0 ∧ w = []) ∨ w ∈ L := by
  constructor
  · rintro ⟨k, hmin, hmax, hw⟩
    have hk := hmax 1 ho.2
    rcases Nat.le_one_iff_eq_zero_or_eq_one.mp hk with rfl | rfl
    · exact .inl ⟨Nat.le_zero.mp hmin, hw⟩
    · exact .inr (by rwa [pow_one] at hw)
  · rintro (⟨hmin, rfl⟩ | hw)
    · exact ⟨0, hmin.le, fun _ _ => Nat.zero_le _, rfl⟩
    · exact ⟨1, ho.1, fun max hmax => by simp_all, by rwa [pow_one]⟩

/-- The words of the choice of the orderings, from those of the members. -/
theorem mem_words_permuted (h : AllGroup.ofParticle none (.group .all ms o) = .ok g)
    {w : List Name} : w ∈ (Particle.permuted ms o).words (fun l n => l.accepts n) ↔
      (g.emptiable ∧ w = []) ∨
        ∃ order : List AllMember, order.Perm g.members ∧ w ∈ (order.map AllMember.words).prod := by
  obtain ⟨hmin, hmax, hms, -⟩ := ofParticle_spec h
  rw [Particle.words_permuted, Occurs.mem_language_single ⟨hmin, hmax⟩, emptiable_of_ofParticle h]
  refine or_congr_right ?_
  have hwords (order : List AllMember) : (order.map AllMember.particle).map
      (Particle.words fun l n => l.accepts n) = order.map AllMember.words := List.map_map
  constructor
  · rintro ⟨order, horder, hw⟩
    rw [eq_map_particle hms, ← mem_orderings, orderings_map] at horder
    obtain ⟨members, hmembers, rfl⟩ := List.mem_map.mp horder
    exact ⟨members, mem_orderings.mp hmembers, hwords members ▸ hw⟩
  · rintro ⟨order, horder, hw⟩
    refine ⟨order.map AllMember.particle, ?_, (hwords order).symm ▸ hw⟩
    rw [eq_map_particle hms]
    exact horder.map _

/-- The model admits the words of the orderings, if no counter can go round in them. -/
theorem admits_of_mem_permuted (h : AllGroup.ofParticle none (.group .all ms o) = .ok g)
    {w : List Name} (hfits : FitsCounters ms w)
    (hw : w ∈ (Particle.permuted ms o).words fun l n => l.accepts n) :
    (Model.all g).Admits none w := by
  obtain ⟨-, -, hms, hs⟩ := ofParticle_spec h
  have hcounted := AllGroup.counted_of_isMember hms hs
  rw [eq_map_particle hms, fitsCounters_map_particle] at hfits
  refine (AllGroup.admits_iff_of_lt hcounted hfits).mpr ?_
  refine ((mem_words_permuted h).mp hw).imp_right ?_
  rintro ⟨order, horder, hw⟩
  obtain ⟨hc, hr⟩ := (hcounted.apart.perm horder).covers_of_mem_prod hw
  refine ⟨fun n hn => ?_, fun m hm => hr m (horder.mem_iff.mpr hm)⟩
  obtain ⟨m, hm, hmn⟩ := hc n hn
  exact ⟨m, horder.mem_iff.mp hm, hmn⟩

/-- A member alone is its only ordering. -/
theorem mem_prod_of_covers {members : List AllMember} {w : List Name} (hlength : members.length ≤ 1)
    (hc : AllGroup.Covers members w) (hr : ∀ m ∈ members, m.occurs.Contains (m.count w)) :
    w ∈ (members.map AllMember.words).prod := by
  match members, hlength with
  | [], _ =>
    have hnil : w = [] := List.eq_nil_iff_forall_not_mem.mpr fun n hn => by
      obtain ⟨m, hm, -⟩ := hc n hn
      exact absurd hm List.not_mem_nil
    subst hnil
    rfl
  | [m], _ =>
    have hall : ∀ n ∈ w, m.accepts n := fun n hn => by
      obtain ⟨m', hm', hn⟩ := hc n hn
      exact List.mem_singleton.mp hm' ▸ hn
    have hrange := hr m List.mem_cons_self
    rw [AllMember.count_eq_length hall] at hrange
    rw [List.map_singleton, List.prod_singleton]
    exact AllMember.mem_words.mpr ⟨hall, hrange⟩

/-- If a member may not be repeated, no word that is admitted or of an ordering goes round its
counter. -/
theorem fitsCounters_of_single (h : AllGroup.ofParticle none (.group .all ms o) = .ok g)
    (hsingle : ∀ p ∈ ms, p.occurs.max = some 1) {w : List Name}
    (hw : (Model.all g).Admits none w ∨
      w ∈ (Particle.permuted ms o).words fun l n => l.accepts n) : FitsCounters ms w := by
  obtain ⟨-, -, hms, hs⟩ := ofParticle_spec h
  have hcounted := AllGroup.counted_of_isMember hms hs
  rw [eq_map_particle hms, List.forall_mem_map] at hsingle
  rw [eq_map_particle hms, fitsCounters_map_particle]
  suffices hone : ∀ m ∈ g.members, m.count w ≤ 1 from fun m hm => (hone m hm).trans_lt (by decide)
  intro m hm
  have hmax : 1 ∈ m.occurs.max := hsingle m hm
  rcases hw with hw | hw
  · exact ((AllGroup.admits_iff hcounted).mp hw).2.1 m hm 1 hmax
  · rcases (mem_words_permuted h).mp hw with ⟨-, rfl⟩ | ⟨order, horder, hw⟩
    · exact Nat.zero_le _
    · obtain ⟨-, hr⟩ := (hcounted.apart.perm horder).covers_of_mem_prod hw
      exact (hr m (horder.mem_iff.mpr hm)).2 1 hmax

/-- In words that fit the counters, those of the orderings are all if and only if there is at most
one member, or none that may be repeated. -/
theorem admits_permuted_iff (h : AllGroup.ofParticle none (.group .all ms o) = .ok g) :
    (∀ w, FitsCounters ms w → ((Model.all g).Admits none w ↔
        w ∈ (Particle.permuted ms o).words fun l n => l.accepts n)) ↔
      ms.length ≤ 1 ∨ ∀ p ∈ ms, p.occurs.max = some 1 := by
  obtain ⟨-, -, hms, hs⟩ := ofParticle_spec h
  have hcounted := AllGroup.counted_of_isMember hms hs
  have hapart := hcounted.apart
  have hone : ∀ m ∈ g.members, m.occurs.Contains 1 := fun m hm => by
    obtain ⟨i, hi⟩ := List.mem_iff_getElem?.mp hm
    obtain ⟨p, -, -, hmin, hmax⟩ := getElem?_of_forall₂ hms.flip hi
    exact ⟨hmin, fun max h => (hmax max h).ge⟩
  have hlength : g.members.length = ms.length := hms.length_eq.symm
  have hsingle : (∀ p ∈ ms, p.occurs.max = some 1) ↔ ∀ m ∈ g.members, m.occurs.max = some 1 := by
    rw [eq_map_particle hms, List.forall_mem_map]
    rfl
  have hcounts {w : List Name} :
      FitsCounters ms w ↔ ∀ m ∈ g.members, m.count w < Counter.bound := by
    rw [eq_map_particle hms, fitsCounters_map_particle]
  rw [hsingle, ← hlength]
  constructor
  · intro hsame
    by_contra hno
    rw [not_or, not_le, not_forall] at hno
    obtain ⟨hmany, m, hno⟩ := hno
    obtain ⟨hm, hmax⟩ := Classical.not_imp.mp hno
    -- the members of a compiled group occur once or without bound
    have hunbounded : m.occurs.max = none := by
      obtain ⟨i, hi⟩ := List.mem_iff_getElem?.mp hm
      obtain ⟨p, -, -, -, hbasic⟩ := getElem?_of_forall₂ hms.flip hi
      cases hcases : m.occurs.max with
      | none => rfl
      | some max => exact absurd (hcases.trans (congrArg some (hbasic max hcases))) hmax
    have htwo : m.occurs.Contains 2 :=
      ⟨(hone m hm).1.trans (Nat.le_succ 1), by simp [hunbounded]⟩
    obtain ⟨w, hne, hc, hle, hr, hw⟩ := hapart.exists_interleaved hone hm htwo hmany
    have hlt : ∀ m ∈ g.members, m.count w < Counter.bound :=
      fun m hm => (hle m hm).trans_lt (by decide)
    have hadmits := (AllGroup.admits_iff_of_lt hcounted hlt).mpr (.inr ⟨hc, hr⟩)
    rcases (mem_words_permuted h).mp ((hsame w (hcounts.mpr hlt)).mp hadmits) with
      ⟨-, hnil⟩ | ⟨order, horder, hin⟩
    · exact hne hnil
    · exact hw order horder hin
  · intro hor w hfits
    refine ⟨fun hw => ?_, admits_of_mem_permuted h hfits⟩
    have hadmits := (AllGroup.admits_iff_of_lt hcounted (hcounts.mp hfits)).mp hw
    refine (mem_words_permuted h).mpr (hadmits.imp_right ?_)
    rintro ⟨hc, hr⟩
    rcases hor with hfew | hsingle
    · exact ⟨g.members, .refl _, mem_prod_of_covers hfew hc hr⟩
    · exact hapart.exists_ordering hsingle hc hr

/-- **An all-group admits the words of its orderings, and only these if and only if it has at most
one member or none that may be repeated.** This is about the words that fit the counters of the
members; if no member may be repeated, all words are admitted alike. The choice of the orderings is
what is written for the group. -/
theorem admits_permuted_and_iff (h : AllGroup.ofParticle none (.group .all ms o) = .ok g) :
    (∀ limits s, (Particle.group .all ms o).text limits = .ok s →
      (Particle.permuted ms o).text limits = .ok s) ∧
    (∀ w ∈ (Particle.permuted ms o).words fun l n => l.accepts n, FitsCounters ms w →
      (Model.all g).Admits none w) ∧
    ((∀ w, FitsCounters ms w → ((Model.all g).Admits none w ↔
        w ∈ (Particle.permuted ms o).words fun l n => l.accepts n)) ↔
      ms.length ≤ 1 ∨ ∀ p ∈ ms, p.occurs.max = some 1) ∧
    ((∀ p ∈ ms, p.occurs.max = some 1) → ∀ w, (Model.all g).Admits none w ↔
      w ∈ (Particle.permuted ms o).words fun l n => l.accepts n) := by
  have hsame := admits_permuted_iff h
  refine ⟨fun _ _ => Particle.text_permuted, fun _ hw hfits => admits_of_mem_permuted h hfits hw,
    hsame, fun hsingle w => ⟨fun hw => ?_, fun hw => ?_⟩⟩
  · exact (hsame.mpr (.inr hsingle) w (fitsCounters_of_single h hsingle (.inl hw))).mp hw
  · exact admits_of_mem_permuted h (fitsCounters_of_single h hsingle (.inr hw)) hw

/-- Elements of two names in any order, the first of them perhaps left out. -/
theorem admits_permuted_optionalMember :
    let a : Particle := .leaf (.element (.unqualified "a")) .optional
    let b : Particle := .leaf (.element (.unqualified "b")) .once
    ∃ g, AllGroup.ofParticle none (.group .all [a, b] .once) = .ok g ∧
      ∀ w, (Model.all g).Admits none w ↔
        w ∈ (Particle.permuted [a, b] .once).words fun l n => l.accepts n :=
  ⟨⟨[⟨⟨.element (.unqualified "a"), none⟩, .optional⟩,
      ⟨⟨.element (.unqualified "b"), none⟩, .once⟩], false⟩, rfl,
    (admits_permuted_and_iff rfl).2.2.2 (by simp [Particle.occurs, Occurs.optional,
      Occurs.once])⟩

/-- A member that may be repeated can stand around another one. -/
theorem admits_memberAroundOther :
    let a : Name := .unqualified "a"
    let b : Name := .unqualified "b"
    let ms : List Particle := [.leaf (.element a) .oneOrMore, .leaf (.element b) .once]
    ∃ g, AllGroup.ofParticle none (.group .all ms .once) = .ok g ∧
      (Model.all g).Admits none [a, b, a] ∧
      [a, b, a] ∉ (Particle.permuted ms .once).words fun l n => l.accepts n := by
  intro a b ms
  have hok : AllGroup.ofParticle none (.group .all ms .once) =
      .ok ⟨[⟨⟨.element a, none⟩, .oneOrMore⟩, ⟨⟨.element b, none⟩, .once⟩], false⟩ := rfl
  refine ⟨_, hok, ⟨_, rfl, rfl⟩, ?_⟩
  have hapart := AllGroup.apart_of_separate (ofParticle_spec hok).2.2.2
  intro hw
  rcases (mem_words_permuted hok).mp hw with ⟨-, hnil⟩ | ⟨order, horder, hin⟩
  · exact List.cons_ne_nil _ _ hnil
  · exact hapart.not_mem_ordering horder List.mem_cons_self (a := a) (b := b) (c := a) (u := [b])
      rfl rfl List.mem_cons_self rfl hin

end MarkupGrammar
