import MarkupGrammar.Proofs.Compilation

/-! # All-groups

An all-group compiles to its members, each a leaf with a basic occurrence range. All members are
open at the start, so the model attributes children uniquely if and only if no two members fit one
name (`attributesUniquely_all_iff`), which is also when the particle is not ambiguous
(`isAmbiguous_all_iff`). -/

namespace MarkupGrammar

variable {c : Option Comparator} {ms : List Particle} {o : Occurs} {g : AllGroup}
  {members : List AllMember} {fits : Leaf → Name → Prop}

/-! ## Members -/

/-- The member is the leaf, with a range that allows one. -/
def IsMember (p : Particle) (m : AllMember) : Prop :=
  p = .leaf m.symbol.leaf m.occurs ∧ m.occurs.min ≤ 1 ∧ ∀ max ∈ m.occurs.max, max = 1

/-- No two members overlap. -/
def AllGroup.Separate (c : Option Comparator) (members : List AllMember) : Prop :=
  members.Pairwise fun m m' => m.symbol.leaf.overlaps c m'.symbol.leaf = false

theorem isMember_of_addMember {acc r : List AllMember} {p : Particle}
    (h : AllGroup.addMember c acc p = .ok r) : ∃ m, r = acc ++ [m] ∧ IsMember p m ∧
      ∀ m' ∈ acc, m'.symbol.leaf.overlaps c m.symbol.leaf = false := by
  cases p with
  | group _ _ _ => simp [AllGroup.addMember] at h
  | leaf l o =>
    unfold AllGroup.addMember at h
    obtain ⟨-, -, h⟩ := of_bind_eq_ok h
    dsimp only at h
    by_cases hb : o.isBasic
    · rw [if_neg (by simp [hb])] at h
      split at h
      · exact absurd h (by simp [throw, throwThe, MonadExceptOf.throw])
      · rename_i hfind
        obtain rfl := Except.ok.inj h
        have hb : o.min ≤ 1 ∧ (o.max = some 1 ∨ o.max = none) := by
          simpa [Occurs.isBasic] using hb
        refine ⟨⟨⟨l, none⟩, o⟩, rfl, ⟨rfl, hb.1, fun max hmax => ?_⟩, ?_⟩
        · rcases hb.2 with h | h <;> simp_all
        · simpa using List.find?_eq_none.mp hfind
    · rw [if_pos (by simp [hb])] at h
      exact absurd h (by simp [throw, throwThe, MonadExceptOf.throw, bind, Except.bind])

theorem members_of_foldlM {acc r : List AllMember} (hacc : AllGroup.Separate c acc)
    (h : ms.foldlM (AllGroup.addMember c) acc = .ok r) :
    AllGroup.Separate c r ∧ ∃ new, r = acc ++ new ∧ List.Forall₂ IsMember ms new := by
  induction ms generalizing acc with
  | nil =>
    obtain rfl : acc = r := Except.ok.inj h
    exact ⟨hacc, [], (List.append_nil _).symm, .nil⟩
  | cons p ms ih =>
    rw [List.foldlM_cons] at h
    obtain ⟨acc', hp, h⟩ := of_bind_eq_ok h
    obtain ⟨m, rfl, hm, ho⟩ := isMember_of_addMember hp
    have hacc' : AllGroup.Separate c (acc ++ [m]) :=
      List.pairwise_append.mpr ⟨hacc, List.pairwise_singleton _ _, by simpa using ho⟩
    obtain ⟨hr, new, rfl, hnew⟩ := ih hacc' h
    exact ⟨hr, m :: new, by simp, .cons hm hnew⟩

/-- The members of an all-group and its range. -/
theorem ofParticle_spec (h : AllGroup.ofParticle c (.group .all ms o) = .ok g) :
    o.min ≤ 1 ∧ o.max = some 1 ∧ List.Forall₂ IsMember ms g.members ∧
      AllGroup.Separate c g.members := by
  unfold AllGroup.ofParticle at h
  simp only at h
  split at h
  · exact absurd h (by simp [throw, throwThe, MonadExceptOf.throw, bind, Except.bind])
  · rename_i ho
    obtain ⟨members, hm, h⟩ := of_bind_eq_ok h
    obtain rfl := Except.ok.inj h
    obtain ⟨hd, new, rfl, hnew⟩ := members_of_foldlM .nil hm
    have ho : o.min ≤ 1 ∧ o.max = some 1 := by simpa using ho
    exact ⟨ho.1, ho.2, hnew, hd⟩

/-! ## Ambiguous members -/

/-- Two members fit one name. -/
def AllGroup.HasAmbiguousMembers (fits : Leaf → Name → Prop) (members : List AllMember) : Prop :=
  ∃ (n : Name) (i j : Nat), i ≠ j ∧ ∃ m ∈ members[i]?, ∃ m' ∈ members[j]?,
    fits m.symbol.leaf n ∧ fits m'.symbol.leaf n

/-- If leaves that fit a name in common overlap, members that do not overlap are not ambiguous. -/
theorem not_hasAmbiguousMembers (hd : AllGroup.Separate c members)
    (hc : ∀ (n : Name) (l l' : Leaf), fits l n → fits l' n → l.overlaps c l' = true) :
    ¬ AllGroup.HasAmbiguousMembers fits members := by
  rintro ⟨n, i, j, hne, m, hm, m', hm', hn, hn'⟩
  obtain ⟨hi, rfl⟩ := List.getElem?_eq_some_iff.mp hm
  obtain ⟨hj, rfl⟩ := List.getElem?_eq_some_iff.mp hm'
  rcases lt_or_gt_of_ne hne with hlt | hlt
  · have hno := List.pairwise_iff_getElem.mp hd i j hi hj hlt
    rw [hc n _ _ hn hn'] at hno
    exact Bool.noConfusion hno
  · have hno := List.pairwise_iff_getElem.mp hd j i hj hi hlt
    rw [hc n _ _ hn' hn] at hno
    exact Bool.noConfusion hno

section Languages

variable {α : Type} {L : Language α} {w : List α} {a : α}

theorem exists_of_mem_pow {k : Nat} (hw : w ∈ L ^ k) (ha : a ∈ w) : ∃ v ∈ L, a ∈ v := by
  obtain ⟨S, rfl, -, hS⟩ := Language.mem_pow.mp hw
  obtain ⟨v, hv, ha⟩ := List.mem_flatten.mp ha
  exact ⟨v, hS v hv, ha⟩

theorem exists_of_mem_prod {Ls : List (Language α)} (hw : w ∈ Ls.prod) (ha : a ∈ w) :
    ∃ L ∈ Ls, ∃ v ∈ L, a ∈ v := by
  induction Ls generalizing w with
  | nil =>
    obtain rfl : w = [] := hw
    exact absurd ha List.not_mem_nil
  | cons L Ls ih =>
    rw [List.prod_cons] at hw
    obtain ⟨u, hu, v, hv, rfl⟩ := Language.mem_mul.mp hw
    rcases List.mem_append.mp ha with ha | ha
    · exact ⟨L, List.mem_cons_self, u, hu, ha⟩
    · obtain ⟨K, hK, h⟩ := ih hv ha
      exact ⟨K, List.mem_cons_of_mem _ hK, h⟩

theorem exists_mem_prod {Ls : List (Language α)} (h : ∀ L ∈ Ls, ∃ w, w ∈ L) : ∃ w, w ∈ Ls.prod := by
  induction Ls with
  | nil => exact ⟨[], rfl⟩
  | cons L Ls ih =>
    obtain ⟨u, hu⟩ := h L List.mem_cons_self
    obtain ⟨v, hv⟩ := ih fun K hK => h K (List.mem_cons_of_mem _ hK)
    exact ⟨u ++ v, by rw [List.prod_cons]; exact ⟨u, hu, v, hv, rfl⟩⟩

/-- A range of at most one that is not prohibited allows one. -/
theorem mem_language_of_isMember {p : Particle} {m : AllMember} (h : IsMember p m) (hw : w ∈ L) :
    w ∈ m.occurs.language L :=
  ⟨1, h.2.1, fun max hmax => (h.2.2 max hmax).ge, by rwa [pow_one]⟩

end Languages

theorem getElem?_of_forall₂ {α β : Type} {R : α → β → Prop} {xs : List α} {ys : List β}
    (h : List.Forall₂ R xs ys) {i : Nat} {x : α} (hx : xs[i]? = some x) :
    ∃ y, ys[i]? = some y ∧ R x y := by
  induction h generalizing i with
  | nil => simp at hx
  | cons hr _ ih =>
    cases i with
    | zero =>
      obtain rfl := Option.some.inj hx
      exact ⟨_, rfl, hr⟩
    | succ i => exact ih hx

namespace Particle

theorem getElem?_languages {α : Type} (m : Place → Leaf → α → Prop) (k i : Nat)
    (ps : List Particle) :
    (languages m k ps)[i]? = ps[i]?.map (language fun place => m ((k + i) :: place)) := by
  induction ps generalizing k i with
  | nil => simp [languages]
  | cons p ps ih =>
    cases i with
    | zero => simp [languages]
    | succ i => simp [languages, ih, Nat.add_comm, Nat.add_left_comm]

/-- The language of a member with its place. -/
theorem languages_of_isMember (h : List.Forall₂ IsMember ms members) {i : Nat}
    {L : Language (Place × Name)}
    (hL : (languages (fun place l a => a.1 = place ∧ fits l a.2) 0 ms)[i]? = some L) :
    ∃ m, members[i]? = some m ∧ (∃ p, IsMember p m) ∧
      L = m.occurs.language (letters fun a => a.1 = [i] ∧ fits m.symbol.leaf a.2) := by
  rw [getElem?_languages, Nat.zero_add] at hL
  obtain ⟨p, hp, rfl⟩ := Option.map_eq_some_iff.mp hL
  obtain ⟨m, hm, hpm⟩ := getElem?_of_forall₂ h hp
  refine ⟨m, hm, ⟨p, hpm⟩, ?_⟩
  rw [hpm.1, language]

variable {n : Name} {place : Place} {u : List Name}

/-- In an all-group a name is taken by a member. -/
theorem exists_member_of_mayTake (h : List.Forall₂ IsMember ms members)
    (ht : (Particle.group .all ms o).MayTake fits u place n) :
    ∃ i, place = [i] ∧ ∃ m ∈ members[i]?, fits m.symbol.leaf n := by
  obtain ⟨v, w, -, k, -, -, hw⟩ := ht
  obtain ⟨v', ⟨order, hperm, hprod⟩, ha⟩ := exists_of_mem_pow hw (a := (place, n)) (by simp)
  obtain ⟨L, hL, x, hx, ha⟩ := exists_of_mem_prod hprod ha
  obtain ⟨i, hi⟩ := List.mem_iff_getElem?.mp (hperm.mem_iff.mp hL)
  obtain ⟨m, hm, -, rfl⟩ := languages_of_isMember h hi
  obtain ⟨k, -, -, hx⟩ := hx
  obtain ⟨y, ⟨b, hb, rfl⟩, ha⟩ := exists_of_mem_pow hx ha
  obtain rfl := List.mem_singleton.mp ha
  exact ⟨i, hb.1, m, hm, hb.2⟩

/-- The words of one name that a member takes. -/
theorem singleton_mem_of_isMember {p : Particle} {m : AllMember} (h : IsMember p m) {i : Nat}
    (hn : fits m.symbol.leaf n) : [([i], n)] ∈
      p.language fun pl l (a : Place × Name) => a.1 = i :: pl ∧ fits l a.2 := by
  rw [h.1, language]
  exact mem_language_of_isMember h ⟨_, ⟨rfl, hn⟩, rfl⟩

/-- Each member can take the first name. -/
theorem mayTake_of_member (h : List.Forall₂ IsMember ms members) (ho : o.min ≤ 1 ∧ o.max = some 1)
    (hf : ∀ l : Leaf, ∃ n, fits l n) {i : Nat} {m : AllMember} (hm : m ∈ members[i]?)
    (hn : fits m.symbol.leaf n) : (Particle.group .all ms o).MayTake fits [] [i] n := by
  obtain ⟨p, hp, hpm⟩ := getElem?_of_forall₂ h.flip hm
  have word {L : Language (Place × Name)}
      (hL : L ∈ languages (fun place l a => a.1 = place ∧ fits l a.2) 0 ms) : ∃ w, w ∈ L := by
    obtain ⟨j, hj⟩ := List.mem_iff_getElem?.mp hL
    rw [getElem?_languages, Nat.zero_add] at hj
    obtain ⟨q, hq, rfl⟩ := Option.map_eq_some_iff.mp hj
    obtain ⟨m', -, hm'⟩ := getElem?_of_forall₂ h hq
    obtain ⟨n', hn'⟩ := hf m'.symbol.leaf
    exact ⟨_, singleton_mem_of_isMember hm' hn'⟩
  have hL := getElem?_languages (fun place l (a : Place × Name) => a.1 = place ∧ fits l a.2) 0 i ms
  rw [hp, Nat.zero_add, Option.map_some] at hL
  obtain ⟨hi, hL⟩ := List.getElem?_eq_some_iff.mp hL
  obtain ⟨w, hw⟩ := exists_mem_prod fun L hL => word (List.mem_of_mem_eraseIdx (i := i) hL)
  refine ⟨[], w, rfl, 1, ho.1, by simp [ho.2], ?_⟩
  rw [pow_one]
  refine ⟨_, List.getElem_cons_eraseIdx_perm hi, ?_⟩
  rw [List.prod_cons, hL]
  exact ⟨_, singleton_mem_of_isMember hpm hn, w, hw, rfl⟩

/-- An all-group is ambiguous if two of its members fit one name. -/
theorem isAmbiguous_all_iff (h : List.Forall₂ IsMember ms members)
    (ho : o.min ≤ 1 ∧ o.max = some 1) (hf : ∀ l : Leaf, ∃ n, fits l n) :
    (Particle.group .all ms o).IsAmbiguous fits ↔ AllGroup.HasAmbiguousMembers fits members := by
  constructor
  · rintro ⟨u, n, place, place', hne, ht, ht'⟩
    obtain ⟨i, rfl, m, hm, hn⟩ := exists_member_of_mayTake h ht
    obtain ⟨j, rfl, m', hm', hn'⟩ := exists_member_of_mayTake h ht'
    exact ⟨n, i, j, fun hij => hne (by rw [hij]), m, hm, m', hm', hn, hn'⟩
  · rintro ⟨n, i, j, hne, m, hm, m', hm', hn, hn'⟩
    refine ⟨[], n, [i], [j], fun hij => hne (List.singleton_inj.mp hij), ?_, ?_⟩
    · exact mayTake_of_member h ho hf hm hn
    · exact mayTake_of_member h ho hf hm' hn'

end Particle

/-! ## Attribution -/

theorem mem_offers_all {counts : List Nat} {x : Symbol × Nat} :
    x ∈ (Model.all g).offers (.all counts) ↔ ∃ m, g.members[x.2]? = some m ∧ m.symbol = x.1 ∧
      m.occurs.isOver (counts.getD x.2 0) = false := by
  obtain ⟨symbol, i⟩ := x
  simp only [Model.offers, AllGroup.openMembers, List.mem_map, List.mem_filter, Prod.exists,
    List.mem_zipIdx_iff_getElem?, Bool.not_eq_true', Prod.mk.injEq]
  constructor
  · rintro ⟨m, j, ⟨hm, ho⟩, rfl, rfl⟩
    exact ⟨m, hm, rfl, ho⟩
  · rintro ⟨m, hm, rfl, ho⟩
    exact ⟨m, i, ⟨hm, ho⟩, rfl, rfl⟩

/-- Every member is open at the start. -/
theorem mem_offers_start (h : List.Forall₂ IsMember ms g.members) {i : Nat} {m : AllMember}
    (hm : g.members[i]? = some m) : (m.symbol, i) ∈ (Model.all g).offers (Model.all g).start := by
  obtain ⟨p, -, -, -, hmax⟩ := getElem?_of_forall₂ h.flip hm
  refine mem_offers_all.mpr ⟨m, hm, rfl, ?_⟩
  have hzero : (g.members.map fun _ => 0).getD i 0 = 0 := by
    rw [List.getD_eq_getElem?_getD, List.getElem?_map, hm]
    rfl
  rw [hzero]
  unfold Occurs.isOver
  split
  · rename_i max h
    simp [hmax max h]
  · rfl

/-- **An all-group attributes children uniquely if no two members fit one name.** -/
theorem attributesUniquely_all_iff (h : List.Forall₂ IsMember ms g.members) :
    (Model.all g).AttributesUniquely c ↔
      ¬ AllGroup.HasAmbiguousMembers (Leaf.fits c) g.members := by
  constructor
  · rintro hu ⟨n, i, j, hne, m, hm, m', hm', hn, hn'⟩
    have heq := hu [] _ rfl n _ (mem_offers_start h hm) _ (mem_offers_start h hm')
      (Symbol.isSome_rank?.mpr hn) (Symbol.isSome_rank?.mpr hn')
    exact hne (congrArg Prod.snd heq)
  · rintro hno u st - n ⟨x, i⟩ hx ⟨y, j⟩ hy hn hn'
    cases st with
    | all counts =>
      obtain ⟨m, hm, rfl, -⟩ := mem_offers_all.mp hx
      obtain ⟨m', hm', rfl, -⟩ := mem_offers_all.mp hy
      by_cases hij : i = j
      · subst hij
        obtain rfl := Option.some.inj (hm.symm.trans hm')
        rfl
      · exact absurd ⟨n, i, j, hij, m, hm, m', hm', Symbol.isSome_rank?.mp hn,
          Symbol.isSome_rank?.mp hn'⟩ hno
    | empty _ | any | mixed | children _ | simple => exact absurd hx List.not_mem_nil

/-- A particle that is an all-group compiles to the model of the group. -/
theorem exists_ofParticle_of_compiled {limits : Limits} {s : Lowering} {content : Content}
    {p : Particle} (hp : p.isAll = true) (h : p.compiled c limits s = .ok content) :
    ∃ g, content.model = .all g ∧ AllGroup.ofParticle c p = .ok g := by
  have hs : Lowering.Ensures (ContentDraft.compile c limits (.children p)) s
      (fun content _ => ∃ g, content.model = .all g ∧ AllGroup.ofParticle c p = .ok g)
      fun _ => True := by
    unfold ContentDraft.compile
    refine Lowering.ensures_bind ?_
    unfold ContentDraft.compileParticle
    rw [if_pos hp]
    split
    · rename_i g hg
      exact Lowering.ensures_pure (Lowering.ensures_pure ⟨g, rfl, hg⟩)
    · exact Lowering.ensures_throw trivial
  exact (ok_of_compiled hs h).elim fun _ h => h

theorem Particle.exists_eq_all {p : Particle} (hp : p.isAll = true) :
    ∃ ms o, p = .group .all ms o := by
  cases p with
  | leaf l o => exact absurd hp Bool.noConfusion
  | group k ms o =>
    obtain rfl : k = .all := by simpa [Particle.isAll, Particle.compositor?] using hp
    exact ⟨ms, o, rfl⟩

/-- An all-group compiles to its members, each a leaf, of which no two overlap. -/
theorem compiled_all {limits : Limits} {s : Lowering} {content : Content} {p : Particle}
    (hp : p.isAll = true) (h : p.compiled c limits s = .ok content) :
    ∃ ms o g, p = .group .all ms o ∧ content.model = .all g ∧ o.min ≤ 1 ∧ o.max = some 1 ∧
      List.Forall₂ IsMember ms g.members ∧ AllGroup.Separate c g.members := by
  obtain ⟨g, hm, hg⟩ := exists_ofParticle_of_compiled hp h
  obtain ⟨ms, o, rfl⟩ := Particle.exists_eq_all hp
  exact ⟨ms, o, g, rfl, hm, ofParticle_spec hg⟩

end MarkupGrammar
