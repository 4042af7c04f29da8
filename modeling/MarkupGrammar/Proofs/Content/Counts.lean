import MarkupGrammar.Proofs.Content.AllGroup

/-! # Counting the names of an all-group

A compiled all-group counts how often each of its members has occurred. As no two members stand for
elements of one name, a name is counted for the same member wherever it stands in a word and
whichever members may still occur; so the state after a word only depends on how many names of it
each member stands for (`AllGroup.run?_all`). The group admits the words whose names are matched by
members, each as often as its range allows (`AllGroup.admits_iff_of_lt`), in any order
(`AllGroup.admits_ofParticle_iff`).

All this holds as long as no counter has gone round. A member that may be repeated is missing again
when its counter has come back to zero, and a group whose counters are all zero is taken for empty
(`AllGroup.admits_iff`); a member that occurs at most once never gets that far. -/

namespace MarkupGrammar

/-! ## Members -/

/-- The range contains the number. -/
def Occurs.Contains (o : Occurs) (k : Nat) : Prop := o.min ≤ k ∧ ∀ max ∈ o.max, k ≤ max

namespace AllMember

/-- Whether the member stands for elements of a name. -/
def accepts (m : AllMember) (n : Name) : Bool := m.symbol.leaf.accepts n

/-- How many names of a word the member stands for. -/
def count (m : AllMember) (w : List Name) : Nat := w.countP m.accepts

/-- The counter of the member after a word. -/
def counter (m : AllMember) (w : List Name) : Nat := m.count w % Counter.bound

/-- The particle that the member was compiled from. -/
def particle (m : AllMember) : Particle := .leaf m.symbol.leaf m.occurs

variable {m : AllMember} {w : List Name} {n : Name}

theorem count_concat (m : AllMember) (u : List Name) (n : Name) :
    m.count (u ++ [n]) = m.count u + if m.accepts n then 1 else 0 := by
  rw [count, List.countP_append, List.countP_singleton]
  rfl

theorem counter_concat (m : AllMember) (u : List Name) (n : Name) :
    m.counter (u ++ [n]) = if m.accepts n then Counter.next (m.counter u) else m.counter u := by
  rw [counter, count_concat, counter, Counter.next_mod]
  split <;> rfl

theorem counter_of_lt (h : m.count w < Counter.bound) : m.counter w = m.count w :=
  Nat.mod_eq_of_lt h

end AllMember

namespace AllGroup

variable {ms : List AllMember} {w : List Name} {n : Name} {m m' : AllMember} {i j : Nat}

/-- No two members stand for elements of one name. -/
def Apart (ms : List AllMember) : Prop :=
  ms.Pairwise fun m m' => ∀ n, m.accepts n → m'.accepts n = false

/-- Every name of the word is one that a member stands for. -/
def Covers (ms : List AllMember) (w : List Name) : Prop := ∀ n ∈ w, ∃ m ∈ ms, m.accepts n

theorem apart_of_separate (h : Separate none ms) : Apart ms := by
  refine h.imp fun {m m'} hno n hn => ?_
  by_contra hn'
  have hyes := (Leaf.overlaps_none_iff _ _).mpr ⟨n, hn, Bool.not_eq_false _ |>.mp hn'⟩
  rw [hno] at hyes
  exact Bool.noConfusion hyes

theorem apart_symm (h : ∀ n, m.accepts n → m'.accepts n = false) (n : Name) (hn : m'.accepts n) :
    m.accepts n = false := by
  by_contra hm
  rw [h n (Bool.not_eq_false _ |>.mp hm)] at hn
  exact Bool.noConfusion hn

theorem Apart.perm {order : List AllMember} (h : Apart ms) (hp : order.Perm ms) : Apart order :=
  (hp.pairwise_iff apart_symm).mpr h

/-- A name is that of one member at most. -/
theorem Apart.eq_of_accepts (h : Apart ms) (hi : ms[i]? = some m) (hj : ms[j]? = some m')
    (hn : m.accepts n) (hn' : m'.accepts n) : i = j := by
  obtain ⟨hilt, rfl⟩ := List.getElem?_eq_some_iff.mp hi
  obtain ⟨hjlt, rfl⟩ := List.getElem?_eq_some_iff.mp hj
  have hpair := List.pairwise_iff_getElem.mp h
  by_contra hne
  rcases lt_or_gt_of_ne hne with hlt | hlt
  · rw [hpair i j hilt hjlt hlt n hn] at hn'
    exact Bool.noConfusion hn'
  · rw [hpair j i hjlt hilt hlt n hn'] at hn
    exact Bool.noConfusion hn

/-! ## Runs -/

variable {g : AllGroup} {counts : List Nat} {st : ModelState}

/-- Children are counted well: no two members stand for elements of one name, and what bounds a
member is less than where its counter goes round. -/
structure Counted (g : AllGroup) : Prop where
  apart : Apart g.members
  max_lt : ∀ m ∈ g.members, ∀ max ∈ m.occurs.max, max < Counter.bound

/-- A child is matched by the member of its name, unless it occurs as often as it may. -/
theorem offer?_all (h : Apart g.members) : (Model.all g).offer? none (.all counts) n = some st ↔
    ∃ i m, g.members[i]? = some m ∧ m.accepts n ∧ m.occurs.isOver (counts.getD i 0) = false ∧
      st = .all (counts.modify i Counter.next) := by
  have hopen {x : AllMember × Nat} : x ∈ g.openMembers counts ↔
      g.members[x.2]? = some x.1 ∧ x.1.occurs.isOver (counts.getD x.2 0) = false := by
    obtain ⟨m, i⟩ := x
    simp [AllGroup.openMembers, List.mem_zipIdx_iff_getElem?]
  have hrank {m : AllMember} : (m.symbol.rank? none n).isSome ↔ m.accepts n :=
    Symbol.isSome_rank?.trans (Leaf.fits_none _ _)
  have hanswer (s : Symbol) : ∃ d p, s.answer = .matched d p := by
    unfold Symbol.answer
    split <;> exact ⟨_, _, rfl⟩
  cases hf : firstLeast? (fun x : AllMember × Nat => x.1.symbol.rank? none n)
      (g.openMembers counts) with
  | none =>
    have hoffer : (Model.all g).offer? none (.all counts) n = none := by
      simp [Model.offer?, Model.accept, AllGroup.accept, hf]
    rw [hoffer]
    refine ⟨fun hst => absurd hst (by simp), ?_⟩
    rintro ⟨i, m, hm, hn, ho, -⟩
    have hno := firstLeast?_eq_none hf (m, i) (hopen.mpr ⟨hm, ho⟩)
    rw [← hrank, hno] at hn
    exact absurd hn (by simp)
  | some x =>
    obtain ⟨d, p, ha⟩ := hanswer x.1.symbol
    have hoffer : (Model.all g).offer? none (.all counts) n =
        some (.all (counts.modify x.2 Counter.next)) := by
      simp [Model.offer?, Model.accept, AllGroup.accept, hf, ha]
    obtain ⟨hx, hn⟩ := firstLeast?_eq_some hf
    obtain ⟨hm, ho⟩ := hopen.mp hx
    rw [hoffer]
    constructor
    · intro hst
      exact ⟨x.2, x.1, hm, hrank.mp hn, ho, (Option.some.inj hst).symm⟩
    · rintro ⟨i, m, hm', hn', -, rfl⟩
      rw [h.eq_of_accepts hm hm' (hrank.mp hn) hn']

theorem modify_counters (h : Apart ms) (hm : ms[i]? = some m) (hn : m.accepts n) (u : List Name) :
    (ms.map (·.counter u)).modify i Counter.next = ms.map (·.counter (u ++ [n])) := by
  refine List.ext_getElem? fun j => ?_
  rw [List.getElem?_modify, List.getElem?_map, List.getElem?_map]
  cases hj : ms[j]? with
  | none => simp
  | some m' =>
    simp only [Option.map_some, AllMember.counter_concat]
    by_cases hij : i = j
    · subst hij
      obtain rfl := Option.some.inj (hm.symm.trans hj)
      simp [hn]
    · have hno : m'.accepts n = false := by
        by_contra hyes
        exact hij (h.eq_of_accepts hm hj hn (Bool.not_eq_false _ |>.mp hyes))
      simp [hij, hno]

theorem getD_counters (hm : ms[i]? = some m) (u : List Name) :
    (ms.map (·.counter u)).getD i 0 = m.counter u := by
  rw [List.getD_eq_getElem?_getD, List.getElem?_map, hm]
  rfl

theorem isOver_eq_false {o : Occurs} {k : Nat} :
    o.isOver k = false ↔ ∀ max ∈ o.max, k < max := by
  unfold Occurs.isOver
  split <;> simp [*]

/-- **Matched children are counted**: each belongs to a member, and no member occurs too often. -/
theorem run?_all (h : g.Counted) : (Model.all g).run? none (Model.all g).start w = some st ↔
    st = .all (g.members.map (·.counter w)) ∧ Covers g.members w ∧
      ∀ m ∈ g.members, ∀ max ∈ m.occurs.max, m.count w ≤ max := by
  induction w using List.reverseRecOn generalizing st with
  | nil =>
    have hcovers : Covers g.members [] := fun n hn => absurd hn List.not_mem_nil
    have hzero : ∀ m ∈ g.members, ∀ max ∈ m.occurs.max, m.count [] ≤ max :=
      fun _ _ _ _ => Nat.zero_le _
    exact ⟨fun hst => ⟨(Option.some.inj hst).symm, hcovers, hzero⟩, fun ⟨hst, _⟩ => hst ▸ rfl⟩
  | append_singleton u n ih =>
    -- the counter of a member that is bounded has not gone round
    have hcounter {m : AllMember} (hm : m ∈ g.members) {max : Nat} (hmax : max ∈ m.occurs.max)
        (hle : m.count u ≤ max) : m.counter u = m.count u :=
      AllMember.counter_of_lt (hle.trans_lt (h.max_lt m hm max hmax))
    rw [Model.run?_concat, Option.bind_eq_some_iff]
    constructor
    · rintro ⟨st, hst, hoffer⟩
      obtain ⟨rfl, hc, hmax⟩ := ih.mp hst
      obtain ⟨i, m, hm, hn, ho, rfl⟩ := (offer?_all h.apart).mp hoffer
      have hmem := List.mem_of_getElem? hm
      rw [getD_counters hm, isOver_eq_false] at ho
      rw [modify_counters h.apart hm hn]
      refine ⟨rfl, fun n' hn' => ?_, fun m' hm' max hmax' => ?_⟩
      · rcases List.mem_append.mp hn' with hn' | hn'
        · exact hc n' hn'
        · exact ⟨m, hmem, List.mem_singleton.mp hn' ▸ hn⟩
      · rw [AllMember.count_concat]
        obtain ⟨j, hj⟩ := List.mem_iff_getElem?.mp hm'
        by_cases hyes : m'.accepts n
        · obtain rfl := h.apart.eq_of_accepts hm hj hn hyes
          obtain rfl := Option.some.inj (hm.symm.trans hj)
          rw [if_pos hyes, ← hcounter hm' hmax' (hmax m hm' max hmax')]
          exact ho max hmax'
        · rw [if_neg hyes]
          exact hmax m' hm' max hmax'
    · rintro ⟨rfl, hc, hmax⟩
      obtain ⟨m, hmem, hn⟩ := hc n (by simp)
      obtain ⟨i, hm⟩ := List.mem_iff_getElem?.mp hmem
      have hcount (m' : AllMember) : m'.count u ≤ m'.count (u ++ [n]) := by
        rw [AllMember.count_concat]
        exact Nat.le_add_right _ _
      refine ⟨_, ih.mpr ⟨rfl, fun n' hn' => hc n' (List.mem_append_left _ hn'),
        fun m' hm' max hmax' => (hcount m').trans (hmax m' hm' max hmax')⟩, ?_⟩
      refine (offer?_all h.apart).mpr ⟨i, m, hm, hn, ?_, ?_⟩
      · rw [getD_counters hm, isOver_eq_false]
        intro max hmax'
        have hle := hmax m hmem max hmax'
        rw [hcounter hmem hmax' ((hcount m).trans hle)]
        rwa [AllMember.count_concat, if_pos hn] at hle
      · rw [modify_counters h.apart hm hn]

theorem finish_all : (Model.all g).finish (.all (g.members.map (·.counter w))) = .ok () ↔
    (g.emptiable ∧ ∀ m ∈ g.members, m.counter w = 0) ∨
      ∀ m ∈ g.members, m.occurs.min ≤ m.counter w := by
  have hzero : (g.members.map (·.counter w)).all (· == 0) ↔ ∀ m ∈ g.members, m.counter w = 0 := by
    simp
  have hmissing : (g.missing (g.members.map (·.counter w))).isEmpty ↔
      ∀ m ∈ g.members, m.occurs.min ≤ m.counter w := by
    have hzip : (g.members.zip (g.members.map (·.counter w))) =
        g.members.map fun m => (m, m.counter w) := by
      simpa using List.zip_map' (f := id) (g := fun m : AllMember => m.counter w) (l := g.members)
    rw [AllGroup.missing, hzip]
    simp [List.filter_map, Occurs.isMissing]
  unfold Model.finish
  simp only
  by_cases hempty : (g.emptiable && (g.members.map (·.counter w)).all (· == 0)) = true
  · rw [if_pos hempty]
    obtain ⟨he, hz⟩ := Bool.and_eq_true_iff.mp hempty
    exact ⟨fun _ => .inl ⟨he, hzero.mp hz⟩, fun _ => rfl⟩
  · rw [if_neg hempty]
    have hno : ¬ (g.emptiable ∧ ∀ m ∈ g.members, m.counter w = 0) := fun ⟨he, hz⟩ =>
      hempty (Bool.and_eq_true_iff.mpr ⟨he, hzero.mpr hz⟩)
    rw [← hmissing]
    by_cases hm : (g.missing (g.members.map (·.counter w))).isEmpty = true
    · rw [if_pos hm]
      exact ⟨fun _ => .inr hm, fun _ => rfl⟩
    · rw [if_neg hm]
      exact ⟨fun hst => absurd hst (by simp), fun hor => (hor.elim hno hm).elim⟩

/-- **What a compiled all-group admits**: names of its members, none too many for its range, after
which the counters are all zero in an optional group, or none is too small. -/
theorem admits_iff (h : g.Counted) : (Model.all g).Admits none w ↔
    Covers g.members w ∧ (∀ m ∈ g.members, ∀ max ∈ m.occurs.max, m.count w ≤ max) ∧
      ((g.emptiable ∧ ∀ m ∈ g.members, m.counter w = 0) ∨
        ∀ m ∈ g.members, m.occurs.min ≤ m.counter w) := by
  constructor
  · rintro ⟨st, hrun, hfinish⟩
    obtain ⟨rfl, hc, hmax⟩ := (run?_all h).mp hrun
    exact ⟨hc, hmax, finish_all.mp hfinish⟩
  · rintro ⟨hc, hmax, hends⟩
    exact ⟨_, (run?_all h).mpr ⟨rfl, hc, hmax⟩, finish_all.mpr hends⟩

/-- As long as no counter has gone round, the names of each member are as many as its range allows,
or there are none and the group is optional. -/
theorem admits_iff_of_lt (h : g.Counted) (hlt : ∀ m ∈ g.members, m.count w < Counter.bound) :
    (Model.all g).Admits none w ↔ (g.emptiable ∧ w = []) ∨
      (Covers g.members w ∧ ∀ m ∈ g.members, m.occurs.Contains (m.count w)) := by
  have hcounter {P : AllMember → Nat → Prop} :
      (∀ m ∈ g.members, P m (m.counter w)) ↔ ∀ m ∈ g.members, P m (m.count w) :=
    forall₂_congr fun m hm => by rw [AllMember.counter_of_lt (hlt m hm)]
  rw [admits_iff h, hcounter (P := fun _ k => k = 0), hcounter (P := fun m k => m.occurs.min ≤ k)]
  constructor
  · rintro ⟨hc, hmax, ⟨he, hzero⟩ | hmin⟩
    · refine .inl ⟨he, List.eq_nil_iff_forall_not_mem.mpr fun n hn => ?_⟩
      obtain ⟨m, hm, hmn⟩ := hc n hn
      exact absurd hmn (List.countP_eq_zero.mp (hzero m hm) n hn)
    · exact .inr ⟨hc, fun m hm => ⟨hmin m hm, hmax m hm⟩⟩
  · rintro (⟨he, rfl⟩ | ⟨hc, hr⟩)
    · exact ⟨fun n hn => absurd hn List.not_mem_nil, fun _ _ _ _ => Nat.zero_le _,
        .inl ⟨he, fun _ _ => rfl⟩⟩
    · exact ⟨hc, fun m hm => (hr m hm).2, .inr fun m hm => (hr m hm).1⟩

end AllGroup

/-! ## Compiled groups -/

variable {ms : List Particle} {o : Occurs} {g : AllGroup} {p : Particle}

theorem eq_map_particle {members : List AllMember} (h : List.Forall₂ IsMember ms members) :
    ms = members.map AllMember.particle := by
  induction h with
  | nil => rfl
  | cons hm _ ih => rw [List.map_cons, ← ih, hm.1, AllMember.particle]

/-- What bounds a member bounds it to one. -/
theorem AllGroup.counted_of_isMember (hms : List.Forall₂ IsMember ms g.members)
    (hs : AllGroup.Separate none g.members) : g.Counted where
  apart := apart_of_separate hs
  max_lt m hm max hmax := by
    obtain ⟨i, hi⟩ := List.mem_iff_getElem?.mp hm
    obtain ⟨p, -, -, -, hone⟩ := getElem?_of_forall₂ hms.flip hi
    rw [hone max hmax]
    decide

theorem emptiable_of_ofParticle {c : Option Comparator}
    (h : AllGroup.ofParticle c (.group .all ms o) = .ok g) :
    g.emptiable = true ↔ o.min = 0 := by
  unfold AllGroup.ofParticle at h
  dsimp only at h
  split at h
  · exact absurd h (by simp [throw, throwThe, MonadExceptOf.throw, bind, Except.bind])
  · obtain ⟨members, -, h⟩ := of_bind_eq_ok h
    obtain rfl := Except.ok.inj h
    exact beq_iff_eq

/-- None of the leaves stands for as many names of the word as a counter has numbers. -/
def FitsCounters (ms : List Particle) (w : List Name) : Prop :=
  ∀ l r, .leaf l r ∈ ms → w.countP l.accepts < Counter.bound

/-- What is said of the leaves of a group is said of its members. -/
theorem forall_leaf_map_particle {members : List AllMember} {P : Leaf → Occurs → Prop} :
    (∀ l r, .leaf l r ∈ members.map AllMember.particle → P l r) ↔
      ∀ m ∈ members, P m.symbol.leaf m.occurs := by
  constructor
  · intro h m hm
    exact h _ _ (List.mem_map.mpr ⟨m, hm, rfl⟩)
  · intro h l r hmem
    obtain ⟨m, hm, hleaf⟩ := List.mem_map.mp hmem
    obtain ⟨rfl, rfl⟩ := Particle.leaf.inj hleaf
    exact h m hm

theorem fitsCounters_map_particle {members : List AllMember} {w : List Name} :
    FitsCounters (members.map AllMember.particle) w ↔ ∀ m ∈ members, m.count w < Counter.bound :=
  forall_leaf_map_particle

end MarkupGrammar
