import MarkupGrammar.Particle.Text
import MarkupGrammar.Proofs.Outcome
import Mathlib.Data.List.FinRange
import Mathlib.Data.List.Permutation

/-! # Orderings and the writing of all-groups

The orderings of a list are made of its positions: each permutation of these comes once
(`nodup_orderings`, `mem_orderings`), so there are as many orderings as the factorial of the length,
also if elements are equal (`orderings_map`, `orderings_perm_permutations`). An all-group is written
as the choice of the orderings of what is written for its members (`text_all_eq_ok_iff`). -/

namespace MarkupGrammar

open scoped Nat

/-! ## Orderings -/

section Orderings

variable {α β : Type} {x y : α} {xs ys : List α}

theorem perm_of_mem_selections (h : (y, ys) ∈ selections xs) : (y :: ys).Perm xs := by
  induction xs generalizing ys with
  | nil => exact absurd h List.not_mem_nil
  | cons x xs ih =>
    rcases List.mem_cons.mp h with h | h
    · obtain ⟨rfl, rfl⟩ := Prod.mk.inj h
      exact .refl _
    · obtain ⟨⟨z, zs⟩, hz, heq⟩ := List.mem_map.mp h
      obtain ⟨rfl, rfl⟩ := Prod.mk.inj heq
      exact (List.Perm.swap x z zs).trans ((ih hz).cons x)

theorem exists_selection (h : y ∈ xs) : ∃ ys, (y, ys) ∈ selections xs := by
  induction xs with
  | nil => exact absurd h List.not_mem_nil
  | cons x xs ih =>
    rcases List.mem_cons.mp h with rfl | h
    · exact ⟨xs, List.mem_cons_self⟩
    · obtain ⟨ys, hys⟩ := ih h
      exact ⟨x :: ys, List.mem_cons_of_mem _ (List.mem_map_of_mem hys)⟩

theorem mem_orderingsOf {n : Nat} (hn : xs.length = n) : ys ∈ orderingsOf n xs ↔ ys.Perm xs := by
  induction n generalizing xs ys with
  | zero =>
    obtain rfl := List.length_eq_zero_iff.mp hn
    simp [orderingsOf]
  | succ n ih =>
    have hlength {y : α} {rest : List α} (h : (y, rest) ∈ selections xs) : rest.length = n := by
      have := (perm_of_mem_selections h).length_eq
      simp only [List.length_cons] at this
      omega
    simp only [orderingsOf, List.mem_flatMap, List.mem_map, Prod.exists]
    constructor
    · rintro ⟨y, rest, hs, zs, hzs, rfl⟩
      exact (((ih (hlength hs)).mp hzs).cons y).trans (perm_of_mem_selections hs)
    · intro h
      cases ys with
      | nil =>
        rw [← h.length_eq] at hn
        exact absurd hn (Nat.zero_ne_add_one n)
      | cons y zs =>
        obtain ⟨rest, hs⟩ := exists_selection (h.mem_iff.mp List.mem_cons_self)
        have hzs := (List.perm_cons y).mp (h.trans (perm_of_mem_selections hs).symm)
        exact ⟨y, rest, hs, zs, (ih (hlength hs)).mpr hzs, rfl⟩

/-- The orderings of a list are its permutations. -/
theorem mem_orderings : ys ∈ orderings xs ↔ ys.Perm xs := mem_orderingsOf rfl

theorem selections_map (f : α → β) (xs : List α) :
    selections (xs.map f) = (selections xs).map fun (y, ys) => (f y, ys.map f) := by
  induction xs with
  | nil => rfl
  | cons x xs ih =>
    rw [List.map_cons, selections, selections, ih]
    simp only [List.map_cons, List.map_map, Function.comp_def]

theorem orderingsOf_map (f : α → β) (n : Nat) (xs : List α) :
    orderingsOf n (xs.map f) = (orderingsOf n xs).map (List.map f) := by
  induction n generalizing xs with
  | zero => rfl
  | succ n ih =>
    rw [orderingsOf, orderingsOf, selections_map, List.flatMap_map, List.map_flatMap]
    simp only [ih, List.map_map, Function.comp_def, List.map_cons]

theorem orderings_map (f : α → β) (xs : List α) :
    orderings (xs.map f) = (orderings xs).map (List.map f) := by
  rw [orderings, orderings, List.length_map, orderingsOf_map]

/-! ### Orderings of positions -/

theorem map_fst_selections (xs : List α) : (selections xs).map Prod.fst = xs := by
  induction xs with
  | nil => rfl
  | cons x xs ih =>
    rw [selections, List.map_cons, List.map_map]
    exact congrArg (x :: ·) ih

theorem nodup_orderingsOf {n : Nat} (hn : xs.length = n) (h : xs.Nodup) :
    (orderingsOf n xs).Nodup := by
  induction n generalizing xs with
  | zero => exact List.nodup_singleton _
  | succ n ih =>
    rw [orderingsOf, List.nodup_flatMap]
    constructor
    · rintro ⟨y, ys⟩ hys
      have hperm := perm_of_mem_selections hys
      have hlength : ys.length = n := by
        have := hperm.length_eq
        simp only [List.length_cons] at this
        omega
      exact (ih hlength (List.nodup_cons.mp (hperm.nodup_iff.mpr h)).2).map List.cons_injective
    · -- orderings of two selections begin differently
      have hfirst : (selections xs).Pairwise fun s t => s.1 ≠ t.1 :=
        List.pairwise_map.mp ((map_fst_selections xs).symm ▸ h)
      refine hfirst.imp fun {s t} hne l hs ht => ?_
      obtain ⟨_, -, rfl⟩ := List.mem_map.mp hs
      obtain ⟨_, -, heq⟩ := List.mem_map.mp ht
      exact hne (List.cons.inj heq).1.symm

theorem nodup_orderings (h : xs.Nodup) : (orderings xs).Nodup := nodup_orderingsOf rfl h

/-- The orderings of a list are those of its positions. -/
theorem orderings_eq_map_get (xs : List α) :
    orderings xs = (orderings (List.finRange xs.length)).map (List.map xs.get) := by
  rw [← orderings_map, List.map_get_finRange]

/-- Equal elements count apart, as they do in the permutations of the library. -/
theorem orderings_perm_permutations (xs : List α) : (orderings xs).Perm xs.permutations := by
  have hpositions : (orderings (List.finRange xs.length)).Perm
      (List.finRange xs.length).permutations := by
    have hnodup := List.nodup_finRange xs.length
    refine (List.perm_ext_iff_of_nodup (nodup_orderings hnodup)
      (List.nodup_permutations _ hnodup)).mpr fun l => ?_
    rw [mem_orderings, List.mem_permutations]
  have hmap := hpositions.map (List.map xs.get)
  rwa [← orderings_eq_map_get, List.map_permutations, List.map_get_finRange] at hmap

theorem length_orderings (xs : List α) : (orderings xs).length = xs.length ! := by
  rw [(orderings_perm_permutations xs).length_eq, List.length_permutations]

example : orderings ([] : List String) = [[]] := rfl

end Orderings

/-! ## Written all-groups -/

namespace Particle

variable {limits : Limits} {ms : List Particle} {o : Occurs} {texts : List String} {s : String}

/-- The members of a group are written one by one; in an all-group a range needs a sign of its
own. -/
theorem memberTexts_eq_ok_iff {isAll : Bool} : memberTexts limits isAll ms = .ok texts ↔
    List.Forall₂ (fun p t => (isAll → p.occurs.isBasic) ∧ innerText limits p = .ok t) ms texts := by
  induction ms generalizing texts with
  | nil =>
    rw [memberTexts, List.forall₂_nil_left_iff]
    exact ⟨fun h => (Except.ok.inj h).symm, fun h => h ▸ rfl⟩
  | cons p ms ih =>
    rw [memberTexts, List.forall₂_cons_left_iff]
    by_cases hbasic : isAll → p.occurs.isBasic
    · have hcheck : (isAll && !p.occurs.isBasic) = false := by
        cases isAll with
        | false => rfl
        | true => simp [hbasic rfl]
      rw [if_neg (by rw [hcheck]; exact Bool.false_ne_true)]
      constructor
      · intro h
        obtain ⟨t, ht, h⟩ := of_bind_eq_ok h
        obtain ⟨rest, hrest, h⟩ := of_bind_eq_ok h
        exact ⟨t, rest, ⟨hbasic, ht⟩, ih.mp hrest, (Except.ok.inj h).symm⟩
      · rintro ⟨t, rest, ⟨-, ht⟩, hrest, rfl⟩
        rw [ht, ih.mpr hrest]
        rfl
    · obtain ⟨rfl, hno⟩ := Classical.not_imp.mp hbasic
      rw [if_pos (by simpa using hno)]
      exact iff_of_false (nomatch ·) fun ⟨_, _, h, _⟩ => hbasic h.1

/-- The choice of the orderings of some texts. -/
def orderingsText (texts : List String) : String :=
  parenthesized (Text.joined "|" ((orderings texts).map fun o => parenthesized (Text.joined "," o)))

theorem groupText_all_eq_ok_iff : groupText limits .all texts = .ok s ↔
    texts.length ≤ limits.maxAllMembers ∧ s = orderingsText texts := by
  rw [groupText]
  by_cases hle : texts.length ≤ limits.maxAllMembers
  · have hcheck : limits.check .allMembers texts.length = .ok () := if_neg (Nat.not_lt_of_le hle)
    rw [hcheck]
    exact ⟨fun h => ⟨hle, (Except.ok.inj h).symm⟩, fun h => h.2 ▸ rfl⟩
  · have hcheck : limits.check .allMembers texts.length =
        .error ⟨.allMembers, texts.length, limits.maxAllMembers⟩ := if_pos (Nat.lt_of_not_le hle)
    rw [hcheck]
    exact iff_of_false (nomatch ·) fun h => hle h.1

theorem innerText_all_eq_ok_iff : innerText limits (.group .all ms o) = .ok s ↔
    ms.length ≤ limits.maxAllMembers ∧ ∃ texts,
      List.Forall₂ (fun p t => p.occurs.isBasic ∧ innerText limits p = .ok t) ms texts ∧
      s = orderingsText texts ++ o.text := by
  have hmembers {texts : List String} : memberTexts limits (Compositor.all == .all) ms = .ok texts ↔
      List.Forall₂ (fun p t => p.occurs.isBasic ∧ innerText limits p = .ok t) ms texts := by
    rw [memberTexts_eq_ok_iff]
    simp only [beq_self_eq_true, forall_const]
  rw [innerText]
  constructor
  · intro h
    obtain ⟨texts, htexts, h⟩ := of_bind_eq_ok h
    obtain ⟨t, ht, h⟩ := of_bind_eq_ok h
    obtain ⟨hle, rfl⟩ := groupText_all_eq_ok_iff.mp ht
    have htexts := hmembers.mp htexts
    exact ⟨htexts.length_eq ▸ hle, texts, htexts, (Except.ok.inj h).symm⟩
  · rintro ⟨hle, texts, htexts, rfl⟩
    have ht := groupText_all_eq_ok_iff.mpr ⟨htexts.length_eq ▸ hle, rfl⟩
    rw [hmembers.mpr htexts]
    change (groupText limits .all texts >>= _) = _
    rw [ht]
    rfl

/-- A text that begins with a parenthesis is not put in parentheses. -/
theorem text_all (limits : Limits) (ms : List Particle) (o : Occurs) :
    text limits (.group .all ms o) = innerText limits (.group .all ms o) := by
  rw [text]
  cases h : innerText limits (.group .all ms o) with
  | error e => rfl
  | ok s =>
    obtain ⟨-, texts, -, rfl⟩ := innerText_all_eq_ok_iff.mp h
    have hhead : (orderingsText texts ++ o.text).toList.head? = some '(' := by
      rw [orderingsText, parenthesized, String.toList_append, String.toList_append,
        String.toList_append]
      rfl
    change Except.ok (if _ then _ else _) = _
    rw [hhead]
    rfl

/-- **An all-group is written as its orderings, each once.** The orderings of some texts are those
of their positions, and these are all the permutations without repetition, so that there are as many
as the factorial of the length, also if texts are equal. An all-group can be written if it has no
more members than are allowed and each of them can be; it is then the choice of the orderings of
what is written for these. -/
theorem text_all_eq_ok_iff (limits : Limits) (ms : List Particle) (o : Occurs) :
    (∀ xs : List String,
      orderings xs = (orderings (List.finRange xs.length)).map (List.map xs.get) ∧
      (orderings xs).length = xs.length !) ∧
    (∀ n, (orderings (List.finRange n)).Nodup ∧
      ∀ is, is ∈ orderings (List.finRange n) ↔ is.Perm (List.finRange n)) ∧
    ∀ s, (group .all ms o).text limits = .ok s ↔
      ms.length ≤ limits.maxAllMembers ∧ ∃ texts,
        List.Forall₂ (fun p t => p.occurs.isBasic ∧ innerText limits p = .ok t) ms texts ∧
        s = parenthesized (Text.joined "|" ((orderings texts).map fun order =>
          parenthesized (Text.joined "," order))) ++ o.text := by
  refine ⟨fun xs => ⟨orderings_eq_map_get xs, length_orderings xs⟩,
    fun n => ⟨nodup_orderings (List.nodup_finRange n), fun is => mem_orderings⟩, fun s => ?_⟩
  rw [text_all, innerText_all_eq_ok_iff]
  rfl

end Particle

end MarkupGrammar
