import MarkupGrammar.Proofs.Keys.Verdict

/-! # Closing the selections of an element

An element may have been selected by several activations; at its end tag all their selections are
closed. Each of them changes its own activation only, so the order does not matter for what the
activations and the ledgers hold afterwards. -/

namespace MarkupGrammar

variable {types : TypeTable} {t : Tree DeclaredTag} {k : Keys} {a : Activation} {place : Nat}

/-- An entry of a list is replaced by one that has the property in one more case. -/
theorem exists_mem_set_iff {α : Type} {P : α → Prop} {Q : Prop} {l : List α} {i : Nat} {a b : α}
    (hi : l[i]? = some a) (hb : P b ↔ P a ∨ Q) :
    (∃ y ∈ l.set i b, P y) ↔ (∃ y ∈ l, P y) ∨ Q := by
  obtain ⟨hlt, rfl⟩ := List.getElem?_eq_some_iff.mp hi
  have hl : l = l.take i ++ l[i] :: l.drop (i + 1) := by
    rw [List.getElem_cons_drop, List.take_append_drop]
  rw [List.set_eq_take_append_cons_drop, if_pos hlt]
  conv_rhs => rw [hl]
  simp only [List.mem_append, List.mem_cons, or_and_right, exists_or, exists_eq_left, hb]
  rw [or_right_comm (c := ∃ y, y ∈ l.drop (i + 1) ∧ P y), ← or_assoc]

/-! ## Ledgers -/

/-- The activation has recorded a tuple, under the number of its constraint. -/
def Activation.Records (a : Activation) (x : Nat × FieldTuple) : Prop :=
  a.of.number = x.1 ∧ x.2 ∈ a.tuples

theorem Activation.records_noted {x : Nat × FieldTuple} :
    (a.noted types t).Records x ↔ a.Records x ∨ x ∈ a.entries types t := by
  obtain ⟨number, v⟩ := x
  unfold Records
  rw [entries, List.mem_map, noted, Constraint.noted, List.mem_append]
  simp only [Option.mem_toList, Prod.mk.injEq]
  constructor
  · rintro ⟨hn, hv | hv⟩
    · exact .inr ⟨v, hv, hn, rfl⟩
    · exact .inl ⟨hn, hv⟩
  · rintro (⟨hn, hv⟩ | ⟨w, hw, hn, rfl⟩)
    · exact ⟨hn, .inr hv⟩
    · exact ⟨hn, .inl hw⟩

namespace Keys

/-- The ledger of the open element at a depth. -/
def ledgerAt (k : Keys) (d : Nat) : Ledger := (k.ledgers[k.depth - d]?).getD []

/-- The ledger of an open element holds what the activations by the element have recorded, and what
has been `merged` from the elements in it that have ended. -/
structure LedgersHold (k : Keys) (merged : Nat → Nat × FieldTuple → Prop) : Prop where
  length_eq : k.ledgers.length = k.depth
  depth : ∀ a ∈ k.activations, 0 < a.depth ∧ a.depth ≤ k.depth
  mem_iff : ∀ d, 0 < d → d ≤ k.depth → ∀ x, x ∈ k.ledgerAt d ↔
    (∃ a ∈ k.activations, a.depth = d ∧ a.Records x) ∨ merged d x

theorem mem_ledgerAt_close (hlen : k.ledgers.length = k.depth)
    (hle : a.depth ≤ k.depth) {d : Nat} (hd : 0 < d) (hdk : d ≤ k.depth) {x : Nat × FieldTuple} :
    x ∈ (k.close types place a t).ledgerAt d ↔
      x ∈ k.ledgerAt d ∨ a.depth = d ∧ x ∈ a.entries types t := by
  have hlt : k.depth - d < k.ledgers.length := by omega
  have hind : k.depth - a.depth = k.depth - d ↔ a.depth = d := by omega
  simp only [ledgerAt, close, List.getElem?_modify, List.getElem?_eq_getElem hlt, Option.map_some,
    Option.map_eq_map, Option.getD_some]
  by_cases had : a.depth = d
  · rw [if_pos (hind.mpr had), List.mem_append]
    tauto
  · rw [if_neg fun h => had (hind.mp h)]
    tauto

theorem LedgersHold.close {merged : Nat → Nat × FieldTuple → Prop} (h : k.LedgersHold merged)
    (ha : k.activations[place]? = some a) : (k.close types place a t).LedgersHold merged := by
  obtain ⟨hpos, hle⟩ := h.depth a (List.mem_of_getElem? ha)
  refine ⟨by simpa [Keys.close] using h.length_eq, fun b hb => ?_, fun d hd hdk x => ?_⟩
  · rcases List.mem_or_eq_of_mem_set hb with hb | rfl
    · exact h.depth b hb
    · exact ⟨hpos, hle⟩
  · have hset : (∃ b ∈ k.activations.set place (a.noted types t), b.depth = d ∧ b.Records x) ↔
        (∃ b ∈ k.activations, b.depth = d ∧ b.Records x) ∨
          a.depth = d ∧ x ∈ a.entries types t := by
      refine exists_mem_set_iff ha ?_
      rw [Activation.records_noted, and_or_left]
      rfl
    rw [mem_ledgerAt_close h.length_eq hle hd hdk, h.mem_iff d hd hdk]
    change _ ↔ (∃ b ∈ k.activations.set place (a.noted types t), b.depth = d ∧ b.Records x) ∨ _
    rw [hset, or_right_comm]

/-! ## Several selections -/

/-- The state after an element has ended that activations, each with its place, have selected. -/
def closeAll (types : TypeTable) (t : Tree DeclaredTag) (k : Keys)
    (picks : List (Activation × Nat)) : Keys :=
  picks.foldl (fun k x => k.close types x.2 x.1 t) k

/-- Activations with their places, which are different. -/
structure Picks (activations : List Activation) (picks : List (Activation × Nat)) : Prop where
  nodup : (picks.map (·.2)).Nodup
  getElem? : ∀ x ∈ picks, activations[x.2]? = some x.1

/-- What happens to one activation does not touch the others. -/
theorem Picks.close {x : Activation × Nat} {picks : List (Activation × Nat)}
    (h : Picks k.activations (x :: picks)) : Picks (k.close types x.2 x.1 t).activations picks := by
  obtain ⟨hx, hnodup⟩ := List.nodup_cons.mp h.nodup
  refine ⟨hnodup, fun y hy => ?_⟩
  have hne : x.2 ≠ y.2 := by
    intro heq
    exact hx (List.mem_map.mpr ⟨y, hy, heq.symm⟩)
  change (k.activations.set x.2 _)[y.2]? = some y.1
  rw [List.getElem?_set_ne hne]
  exact h.getElem? y (List.mem_cons_of_mem x hy)

theorem closeSelections_eq {ss : List Selection} {picks : List (Activation × Nat)}
    (hs : List.Forall₂ (fun s x => s.activation = x.2 ∧ s.Ends types x.1 t) ss picks)
    (h : Picks k.activations picks) : k.closeSelections ss =
      (k.closeAll types t picks, picks.flatMap fun x =>
        x.1.of.constraint.verdict types x.1.tuples t) := by
  induction hs generalizing k with
  | nil => rfl
  | @cons s x ss picks hsx hs ih =>
    obtain ⟨hplace, hends⟩ := hsx
    have hx : k.activations[s.activation]? = some x.1 := by
      rw [hplace]
      exact h.getElem? x List.mem_cons_self
    rw [closeSelections, closeSelection_eq hx hends, hplace]
    dsimp only
    rw [ih h.close]
    rfl

section CloseAll

variable {picks : List (Activation × Nat)}

@[simp] theorem depth_closeAll : (k.closeAll types t picks).depth = k.depth := by
  induction picks generalizing k with
  | nil => rfl
  | cons x picks ih => exact ih

@[simp] theorem selections_closeAll : (k.closeAll types t picks).selections = k.selections := by
  induction picks generalizing k with
  | nil => rfl
  | cons x picks ih => exact ih

@[simp] theorem dangling_closeAll : (k.closeAll types t picks).dangling = k.dangling := by
  induction picks generalizing k with
  | nil => rfl
  | cons x picks ih => exact ih

theorem waiting_closeAll : (k.closeAll types t picks).waiting =
    k.waiting ++ picks.flatMap fun x => x.1.references types t := by
  induction picks generalizing k with
  | nil => simp [closeAll]
  | cons x picks ih =>
    refine ih.trans ?_
    rw [List.flatMap_cons, ← List.append_assoc]
    rfl

theorem LedgersHold.closeAll {merged : Nat → Nat × FieldTuple → Prop} (h : k.LedgersHold merged)
    (hp : Picks k.activations picks) : (k.closeAll types t picks).LedgersHold merged := by
  induction picks generalizing k with
  | nil => exact h
  | cons x picks ih => exact ih (h.close (hp.getElem? x List.mem_cons_self)) hp.close

theorem getElem?_activations_closeAll (hp : Picks k.activations picks) (i : Nat) :
    (k.closeAll types t picks).activations[i]? =
      if i ∈ picks.map (·.2) then (k.activations[i]?).map (·.noted types t)
      else k.activations[i]? := by
  induction picks generalizing k with
  | nil => rfl
  | cons x picks ih =>
    have hx := hp.getElem? x List.mem_cons_self
    have hnot : x.2 ∉ picks.map (·.2) := (List.nodup_cons.mp hp.nodup).1
    refine (ih hp.close).trans ?_
    change (if i ∈ picks.map (·.2) then
        ((k.activations.set x.2 (x.1.noted types t))[i]?).map (·.noted types t)
      else (k.activations.set x.2 (x.1.noted types t))[i]?) = _
    by_cases hi : i = x.2
    · subst hi
      obtain ⟨hlt, -⟩ := List.getElem?_eq_some_iff.mp hx
      rw [if_neg hnot, if_pos (by simp), List.getElem?_set_self hlt, hx, Option.map_some]
    · rw [List.getElem?_set_ne fun h => hi h.symm]
      simp only [List.map_cons, List.mem_cons, hi, false_or]

end CloseAll

/-! ## The activations that select an element -/

/-- The activations that have a property, with their places, the last first. -/
def picksOf (selects : Activation → Bool) (activations : List Activation) :
    List (Activation × Nat) :=
  (activations.zipIdx.filter fun x => selects x.1).reverse

variable {selects : Activation → Bool}

theorem picks_picksOf (activations : List Activation) :
    Picks activations (picksOf selects activations) := by
  refine ⟨?_, fun x hx => ?_⟩
  · rw [picksOf, List.map_reverse, List.Perm.nodup_iff (List.reverse_perm _)]
    refine List.Nodup.sublist (List.filter_sublist.map _) ?_
    rw [List.zipIdx_map_snd]
    exact List.nodup_range'
  · rw [picksOf, List.mem_reverse, List.mem_filter] at hx
    exact List.mem_zipIdx_iff_getElem?.mp hx.1

theorem map_fst_picksOf (activations : List Activation) :
    (picksOf selects activations).map (·.1) = (activations.filter selects).reverse := by
  rw [picksOf, List.map_reverse]
  congr 1
  conv_rhs => rw [← List.zipIdx_map_fst 0 activations, List.filter_map]
  rfl

theorem flatMap_filter {α β : Type} (p : α → Bool) (f : α → List β) (l : List α) :
    (l.filter p).flatMap f = l.flatMap fun a => if p a then f a else [] := by
  induction l with
  | nil => rfl
  | cons a l ih =>
    rw [List.filter_cons, List.flatMap_cons, ← ih]
    cases p a <;> rfl

theorem flatMap_picksOf {β : Type} (f : Activation → List β) (activations : List Activation) :
    ((picksOf selects activations).flatMap fun x => f x.1).Perm
      (activations.flatMap fun a => if selects a then f a else []) := by
  rw [← flatMap_filter, ← List.flatMap_map, map_fst_picksOf]
  exact (List.reverse_perm _).flatMap_right f

theorem activations_closeAll_picksOf :
    (k.closeAll types t (picksOf selects k.activations)).activations =
      k.activations.map fun a => if selects a then a.noted types t else a := by
  refine List.ext_getElem? fun i => ?_
  rw [getElem?_activations_closeAll (picks_picksOf _), List.getElem?_map]
  have hmem : i ∈ (picksOf selects k.activations).map (·.2) ↔
      ∃ a, k.activations[i]? = some a ∧ selects a = true := by
    simp only [picksOf, List.mem_map, List.mem_reverse, List.mem_filter,
      List.mem_zipIdx_iff_getElem?]
    constructor
    · rintro ⟨x, ⟨hx, hs⟩, rfl⟩
      exact ⟨x.1, hx, hs⟩
    · rintro ⟨a, ha, hs⟩
      exact ⟨(a, i), ⟨ha, hs⟩, rfl⟩
  cases ha : k.activations[i]? with
  | none => simp
  | some a =>
    rw [ha] at hmem
    by_cases hs : selects a
    · rw [if_pos (hmem.mpr ⟨a, rfl, hs⟩), Option.map_some, Option.map_some, if_pos hs]
    · have hnot : ¬ ∃ b, some a = some b ∧ selects b = true := by
        rintro ⟨b, hb, hsb⟩
        obtain rfl := Option.some.inj hb
        exact hs hsb
      rw [if_neg fun h => hnot (hmem.mp h), Option.map_some, if_neg hs]

end Keys

end MarkupGrammar
