import Mathlib.Data.List.Nodup
import Mathlib.Data.Prod.Basic
import Mathlib.Logic.Equiv.Basic

/-! # Numbers of entries

The entries of a list are referred to by their numbers. When the list is permuted they get other
numbers (`exists_getElem?_of_perm`). An entry that is looked up by a key is found at its new number
if no other entry has the key (`findIdx?_of_getElem?`), and the entry tells its number if no two
have the same key (`eq_of_getElem?_of_nodup`). Repeated entries are left out by adding only those
that are not there (`foldl_distinct`). -/

namespace MarkupGrammar

variable {α β : Type}

/-! ## Permuted lists -/

/-- The permutation applied behind the first number. -/
def liftPerm (σ : Equiv.Perm Nat) : Equiv.Perm Nat where
  toFun
    | 0 => 0
    | i + 1 => σ i + 1
  invFun
    | 0 => 0
    | i + 1 => σ.symm i + 1
  left_inv i := by cases i <;> simp
  right_inv i := by cases i <;> simp

/-- **The numbers of a permuted list** are permuted. -/
theorem exists_getElem?_of_perm {l l' : List α} (h : l.Perm l') :
    ∃ σ : Equiv.Perm Nat, ∀ i, l'[σ i]? = l[i]? := by
  induction h with
  | nil => exact ⟨Equiv.refl Nat, fun _ => rfl⟩
  | cons x _ ih =>
    obtain ⟨σ, hσ⟩ := ih
    refine ⟨liftPerm σ, fun i => ?_⟩
    cases i with
    | zero => rfl
    | succ i => exact hσ i
  | swap x y l =>
    refine ⟨Equiv.swap 0 1, fun i => ?_⟩
    match i with
    | 0 => rfl
    | 1 => rfl
    | i + 2 => rw [Equiv.swap_apply_of_ne_of_ne (by omega) (by omega)]; rfl
  | trans _ _ ih ih' =>
    obtain ⟨σ, hσ⟩ := ih
    obtain ⟨σ', hσ'⟩ := ih'
    exact ⟨σ.trans σ', fun i => (hσ' (σ i)).trans (hσ i)⟩

/-- The entries with their numbers are permuted along. -/
theorem zipIdx_perm {l l' : List α} (σ : Equiv.Perm Nat) (h : ∀ i, l'[σ i]? = l[i]?) :
    (l.zipIdx.map (Prod.map id σ)).Perm l'.zipIdx := by
  have hnodup (l : List α) : l.zipIdx.Nodup := by
    refine List.Nodup.of_map Prod.snd ?_
    rw [List.zipIdx_map_snd]
    exact List.nodup_range'
  have hinjective : Function.Injective (Prod.map id σ : α × Nat → α × Nat) :=
    Function.injective_id.prodMap σ.injective
  refine (List.perm_ext_iff_of_nodup ((hnodup l).map hinjective) (hnodup l')).mpr fun x => ?_
  rw [List.mem_map, List.mem_zipIdx_iff_getElem?]
  constructor
  · rintro ⟨y, hy, rfl⟩
    exact (h y.2).trans (List.mem_zipIdx_iff_getElem?.mp hy)
  · intro hx
    refine ⟨(x.1, σ.symm x.2), ?_, Prod.ext rfl (σ.apply_symm_apply x.2)⟩
    rw [List.mem_zipIdx_iff_getElem?, ← h, σ.apply_symm_apply]
    exact hx

/-! ## Keys -/

/-- Entries with different keys have different numbers. -/
theorem eq_of_getElem?_of_nodup {f : α → β} {l : List α} (h : (l.map f).Nodup) {i j : Nat}
    {a b : α} (ha : l[i]? = some a) (hb : l[j]? = some b) (hab : f a = f b) : i = j := by
  have hi : i < (l.map f).length := by
    rw [List.length_map]
    exact (List.getElem?_eq_some_iff.mp ha).1
  refine (List.getElem?_inj hi h).mp ?_
  rw [List.getElem?_map, List.getElem?_map, ha, hb, Option.map_some, Option.map_some, hab]

/-- Numbers are determined by the entries, where these have different keys. -/
theorem eq_of_map_getElem?_of_nodup {f : α → β} {l : List α} (h : (l.map f).Nodup)
    {is js : List Nat} {as : List α} (hi : is.map (l[·]?) = as.map some)
    (hj : js.map (l[·]?) = as.map some) : is = js := by
  induction as generalizing is js with
  | nil => rw [List.map_eq_nil_iff.mp hi, List.map_eq_nil_iff.mp hj]
  | cons a as ih =>
    obtain ⟨i, is, rfl, hia, his⟩ := List.map_eq_cons_iff.mp hi
    obtain ⟨j, js, rfl, hja, hjs⟩ := List.map_eq_cons_iff.mp hj
    rw [eq_of_getElem?_of_nodup h hia hja rfl, ih his hjs]

section FindIdx

variable {p : α → Bool} {p' : β → Bool} {xs : Array α} {xs' : Array β}

/-- At most one entry has the property. -/
def AtMostOne (p : α → Bool) (xs : Array α) : Prop :=
  ∀ i j : Nat, (xs[i]?).any p = true → (xs[j]?).any p = true → i = j

theorem findIdx?_eq_some_iff (h : AtMostOne p xs) {i : Nat} :
    xs.findIdx? p = some i ↔ (xs[i]?).any p = true := by
  have hfound {j : Nat} (hj : xs.findIdx? p = some j) : (xs[j]?).any p = true := by
    obtain ⟨hlt, hp, -⟩ := Array.findIdx?_eq_some_iff_getElem.mp hj
    rw [Array.getElem?_eq_getElem hlt]
    exact hp
  refine ⟨hfound, fun hi => ?_⟩
  cases hx : xs.findIdx? p with
  | some j => rw [h j i (hfound hx) hi]
  | none =>
    obtain ⟨a, ha, hp⟩ := (Option.any_eq_true _ _).mp hi
    have hnot := Array.findIdx?_eq_none_iff.mp hx a (Array.mem_of_getElem? ha)
    exact absurd hp (by simp [hnot])

/-- **An entry that is looked up** is found at its new number. -/
theorem findIdx?_of_getElem? (σ : Equiv.Perm Nat) (h : AtMostOne p xs)
    (hσ : ∀ i, (xs'[σ i]?).any p' = (xs[i]?).any p) :
    xs'.findIdx? p' = (xs.findIdx? p).map σ := by
  have hinv (j : Nat) : (xs'[j]?).any p' = (xs[σ.symm j]?).any p := by
    rw [← hσ, Equiv.apply_symm_apply]
  have h' : AtMostOne p' xs' := fun i j hi hj => by
    rw [hinv] at hi hj
    exact σ.symm.injective (h _ _ hi hj)
  ext j
  rw [findIdx?_eq_some_iff h', hinv, ← findIdx?_eq_some_iff h, Option.map_eq_some_iff]
  constructor
  · exact fun hj => ⟨_, hj, σ.apply_symm_apply j⟩
  · rintro ⟨i, hi, rfl⟩
    rwa [σ.symm_apply_apply]

end FindIdx

/-! ## Repetitions -/

/-- Entries are added unless they are there: the list has the same entries then, and each of them
once. -/
theorem foldl_distinct [BEq α] [LawfulBEq α] (seen xs : List α) (hseen : seen.Nodup) :
    (xs.foldl (fun seen x => if seen.contains x then seen else seen ++ [x]) seen).Nodup ∧
      ∀ y, y ∈ xs.foldl (fun seen x => if seen.contains x then seen else seen ++ [x]) seen ↔
        y ∈ seen ∨ y ∈ xs := by
  induction xs generalizing seen with
  | nil => exact ⟨hseen, fun y => by simp⟩
  | cons x xs ih =>
    rw [List.foldl_cons]
    split
    · rename_i hx
      rw [List.contains_iff_mem] at hx
      obtain ⟨hnodup, hmem⟩ := ih seen hseen
      refine ⟨hnodup, fun y => (hmem y).trans ?_⟩
      rw [List.mem_cons, ← or_assoc]
      exact or_congr_left ⟨.inl, fun h => h.elim id fun h => h ▸ hx⟩
    · rename_i hx
      rw [List.contains_iff_mem] at hx
      have hnew : (seen ++ [x]).Nodup :=
        List.nodup_append'.mpr ⟨hseen, List.nodup_singleton x, by simpa using hx⟩
      obtain ⟨hnodup, hmem⟩ := ih (seen ++ [x]) hnew
      refine ⟨hnodup, fun y => (hmem y).trans ?_⟩
      rw [List.mem_append, List.mem_singleton, List.mem_cons, or_assoc]

end MarkupGrammar
