import MarkupGrammar.Pattern.Simple
import Mathlib.Data.List.Perm.Subperm
import Mathlib.Data.List.Range
import Mathlib.Data.Nat.Notation

/-! # What patterns match

Which parts of a text a pattern matches is said by recursion on the pattern, with a part given by
the places where it begins and ends (`Spans`). Running a pattern from some places finds the places
where such parts end (`computes_run`), although repetitions are followed no further than the text
has places. -/

namespace MarkupGrammar.Pattern

variable {v : List Char} {p q : Pattern} {ps qs : List Pattern} {i j k m n : ℕ}

/-! ## Parts of a text -/

/-- A number of steps, one after the other. -/
def Walk (r : ℕ → ℕ → Prop) : (n : ℕ) → ℕ → ℕ → Prop
  | 0, i, k => i = k
  | n + 1, i, k => ∃ j, r i j ∧ Walk r n j k

/-- The pattern matches the text between two places. A repetition matches if the pattern in it does
so a number of times in a row, at most as often as its greater bound says. -/
def Spans (v : List Char) : Pattern → ℕ → ℕ → Prop
  | empty, i, j => i = j
  | text s, i, j => s <+: v.drop i ∧ j = i + s.length
  | chars s, i, j => (∃ c, v[i]? = some c ∧ s.contains c) ∧ j = i + 1
  | place p, i, j => p.holds (if i = 0 then none else v[i - 1]?) v[i]? ∧ i = j
  | cat p q, i, k => ∃ j, p.Spans v i j ∧ q.Spans v j k
  | alt p q, i, j => p.Spans v i j ∨ q.Spans v i j
  | repeated p min max, i, j =>
    ∃ n, min ≤ n ∧ (∀ m, max = some m → n ≤ min ∨ n ≤ m) ∧ Walk (p.Spans v) n i j
  | group _ p, i, j => p.Spans v i j

/-- The pattern matches the text as a whole. -/
def MatchesWhole (p : Pattern) (v : List Char) : Prop := p.Spans v 0 v.length

theorem walk_add {r : ℕ → ℕ → Prop} : Walk r (m + n) i k ↔ ∃ j, Walk r m i j ∧ Walk r n j k := by
  induction m generalizing i with
  | zero => simp [Walk]
  | succ m ih =>
    rw [Nat.succ_add]
    simp only [Walk, ih]
    constructor
    · rintro ⟨j, hr, j', hm, hn⟩
      exact ⟨j', ⟨j, hr, hm⟩, hn⟩
    · rintro ⟨j', ⟨j, hr, hm⟩, hn⟩
      exact ⟨j, hr, j', hm, hn⟩

/-! ## Lists of places -/

/-- Places up to `n`, in descending order. -/
structure IsPlaces (n : ℕ) (l : List ℕ) : Prop where
  descending : l.Pairwise (· > ·)
  le : ∀ i ∈ l, i ≤ n

theorem IsPlaces.tail {l : List ℕ} (h : IsPlaces n (i :: l)) : IsPlaces n l :=
  ⟨(List.pairwise_cons.mp h.descending).2, fun j hj => h.le j (.tail _ hj)⟩

theorem IsPlaces.lt_head {l : List ℕ} (h : IsPlaces n (i :: l)) (hj : j ∈ l) : j < i :=
  (List.pairwise_cons.mp h.descending).1 j hj

theorem IsPlaces.sublist {l l' : List ℕ} (h : IsPlaces n l) (hl : l'.Sublist l) : IsPlaces n l' :=
  ⟨h.descending.sublist hl, fun i hi => h.le i (hl.subset hi)⟩

/-- Of `n + 1` places, all are there. -/
theorem IsPlaces.mem {l : List ℕ} (h : IsPlaces n l) (hlength : n + 1 ≤ l.length) (hi : i ≤ n) :
    i ∈ l := by
  have hnodup : l.Nodup := h.descending.imp fun hgt heq => absurd heq (Nat.ne_of_gt hgt)
  have hsub : l ⊆ List.range (n + 1) := fun j hj =>
    List.mem_range.mpr (Nat.lt_succ_of_le (h.le j hj))
  have hperm : l.Perm (List.range (n + 1)) :=
    (List.subperm_of_subset hnodup hsub).perm_of_length_le (by simpa using hlength)
  exact hperm.mem_iff.mpr (List.mem_range.mpr (Nat.lt_succ_of_le hi))

@[simp]
theorem mem_mergePlaces {s t : List ℕ} : i ∈ mergePlaces s t ↔ i ∈ s ∨ i ∈ t := by
  fun_induction mergePlaces s t with
  | case1 t => simp
  | case2 s => simp
  | case3 a s b t hba ih => rw [List.mem_cons, ih, List.mem_cons (b := a), or_assoc]
  | case4 a s b t hba hab ih =>
    rw [List.mem_cons, ih, List.mem_cons (b := b)]
    exact or_left_comm
  | case5 a s b t hba hab ih =>
    obtain rfl : a = b := by omega
    rw [List.mem_cons, ih, List.mem_cons, List.mem_cons]
    tauto

theorem isPlaces_mergePlaces {s t : List ℕ} (hs : IsPlaces n s) (ht : IsPlaces n t) :
    IsPlaces n (mergePlaces s t) := by
  refine ⟨?_, fun i hi => (mem_mergePlaces.mp hi).elim (hs.le i) (ht.le i)⟩
  fun_induction mergePlaces s t with
  | case1 t => exact ht.descending
  | case2 s => exact hs.descending
  | case3 a s b t hba ih =>
    refine List.pairwise_cons.mpr ⟨fun i hi => ?_, ih hs.tail ht⟩
    rcases mem_mergePlaces.mp hi with hi | hi
    · exact hs.lt_head hi
    · rcases List.mem_cons.mp hi with rfl | hi
      · exact hba
      · exact (ht.lt_head hi).trans hba
  | case4 a s b t hba hab ih =>
    refine List.pairwise_cons.mpr ⟨fun i hi => ?_, ih hs ht.tail⟩
    rcases mem_mergePlaces.mp hi with hi | hi
    · rcases List.mem_cons.mp hi with rfl | hi
      · exact hab
      · exact (hs.lt_head hi).trans hab
    · exact ht.lt_head hi
  | case5 a s b t hba hab ih =>
    obtain rfl : a = b := by omega
    refine List.pairwise_cons.mpr ⟨fun i hi => ?_, ih hs.tail ht.tail⟩
    exact (mem_mergePlaces.mp hi).elim hs.lt_head ht.lt_head

theorem mem_newPlaces {s t : List ℕ} (hs : IsPlaces n s) (ht : IsPlaces n t) :
    i ∈ newPlaces s t ↔ i ∈ s ∧ i ∉ t := by
  fun_induction newPlaces s t with
  | case1 t => simp
  | case2 s => simp
  | case3 a s b t hba ih =>
    have ha : a ∉ b :: t := by
      rintro (_ | ⟨_, ha⟩)
      · omega
      · exact absurd (ht.lt_head ha) (by omega)
    rw [List.mem_cons, ih hs.tail ht, List.mem_cons (b := a)]
    constructor
    · rintro (rfl | ⟨hi, hnot⟩)
      · exact ⟨.inl rfl, ha⟩
      · exact ⟨.inr hi, hnot⟩
    · rintro ⟨rfl | hi, hnot⟩
      · exact .inl rfl
      · exact .inr ⟨hi, hnot⟩
  | case4 a s b t hba hab ih =>
    rw [ih hs ht.tail, List.mem_cons (b := b), not_or]
    refine and_congr_right fun hi => ?_
    have hle : i ≤ a := by
      rcases List.mem_cons.mp hi with rfl | hi
      · exact le_rfl
      · exact (hs.lt_head hi).le
    exact (and_iff_right (by omega)).symm
  | case5 a s b t hba hab ih =>
    obtain rfl : a = b := by omega
    rw [ih hs.tail ht.tail, List.mem_cons, List.mem_cons, not_or]
    constructor
    · rintro ⟨hi, hnot⟩
      exact ⟨.inr hi, (hs.lt_head hi).ne, hnot⟩
    · rintro ⟨rfl | hi, hne, hnot⟩
      · exact absurd rfl hne
      · exact ⟨hi, hnot⟩

theorem newPlaces_sublist (s t : List ℕ) : (newPlaces s t).Sublist s := by
  fun_induction newPlaces s t with
  | case1 t => exact .slnil
  | case2 s => exact .refl _
  | case3 a s b t hba ih => exact ih.cons_cons a
  | case4 a s b t hba hab ih => exact ih
  | case5 a s b t hba hab ih => exact ih.cons a

theorem length_mergePlaces {s t : List ℕ} (h : ∀ i ∈ s, i ∉ t) :
    (mergePlaces s t).length = s.length + t.length := by
  fun_induction mergePlaces s t with
  | case1 t => simp
  | case2 s => simp
  | case3 a s b t hba ih =>
    rw [List.length_cons, ih fun i hi => h i (.tail _ hi), List.length_cons (a := a)]
    omega
  | case4 a s b t hba hab ih =>
    rw [List.length_cons, ih fun i hi => fun ht => h i hi (.tail _ ht), List.length_cons (a := b)]
    omega
  | case5 a s b t hba hab ih =>
    obtain rfl : a = b := by omega
    exact absurd (.head _) (h a (.head _))

/-! ## Steps between places -/

/-- A step gives the places that are related to one of the places it is applied to. -/
structure Computes (n : ℕ) (step : List ℕ → List ℕ) (r : ℕ → ℕ → Prop) : Prop where
  isPlaces : ∀ {l}, IsPlaces n l → IsPlaces n (step l)
  mem_iff : ∀ {l}, IsPlaces n l → ∀ j, j ∈ step l ↔ ∃ i ∈ l, r i j

variable {step : List ℕ → List ℕ} {r : ℕ → ℕ → Prop} {l seen new : List ℕ}

theorem iterate_succ (step : List ℕ → List ℕ) (m : ℕ) (l : List ℕ) :
    iterate step (m + 1) l = iterate step m (step l) := by
  have hfixed (m : ℕ) (h : step l = l) : iterate step m l = l := by
    induction m with
    | zero => rfl
    | succ m ih => rw [iterate, if_pos (by simpa using h)]
  rw [iterate]
  split
  · rename_i h
    rw [beq_iff_eq] at h
    rw [h, hfixed m h]
  · rfl

theorem Computes.iterate (h : Computes n step r) (m : ℕ) :
    Computes n (iterate step m) (Walk r m) := by
  induction m with
  | zero => exact ⟨id, fun _ j => by simp [Pattern.iterate, Walk]⟩
  | succ m ih =>
    refine ⟨fun hl => ?_, fun hl j => ?_⟩
    · rw [iterate_succ]
      exact ih.isPlaces (h.isPlaces hl)
    · rw [iterate_succ, ih.mem_iff (h.isPlaces hl)]
      simp only [h.mem_iff hl, Walk]
      constructor
      · rintro ⟨i', ⟨i, hi, hr⟩, hwalk⟩
        exact ⟨i, hi, i', hr, hwalk⟩
      · rintro ⟨i, hi, i', hr, hwalk⟩
        exact ⟨i', ⟨i, hi, hr⟩, hwalk⟩

/-- What has been seen, and what of it is new: only from new places there are steps to places that
have not been seen. -/
structure IsFrontier (n : ℕ) (r : ℕ → ℕ → Prop) (seen new : List ℕ) : Prop where
  isPlaces : IsPlaces n seen
  isPlaces_new : IsPlaces n new
  subset : new ⊆ seen
  closed : ∀ i ∈ seen, i ∉ new → ∀ j, r i j → j ∈ seen

theorem IsPlaces.isFrontier (h : IsPlaces n l) : IsFrontier n r l l :=
  ⟨h, h, List.Subset.refl l, fun _ hi hnot => absurd hi hnot⟩

namespace IsFrontier

/-- The places that are new next. -/
theorem mem_newPlaces (h : IsFrontier n r seen new) (hstep : Computes n step r) :
    j ∈ newPlaces (step new) seen ↔ (∃ i ∈ new, r i j) ∧ j ∉ seen := by
  rw [Pattern.mem_newPlaces (hstep.isPlaces h.isPlaces_new) h.isPlaces,
    hstep.mem_iff h.isPlaces_new]

/-- A step leads to a place that has been seen or is new next. -/
theorem mem_of_step (h : IsFrontier n r seen new) (hstep : Computes n step r) (hi : i ∈ seen)
    (hr : r i j) : j ∈ newPlaces (step new) seen ∨ j ∈ seen := by
  by_cases hseen : j ∈ seen
  · exact .inr hseen
  · by_cases hnew : i ∈ new
    · exact .inl ((h.mem_newPlaces hstep).mpr ⟨⟨i, hnew, hr⟩, hseen⟩)
    · exact absurd (h.closed i hi hnew j hr) hseen

theorem next (h : IsFrontier n r seen new) (hstep : Computes n step r) :
    IsFrontier n r (mergePlaces (newPlaces (step new) seen) seen) (newPlaces (step new) seen) := by
  have hnew := (hstep.isPlaces h.isPlaces_new).sublist (newPlaces_sublist (step new) seen)
  refine ⟨isPlaces_mergePlaces hnew h.isPlaces, hnew, fun i hi => mem_mergePlaces.mpr (.inl hi),
    fun i hi hnot j hr => ?_⟩
  have hseen : i ∈ seen := (mem_mergePlaces.mp hi).resolve_left hnot
  exact mem_mergePlaces.mpr (h.mem_of_step hstep hseen hr)

/-- If nothing is new next, all places that can be reached have been seen. -/
theorem mem_of_walk (h : IsFrontier n r seen new) (hstep : Computes n step r)
    (hnil : newPlaces (step new) seen = []) (hi : i ∈ seen) (hwalk : Walk r m i j) : j ∈ seen := by
  induction m generalizing i with
  | zero =>
    obtain rfl : i = j := hwalk
    exact hi
  | succ m ih =>
    obtain ⟨i', hr, hwalk⟩ := hwalk
    have hi' := h.mem_of_step hstep hi hr
    rw [hnil] at hi'
    exact ih (hi'.resolve_left List.not_mem_nil) hwalk

/-- **Spreading** reaches what can be reached in a number of steps. -/
theorem spread_spec (h : IsFrontier n r seen new) (hstep : Computes n step r) (m : ℕ) :
    IsPlaces n (spread step m seen new) ∧
      ∀ j, j ∈ spread step m seen new ↔ ∃ i ∈ seen, ∃ k ≤ m, Walk r k i j := by
  induction m generalizing seen new with
  | zero =>
    refine ⟨h.isPlaces, fun j => ?_⟩
    simp [spread, Walk]
  | succ m ih =>
    rw [spread]
    split
    · rename_i hnil
      refine ⟨h.isPlaces, fun j => ⟨fun hj => ⟨j, hj, 0, Nat.zero_le _, rfl⟩, ?_⟩⟩
      rintro ⟨i, hi, k, -, hwalk⟩
      exact h.mem_of_walk hstep hnil hi hwalk
    · obtain ⟨hplaces, hmem⟩ := ih (h.next hstep)
      refine ⟨hplaces, fun j => (hmem j).trans ⟨?_, ?_⟩⟩
      · rintro ⟨i, hi, k, hk, hwalk⟩
        rcases mem_mergePlaces.mp hi with hi | hi
        · obtain ⟨⟨i', hi', hr⟩, -⟩ := (h.mem_newPlaces hstep).mp hi
          exact ⟨i', h.subset hi', k + 1, Nat.succ_le_succ hk, i, hr, hwalk⟩
        · exact ⟨i, hi, k, hk.trans (Nat.le_succ m), hwalk⟩
      · rintro ⟨i, hi, k, hk, hwalk⟩
        cases k with
        | zero => exact ⟨i, mem_mergePlaces.mpr (.inr hi), 0, Nat.zero_le _, hwalk⟩
        | succ k =>
          obtain ⟨i', hr, hwalk⟩ := hwalk
          have hi' := mem_mergePlaces.mpr (h.mem_of_step hstep hi hr)
          exact ⟨i', hi', k, Nat.le_of_succ_le_succ hk, hwalk⟩

/-- There are no new places any more after as many rounds as there are places not seen. -/
theorem spread_add (h : IsFrontier n r seen new) (hstep : Computes n step r)
    (hm : n + 1 ≤ m + seen.length) (k : ℕ) :
    spread step (m + k) seen new = spread step m seen new := by
  induction m generalizing seen new with
  | zero =>
    rw [Nat.zero_add] at hm ⊢
    cases k with
    | zero => rfl
    | succ k =>
      have hnew := (hstep.isPlaces h.isPlaces_new).sublist (newPlaces_sublist (step new) seen)
      have hnil : newPlaces (step new) seen = [] := by
        refine List.eq_nil_iff_forall_not_mem.mpr fun i hi => ?_
        exact ((h.mem_newPlaces hstep).mp hi).2 (h.isPlaces.mem hm (hnew.le i hi))
      rw [spread, spread, hnil]
  | succ m ih =>
    rw [Nat.succ_add, spread, spread]
    split
    · rfl
    · rename_i hnil
      refine ih (h.next hstep) ?_
      have hlength := length_mergePlaces fun i hi => ((h.mem_newPlaces hstep (j := i)).mp hi).2
      have hpos := List.length_pos_of_ne_nil hnil
      omega

end IsFrontier

/-! ## Runs -/

theorem computes_stepOver (v : List Char) (p : Char → Bool) :
    Computes v.length (stepOver v.toArray p) fun i j =>
      (∃ c, v[i]? = some c ∧ p c) ∧ j = i + 1 := by
  have hmem {l : List ℕ} (j : ℕ) : j ∈ stepOver v.toArray p l ↔
      ∃ i ∈ l, (∃ c, v[i]? = some c ∧ p c) ∧ j = i + 1 := by
    simp only [stepOver, List.mem_filterMap, List.getElem?_toArray]
    refine exists_congr fun i => and_congr_right fun _ => ?_
    cases v[i]? with
    | none => simp
    | some c =>
      rw [Option.any_some]
      split
      · rename_i hc
        simp [hc, eq_comm (a := j)]
      · rename_i hc
        simp [hc]
  refine ⟨fun {l} hl => ⟨?_, fun j hj => ?_⟩, fun _ => hmem⟩
  · refine List.Pairwise.filterMap _ (fun i i' hgt j hj j' hj' => ?_) hl.descending
    split at hj
    · split at hj'
      · obtain rfl := Option.some.inj hj
        obtain rfl := Option.some.inj hj'
        omega
      · exact nomatch hj'
    · exact nomatch hj
  · obtain ⟨i, -, ⟨c, hc, -⟩, rfl⟩ := (hmem j).mp hj
    exact (List.getElem?_eq_some_iff.mp hc).1

theorem Computes.comp {step' : List ℕ → List ℕ} {r' : ℕ → ℕ → Prop} (h : Computes n step r)
    (h' : Computes n step' r') :
    Computes n (fun l => step' (step l)) fun i k => ∃ j, r i j ∧ r' j k := by
  refine ⟨fun hl => h'.isPlaces (h.isPlaces hl), fun hl k => ?_⟩
  rw [h'.mem_iff (h.isPlaces hl)]
  simp only [h.mem_iff hl]
  constructor
  · rintro ⟨j, ⟨i, hi, hr⟩, hr'⟩
    exact ⟨i, hi, j, hr, hr'⟩
  · rintro ⟨i, hi, j, hr, hr'⟩
    exact ⟨j, ⟨i, hi, hr⟩, hr'⟩

/-- Without a bound, as many rounds as there are places are enough. -/
theorem Computes.mem_spread (h : Computes n step r) (hl : IsPlaces n l) (bound : Option ℕ) :
    j ∈ spread step (match bound with
      | some m => Nat.min m (n + 1)
      | none => n + 1) l l ↔
      ∃ i ∈ l, ∃ k, (∀ m, bound = some m → k ≤ m) ∧ Walk r k i j := by
  have hspec (m : ℕ) := (hl.isFrontier.spread_spec h m).2 j
  have hrounds (m : ℕ) := hl.isFrontier.spread_add h (m := n + 1) (by omega) m
  cases bound with
  | none =>
    constructor
    · intro hj
      obtain ⟨i, hi, k, -, hwalk⟩ := (hspec (n + 1)).mp hj
      exact ⟨i, hi, k, nofun, hwalk⟩
    · rintro ⟨i, hi, k, -, hwalk⟩
      have hj := (hspec (n + 1 + k)).mpr ⟨i, hi, k, by omega, hwalk⟩
      rwa [hrounds] at hj
  | some m =>
    have hrun : spread step (Nat.min m (n + 1)) l l = spread step m l l := by
      rcases Nat.le_total m (n + 1) with hle | hle
      · have hmin : Nat.min m (n + 1) = m := Nat.min_eq_left hle
        rw [hmin]
      · have hmin : Nat.min m (n + 1) = n + 1 := Nat.min_eq_right hle
        rw [hmin, ← hrounds (m - (n + 1)), Nat.add_sub_cancel' hle]
    rw [hrun, hspec m]
    simp only [Option.some.injEq, forall_eq']

theorem Computes.congr {r' : ℕ → ℕ → Prop} (h : Computes n step r) (hr : ∀ i j, r i j ↔ r' i j) :
    Computes n step r' := by
  refine ⟨h.isPlaces, fun hl j => (h.mem_iff hl j).trans ?_⟩
  simp only [hr]

theorem computes_text (v s : List Char) :
    Computes v.length (run v.toArray (.text s)) ((text s).Spans v) := by
  induction s with
  | nil =>
    refine ⟨id, fun _ j => ?_⟩
    simp [run, Spans]
  | cons c s ih =>
    refine ((computes_stepOver v (· == c)).comp ih).congr fun i j => ?_
    simp only [Spans, beq_iff_eq, List.length_cons]
    constructor
    · rintro ⟨_, ⟨⟨_, hc, rfl⟩, rfl⟩, hs, rfl⟩
      obtain ⟨hi, rfl⟩ := List.getElem?_eq_some_iff.mp hc
      refine ⟨?_, by omega⟩
      rw [List.drop_eq_getElem_cons hi]
      exact (List.prefix_cons_inj _).mpr hs
    · rintro ⟨hs, rfl⟩
      obtain ⟨t, ht⟩ := hs
      have hc : v[i]? = some c := by
        rw [← List.head?_drop, ← ht]
        rfl
      refine ⟨i + 1, ⟨⟨c, hc, rfl⟩, rfl⟩, ⟨t, ?_⟩, by omega⟩
      rw [← List.tail_drop, ← ht]
      rfl

/-- **Running a pattern** finds the places where the parts end that it matches. -/
theorem computes_run (v : List Char) (p : Pattern) :
    Computes v.length (run v.toArray p) (p.Spans v) := by
  induction p with
  | empty =>
    refine ⟨id, fun _ j => ?_⟩
    simp [run, Spans]
  | text s => exact computes_text v s
  | chars s => exact computes_stepOver v s.contains
  | place p =>
    refine ⟨fun hl => hl.sublist List.filter_sublist, fun _ j => ?_⟩
    simp only [run, List.mem_filter, List.getElem?_toArray, Spans]
    constructor
    · rintro ⟨hj, hp⟩
      exact ⟨j, hj, hp, rfl⟩
    · rintro ⟨_, hj, hp, rfl⟩
      exact ⟨hj, hp⟩
  | cat p q ihp ihq => exact ihp.comp ihq
  | alt p q ihp ihq =>
    refine ⟨fun hl => isPlaces_mergePlaces (ihp.isPlaces hl) (ihq.isPlaces hl), fun hl j => ?_⟩
    rw [run, mem_mergePlaces, ihp.mem_iff hl, ihq.mem_iff hl]
    simp only [Spans, and_or_left, exists_or]
  | repeated p min max ih =>
    have hstart := ih.iterate min
    refine ⟨fun hl => ?_, fun {l} hl k => ?_⟩
    · exact ((hstart.isPlaces hl).isFrontier.spread_spec ih _).1
    · have hrun : run v.toArray (.repeated p min max) l = spread (run v.toArray p)
          (match max.map (· - min) with
            | some m => Nat.min m (v.length + 1)
            | none => v.length + 1)
          (Pattern.iterate (run v.toArray p) min l) (Pattern.iterate (run v.toArray p) min l) := by
        cases max <;> simp [run]
      rw [hrun, ih.mem_spread (hstart.isPlaces hl)]
      simp only [hstart.mem_iff hl, Spans]
      constructor
      · rintro ⟨j, ⟨i, hi, hmin⟩, m, hm, hmore⟩
        refine ⟨i, hi, min + m, Nat.le_add_right _ _, ?_, walk_add.mpr ⟨j, hmin, hmore⟩⟩
        rintro m' rfl
        have hle : m ≤ m' - min := hm _ rfl
        omega
      · rintro ⟨i, hi, m, hle, hm, hwalk⟩
        obtain ⟨m, rfl⟩ := Nat.exists_eq_add_of_le hle
        obtain ⟨j, hmin, hmore⟩ := walk_add.mp hwalk
        refine ⟨j, ⟨i, hi, hmin⟩, m, ?_, hmore⟩
        rintro _ hmax
        obtain ⟨m', rfl, rfl⟩ := Option.map_eq_some_iff.mp hmax
        have := hm _ rfl
        omega
  | group _ p ih => exact ih

theorem occursIn_iff : p.occursIn v ↔ ∃ i ≤ v.length, ∃ j, p.Spans v i j := by
  have hplaces : IsPlaces v.length (List.range (v.length + 1)).reverse := by
    refine ⟨List.pairwise_reverse.mpr List.pairwise_lt_range, fun i hi => ?_⟩
    exact Nat.le_of_lt_succ (List.mem_range.mp (List.mem_reverse.mp hi))
  have hmem := (computes_run v p).mem_iff hplaces
  simp only [List.mem_reverse, List.mem_range, Nat.lt_succ_iff] at hmem
  rw [occursIn, Bool.not_eq_true', List.isEmpty_eq_false_iff_exists_mem]
  simp only [hmem]
  exact ⟨fun ⟨j, i, hi, h⟩ => ⟨i, hi, j, h⟩, fun ⟨i, hi, j, h⟩ => ⟨j, i, hi, h⟩⟩

/-! ## Sequences -/

/-- The patterns match the text between two places one after the other. -/
def SpansAll (v : List Char) : List Pattern → ℕ → ℕ → Prop
  | [], i, j => i = j
  | p :: ps, i, k => ∃ j, p.Spans v i j ∧ SpansAll v ps j k

@[simp]
theorem spansAll_nil : SpansAll v [] i j ↔ i = j := Iff.rfl

@[simp]
theorem spansAll_cons : SpansAll v (p :: ps) i k ↔ ∃ j, p.Spans v i j ∧ SpansAll v ps j k := Iff.rfl

theorem spansAll_append :
    SpansAll v (ps ++ qs) i k ↔ ∃ j, SpansAll v ps i j ∧ SpansAll v qs j k := by
  induction ps generalizing i with
  | nil => simp
  | cons p ps ih =>
    rw [List.cons_append, spansAll_cons]
    simp only [ih, spansAll_cons]
    constructor
    · rintro ⟨j, hp, j', hps, hqs⟩
      exact ⟨j', ⟨j, hp, hps⟩, hqs⟩
    · rintro ⟨j', ⟨j, hp, hps⟩, hqs⟩
      exact ⟨j, hp, j', hps, hqs⟩

theorem spansAll_singleton : SpansAll v [p] i j ↔ p.Spans v i j := by simp

/-- A pattern matches what its parts match one after the other. -/
theorem spansAll_parts (p : Pattern) : SpansAll v p.parts i k ↔ p.Spans v i k := by
  induction p generalizing i with
  | empty => rfl
  | cat p q _ ihq => simp only [parts, spansAll_cons, ihq, Spans]
  | text | chars | place | alt | repeated | group => exact spansAll_singleton

theorem spans_ofParts (ps : List Pattern) : (ofParts ps).Spans v i k ↔ SpansAll v ps i k := by
  induction ps generalizing i with
  | nil => rfl
  | cons p ps ih =>
    cases ps with
    | nil => exact spansAll_singleton.symm
    | cons q qs =>
      rw [spansAll_cons]
      simp only [← ih]
      rfl

theorem spans_text_append (s t : List Char) :
    (text (s ++ t)).Spans v i k ↔ ∃ j, (text s).Spans v i j ∧ (text t).Spans v j k := by
  simp only [Spans, List.length_append]
  constructor
  · rintro ⟨⟨u, hu⟩, rfl⟩
    refine ⟨_, ⟨⟨t ++ u, by rw [← hu, List.append_assoc]⟩, rfl⟩, ⟨u, ?_⟩, by omega⟩
    rw [← List.drop_drop, ← hu, List.append_assoc, List.drop_left]
  · rintro ⟨_, ⟨⟨u, hu⟩, rfl⟩, ⟨u', hu'⟩, rfl⟩
    rw [← List.drop_drop, ← hu, List.drop_left] at hu'
    exact ⟨⟨u', by rw [← hu, ← hu', List.append_assoc]⟩, by omega⟩

/-- Joining texts does not change what matches. -/
theorem spansAll_joinTexts (ps : List Pattern) :
    SpansAll v (joinTexts ps) i k ↔ SpansAll v ps i k := by
  induction ps generalizing i with
  | nil => rfl
  | cons p ps ih =>
    have hcons : SpansAll v (p :: ps) i k ↔ SpansAll v (p :: joinTexts ps) i k := by
      simp only [spansAll_cons, ih]
    rw [hcons, joinTexts.eq_def]
    dsimp only
    split
    · rename_i s t qs hjoin
      rw [hjoin]
      simp only [spansAll_cons, spans_text_append]
      constructor
      · rintro ⟨j, ⟨j', hs, ht⟩, hqs⟩
        exact ⟨j', hs, j, ht, hqs⟩
      · rintro ⟨j', hs, j, ht, hqs⟩
        exact ⟨j, ⟨j', hs, ht⟩, hqs⟩
    · rfl

/-- **A sequence** matches what its patterns match one after the other. -/
theorem spans_sequence (ps : List Pattern) : (sequence ps).Spans v i k ↔ SpansAll v ps i k := by
  rw [sequence, spans_ofParts, spansAll_joinTexts]
  induction ps generalizing i with
  | nil => rfl
  | cons p ps ih =>
    rw [List.flatMap_cons, spansAll_append]
    simp only [spansAll_parts, ih, spansAll_cons]

end MarkupGrammar.Pattern
