import MarkupGrammar.Chunked
import Mathlib.Data.List.Basic

/-! # Chunked stores are lists

A store serves requests as a list does to which values are added at the end (`serve_listed`). The
number of a value is split into the place of its chunk and the place in it, so this rests on the
sizes of the chunks: all but the last are full (`Packed`). Changes keep the sizes, and a value is
added to the chunk of its number, which is the last one or a new one behind full ones. -/

namespace MarkupGrammar

namespace Chunked

variable {α : Type} {s : Chunked α} {c : Array α} {cs : List (Array α)} {i j : Nat} {x : α}

theorem chunkSize_pos : 0 < chunkSize := Nat.succ_pos _

/-! ## Packed chunks -/

/-- All chunks but the last are full, and the last one is not empty. -/
inductive Packed : List (Array α) → Prop
  | nil : Packed []
  | last {c : Array α} (hpos : 0 < c.size) (hle : c.size ≤ chunkSize) : Packed [c]
  | cons {c : Array α} {cs : List (Array α)} (hc : c.size = chunkSize) (h : Packed cs) :
      Packed (c :: cs)

theorem Packed.full (h : Packed cs) : ∀ c ∈ cs.dropLast, c.size = chunkSize := by
  induction h with
  | nil | last => simp
  | @cons c cs hc h ih =>
    cases cs with
    | nil => simp
    | cons d cs =>
      rw [List.dropLast_cons_of_ne_nil (List.cons_ne_nil d cs)]
      exact List.forall_mem_cons.mpr ⟨hc, ih⟩

/-- A place is in the first chunk, or it is a place in the others. -/
theorem place_cases (i : Nat) : (i < chunkSize ∧ i / chunkSize = 0 ∧ i % chunkSize = i) ∨
    ∃ k, i = chunkSize + k ∧ i / chunkSize = k / chunkSize + 1 ∧
      i % chunkSize = k % chunkSize := by
  rcases Nat.lt_or_ge i chunkSize with h | h
  · exact .inl ⟨h, Nat.div_eq_of_lt h, Nat.mod_eq_of_lt h⟩
  · obtain ⟨k, rfl⟩ := Nat.exists_eq_add_of_le h
    exact .inr ⟨k, rfl, Nat.add_div_left k chunkSize_pos, Nat.add_mod_left _ _⟩

/-- **The place of a value** is that of its chunk and that in the chunk. -/
theorem Packed.getElem?_flatMap (h : Packed cs) (i : Nat) :
    (cs.flatMap Array.toList)[i]? = (cs[i / chunkSize]?).bind (·[i % chunkSize]?) := by
  induction h generalizing i with
  | nil => rfl
  | @last c _ hle =>
    rw [List.flatMap_singleton, Array.getElem?_toList]
    rcases place_cases i with ⟨-, hdiv, hmod⟩ | ⟨k, rfl, hdiv, -⟩
    · rw [hdiv, hmod, List.getElem?_cons_zero, Option.bind_some]
    · rw [hdiv, List.getElem?_cons_succ, List.getElem?_nil, Option.bind_none,
        Array.getElem?_eq_none (Nat.le_trans hle (Nat.le_add_right _ k))]
  | @cons c cs hc _ ih =>
    have hlength : c.toList.length = chunkSize := hc
    rw [List.flatMap_cons]
    rcases place_cases i with ⟨hlt, hdiv, hmod⟩ | ⟨k, rfl, hdiv, hmod⟩
    · rw [hdiv, hmod, List.getElem?_append_left (hlength ▸ hlt), List.getElem?_cons_zero,
        Option.bind_some, Array.getElem?_toList]
    · rw [hdiv, hmod, List.getElem?_append_right (hlength ▸ Nat.le_add_right _ k), hlength,
        Nat.add_sub_cancel_left, List.getElem?_cons_succ, ih]

/-! ### Changes -/

theorem Packed.modify (h : Packed cs) (i : Nat) (f : Array α → Array α)
    (hf : ∀ c, (f c).size = c.size) : Packed (cs.modify i f) := by
  induction h generalizing i with
  | nil => cases i <;> exact .nil
  | last hpos hle =>
    cases i with
    | zero => exact .last (by rwa [hf]) (by rwa [hf])
    | succ i => cases i <;> exact .last hpos hle
  | cons hc h ih =>
    cases i with
    | zero => exact .cons (by rwa [hf]) h
    | succ i => exact .cons hc (ih i)

/-- The value of a number is changed, and no other one. -/
theorem Packed.flatMap_modify (h : Packed cs) (i : Nat) (f : α → α) :
    (cs.modify (i / chunkSize) (·.modify (i % chunkSize) f)).flatMap Array.toList =
      (cs.flatMap Array.toList).modify i f := by
  have hmodify := h.modify (i / chunkSize) (·.modify (i % chunkSize) f) fun _ => Array.size_modify
  refine List.ext_getElem? fun k => ?_
  rw [hmodify.getElem?_flatMap, List.getElem?_modify, List.getElem?_modify, h.getElem?_flatMap]
  cases cs[k / chunkSize]? with
  | none => rfl
  | some c =>
    by_cases hdiv : i / chunkSize = k / chunkSize
    · -- the chunk is the same, so the places in it tell the numbers apart
      have hmod : i % chunkSize = k % chunkSize ↔ i = k := by
        refine ⟨fun hmod => ?_, fun h => h ▸ rfl⟩
        rw [← Nat.div_add_mod i chunkSize, ← Nat.div_add_mod k chunkSize, hdiv, hmod]
      simp only [Option.map_eq_map, Option.map_some, Option.bind_some, if_pos hdiv,
        Array.getElem?_modify, hmod]
      split
      · rfl
      · exact Option.map_id.symm ▸ rfl
    · have hne : i ≠ k := fun h => hdiv (h ▸ rfl)
      simp [hdiv, hne]

/-! ### Additions -/

/-- The chunks with one for the place `i`. -/
def opened (cs : List (Array α)) (i : Nat) : List (Array α) :=
  if i / chunkSize = cs.length then cs ++ [#[]] else cs

theorem opened_cons (c : Array α) (cs : List (Array α)) (k : Nat) :
    opened (c :: cs) (chunkSize + k) = c :: opened cs k := by
  unfold opened
  rw [Nat.add_div_left k chunkSize_pos, List.length_cons]
  simp only [Nat.add_right_cancel_iff]
  split <;> rfl

theorem packed_singleton (x : α) : Packed [#[x]] :=
  .last Nat.one_pos (Nat.succ_le_of_lt chunkSize_pos)

/-- A value put behind all others comes last. -/
theorem Packed.store (h : Packed cs) (x : α) {n : Nat}
    (hn : n = (cs.flatMap Array.toList).length) :
    Packed ((opened cs n).modify (n / chunkSize) (·.push x)) ∧
      ((opened cs n).modify (n / chunkSize) (·.push x)).flatMap Array.toList =
        cs.flatMap Array.toList ++ [x] := by
  induction h generalizing n with
  | nil =>
    have hopened : opened ([] : List (Array α)) 0 = [#[]] := by
      rw [opened, Nat.zero_div, if_pos List.length_nil.symm, List.nil_append]
    rw [List.flatMap_nil, List.length_nil] at hn
    subst hn
    rw [hopened, Nat.zero_div]
    exact ⟨packed_singleton x, by simp⟩
  | @last c hpos hle =>
    rw [List.flatMap_singleton, Array.length_toList] at hn
    subst hn
    rcases Nat.lt_or_eq_of_le hle with hlt | hc
    · have hdiv : c.size / chunkSize = 0 := Nat.div_eq_of_lt hlt
      have hopened : opened [c] c.size = [c] := by
        rw [opened, hdiv, if_neg (by simp)]
      rw [hopened, hdiv]
      refine ⟨.last ?_ ?_, by simp⟩ <;> rw [Array.size_push] <;> omega
    · have hdiv : c.size / chunkSize = 1 := by rw [hc, Nat.div_self chunkSize_pos]
      have hopened : opened [c] c.size = [c, #[]] := by
        rw [opened, hdiv, if_pos (by simp)]
        rfl
      rw [hopened, hdiv]
      exact ⟨.cons hc (packed_singleton x), by simp⟩
  | @cons c cs hc _ ih =>
    have hlength : n = chunkSize + (cs.flatMap Array.toList).length := by
      rw [hn, List.flatMap_cons, List.length_append, Array.length_toList, hc]
    obtain ⟨hpacked, hvalues⟩ := ih rfl
    rw [hlength, opened_cons, Nat.add_div_left _ chunkSize_pos, List.modify_succ_cons,
      List.flatMap_cons, hvalues, List.flatMap_cons, List.append_assoc]
    exact ⟨.cons hc hpacked, rfl⟩

/-! ## Stores -/

/-- The chunks are packed with as many values as the store says, and each has a number. -/
structure WellFormed (s : Chunked α) : Prop where
  packed : Packed s.chunks.toList
  size_eq : s.size = s.toList.length
  size_le : s.size ≤ maxSize

theorem wellFormed_empty : ({} : Chunked α).WellFormed := ⟨.nil, rfl, Nat.zero_le _⟩

theorem WellFormed.get?_eq (h : s.WellFormed) (i : Nat) : s.get? i = s.toList[i]? := by
  rw [toList, h.packed.getElem?_flatMap, Array.getElem?_toList]
  rfl

theorem toList_modify (h : s.WellFormed) (i : Nat) (f : α → α) :
    (s.modify i f).toList = s.toList.modify i f := by
  unfold toList Chunked.modify
  rw [Array.toList_modify, h.packed.flatMap_modify]

theorem WellFormed.modify (h : s.WellFormed) (i : Nat) (f : α → α) :
    (s.modify i f).WellFormed where
  packed := by
    unfold Chunked.modify
    rw [Array.toList_modify]
    exact h.packed.modify _ _ fun _ => Array.size_modify
  size_eq := by
    rw [toList_modify h, List.length_modify]
    exact h.size_eq
  size_le := h.size_le

/-! ### Additions -/

/-- The store is the same, apart from the room of its table. -/
def SameValues (s s' : Chunked α) : Prop := s'.chunks = s.chunks ∧ s'.size = s.size

theorem sameValues_grow (s : Chunked α) : s.SameValues s.grow := by
  unfold grow
  split <;> exact ⟨rfl, rfl⟩

theorem SameValues.toList_eq {s' : Chunked α} (h : s.SameValues s') : s'.toList = s.toList := by
  rw [toList, h.1, toList]

theorem SameValues.wellFormed {s' : Chunked α} (h : s.SameValues s') (hs : s.WellFormed) :
    s'.WellFormed where
  packed := h.1 ▸ hs.packed
  size_eq := by rw [h.2, h.toList_eq, hs.size_eq]
  size_le := h.2 ▸ hs.size_le

/-- A chunk that is opened is empty and comes last. -/
theorem openChunk_spec (m : Memory) (s : Chunked α) :
    (∃ r, (s.openChunk m).1 = .error r ∧ s.SameValues (s.openChunk m).2) ∨
      (s.openChunk m).1 = .ok () ∧ (s.openChunk m).2.chunks = s.chunks.push #[] ∧
        (s.openChunk m).2.size = s.size := by
  unfold openChunk
  split
  · exact .inl ⟨_, rfl, rfl, rfl⟩
  · exact .inl ⟨_, rfl, sameValues_grow s⟩
  · exact .inr ⟨rfl, rfl, (sameValues_grow s).2⟩

theorem reserve_spec (m : Memory) (s : Chunked α) :
    (∃ r, (s.reserve m).1 = .error r ∧ s.SameValues (s.reserve m).2) ∨
      (s.reserve m).1 = .ok () ∧
        (s.reserve m).2.chunks.toList = opened s.chunks.toList s.size ∧
        (s.reserve m).2.size = s.size := by
  unfold reserve opened
  rw [Array.length_toList]
  split
  · rcases openChunk_spec m s with h | ⟨hr, hchunks, hsize⟩
    · exact .inl h
    · exact .inr ⟨hr, by rw [hchunks, Array.toList_push], hsize⟩
  · exact .inr ⟨rfl, rfl, rfl⟩

/-- **What an addition does**: it is refused and changes no value, or the value comes last and its
number is the size before. -/
theorem add_cases (m : Memory) (s : Chunked α) (x : α) :
    (∃ r, (s.add m x).1 = .error r ∧ s.SameValues (s.add m x).2) ∨
      (s.add m x).1 = .ok s.size ∧ s.size < maxSize ∧
        (s.add m x).2.chunks.toList =
          (opened s.chunks.toList s.size).modify (s.size / chunkSize) (·.push x) ∧
        (s.add m x).2.size = s.size + 1 := by
  unfold add
  split
  · exact .inl ⟨_, rfl, rfl, rfl⟩
  · rename_i hlt
    rcases reserve_spec m s with ⟨r, hr, hsame⟩ | ⟨hr, hchunks, hsize⟩
    · refine .inl ⟨r, ?_⟩
      split
      · rename_i h
        rw [h] at hr hsame
        exact ⟨congrArg Except.error (Except.error.inj hr), hsame⟩
      · rename_i h
        rw [h] at hr
        exact nomatch hr
    · refine .inr ?_
      split
      · rename_i h
        rw [h] at hr
        exact nomatch hr
      · rename_i s' h
        rw [h] at hchunks hsize
        dsimp only at hchunks hsize
        refine ⟨by rw [hsize], Nat.lt_of_not_ge hlt, ?_, by rw [Chunked.store, hsize]⟩
        rw [Chunked.store, Array.toList_modify, hchunks, hsize]

/-- Where all memory is given, a value is refused for want of a number only. -/
theorem add_eq_ok_iff : (s.add {} x).1 = .ok s.size ↔ s.size < maxSize := by
  constructor
  · rcases add_cases {} s x with ⟨r, hr, -⟩ | ⟨-, hlt, -⟩
    · rw [hr]
      exact fun h => nomatch h
    · exact fun _ => hlt
  · intro hlt
    have hreserve : ∃ s', s.reserve {} = (.ok (), s') ∧ s'.size = s.size := by
      have hsize := (sameValues_grow s).2
      unfold reserve
      split
      · unfold openChunk
        rw [ite_self]
        exact ⟨_, rfl, hsize⟩
      · exact ⟨s, rfl, rfl⟩
    obtain ⟨s', hs', hsize⟩ := hreserve
    unfold add
    rw [if_neg (Nat.not_le_of_lt hlt), hs', ← hsize]

/-! ## Requests -/

/-- A request to a store: to add a value, with the memory that is given for it, or to change the
value of a number. -/
inductive Request (α : Type) where
  | add (memory : Memory) (x : α)
  | modify (i : Nat) (f : α → α)

/-- The answer to a request: the number of the value that was added or why it was refused, or the
value that was found. -/
inductive Answer (α : Type) where
  | added (result : Except Refusal Nat)
  | found (value? : Option α)

/-- The number that was given. -/
def Answer.number? : Answer α → Option Nat
  | added (.ok i) => some i
  | added (.error _) | found _ => none

/-- Serves a request. -/
def respond (s : Chunked α) : Request α → Answer α × Chunked α
  | .add m x => (.added (s.add m x).1, (s.add m x).2)
  | .modify i f => (.found (s.get? i), s.modify i f)

/-- Serves requests in order, whether values are refused or not. -/
def serve (s : Chunked α) : List (Request α) → List (Answer α) × Chunked α
  | [] => ([], s)
  | r :: rs =>
    let (answer, s) := s.respond r
    let (answers, last) := s.serve rs
    (answer :: answers, last)

/-- A list of values after a request with the given answer: a value that is refused is not added. -/
def Request.onList (xs : List α) : Request α → Answer α → List α
  | .add _ x, .added (.ok _) => xs ++ [x]
  | .add _ _, _ => xs
  | .modify i f, _ => xs.modify i f

/-- A list of values after requests with the given answers. -/
def listed (xs : List α) : List (Request α) → List (Answer α) → List α
  | r :: rs, a :: as => listed (r.onList xs a) rs as
  | _, _ => xs

/-- A store after a request. -/
structure Responds (s : Chunked α) (r : Request α) (a : Answer α) (s' : Chunked α) : Prop where
  wellFormed : s'.WellFormed
  toList_eq : s'.toList = r.onList s.toList a
  /-- Numbers are given in order. -/
  number : (a.number? = none ∧ s'.size = s.size) ∨
    (a.number? = some s.size ∧ s'.size = s.size + 1)

theorem WellFormed.respond (h : s.WellFormed) (r : Request α) :
    Responds s r (s.respond r).1 (s.respond r).2 := by
  cases r with
  | modify i f => exact ⟨h.modify i f, toList_modify h i f, .inl ⟨rfl, rfl⟩⟩
  | add m x =>
    unfold Chunked.respond
    dsimp only
    rcases add_cases m s x with ⟨r, hr, hsame⟩ | ⟨hr, hlt, hchunks, hsize⟩
    · rw [hr]
      exact ⟨hsame.wellFormed h, hsame.toList_eq, .inl ⟨rfl, hsame.2⟩⟩
    · rw [hr]
      obtain ⟨hpacked, hvalues⟩ := h.packed.store x h.size_eq
      rw [← hchunks] at hpacked hvalues
      refine ⟨⟨hpacked, ?_, hsize ▸ hlt⟩, hvalues, .inr ⟨rfl, hsize⟩⟩
      rw [hsize, h.size_eq, toList, toList, hvalues, List.length_append]
      rfl

/-- What is kept by requests: the store is that of a list, and the numbers given are those that
follow. -/
theorem WellFormed.serve (h : s.WellFormed) (rs : List (Request α)) :
    (s.serve rs).2.WellFormed ∧
      (s.serve rs).2.toList = listed s.toList rs (s.serve rs).1 ∧
      ∃ n, (s.serve rs).2.size = s.size + n ∧
        (s.serve rs).1.filterMap Answer.number? = List.range' s.size n := by
  induction rs generalizing s with
  | nil => exact ⟨h, rfl, 0, rfl, rfl⟩
  | cons r rs ih =>
    obtain ⟨hs, hlist, hnumber⟩ := h.respond r
    obtain ⟨hlast, hlisted, n, hsize, hnumbers⟩ := ih hs
    refine ⟨hlast, ?_, ?_⟩
    · rw [hlist] at hlisted
      exact hlisted
    · change ∃ n, ((s.respond r).2.serve rs).2.size = s.size + n ∧
        ((s.respond r).1 :: ((s.respond r).2.serve rs).1).filterMap Answer.number? =
          List.range' s.size n
      rcases hnumber with ⟨hnone, hsame⟩ | ⟨hsome, hnext⟩
      · rw [hsame] at hsize hnumbers
        exact ⟨n, hsize, by rw [List.filterMap_cons_none hnone, hnumbers]⟩
      · rw [hnext] at hsize hnumbers
        refine ⟨n + 1, by rw [hsize]; omega, ?_⟩
        rw [List.filterMap_cons_some hsome, hnumbers, List.range'_succ]

/-- **A store serves requests as a list does.** The values that are added get the numbers from zero
on, in order; under its number a value is found as it was last changed, and there is none under any
other number; all chunks but the last are full. A value is refused without a change to any value or
number; where all memory is given, only the numbers can run out. -/
theorem serve_listed (rs : List (Request α)) :
    let answers := (({} : Chunked α).serve rs).1
    let s := (({} : Chunked α).serve rs).2
    let values := listed [] rs answers
    answers.filterMap Answer.number? = List.range s.size ∧
      (∀ i, s.get? i = values[i]?) ∧
      s.entries = values.zipIdx.map Prod.swap ∧
      s.size = values.length ∧ s.size ≤ maxSize ∧
      (∀ c ∈ s.chunks.toList.dropLast, c.size = chunkSize) ∧
      (∀ m x, (s.add m x).1 = .ok s.size ∨
        ∃ r, (s.add m x).1 = .error r ∧ s.SameValues (s.add m x).2) ∧
      ∀ x, (s.add {} x).1 = .ok s.size ↔ s.size < maxSize := by
  obtain ⟨h, hlist, n, hsize, hnumbers⟩ := (wellFormed_empty (α := α)).serve rs
  have hlist : (({} : Chunked α).serve rs).2.toList = listed [] rs (({} : Chunked α).serve rs).1 :=
    hlist
  refine ⟨?_, fun i => ?_, ?_, ?_, h.size_le, h.packed.full, fun m x => ?_, fun x => add_eq_ok_iff⟩
  · rw [hnumbers, hsize, List.range_eq_range', Nat.zero_add]
  · rw [h.get?_eq, hlist]
  · rw [entries, hlist]
  · rw [h.size_eq, hlist]
  · rcases add_cases m (({} : Chunked α).serve rs).2 x with hr | ⟨hr, -⟩
    · exact .inr hr
    · exact .inl hr

end Chunked

end MarkupGrammar
